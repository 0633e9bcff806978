import NameMangling.Proofs.Mangling.Results
import NameMangling.Proofs.Text.Encoding

/-!
# When mangling fails

Mangling sees nothing of a name but its bytes. The name as it was given is kept for one purpose: a
fault that blames a name shows it. So two names with the same bytes give the same result, or the
same fault about either of them (`Scheme.mangle_eq_mapError`), and it makes no difference whether a
name is handed over as bytes or as the text that they decode to.

Only two things can be wrong with a name that has bytes, and they are found before anything is
encoded: it may be empty, or hold the marker alone. If the prefix is a text, nothing else goes
wrong, because behind a text every body can be encoded (`Scheme.exists_encode_eq_ok`).

* `Scheme.decoded_names_mangle_alike` — byte strings, the texts that they decode to, and what
  mangling makes of both;
* `Scheme.mangle_cases` — a name behind a text is mangled, or is to blame itself.
-/

namespace NameMangling

/-! ### Faults that blame no name -/

namespace Fault

/-- **The same fault, of another name.** A fault that blames no name stays as it is. -/
def blaming (name : Value) : Fault → Fault
  | emptyName _ => emptyName name
  | bareMarker _ => bareMarker name
  | f => f

theorem blaming_of_blamedName?_eq_none {f : Fault} (h : f.blamedName? = none) (name : Value) :
    f.blaming name = f := by
  cases f with
  | emptyName n => cases h
  | bareMarker n => cases h
  | _ => rfl

end Fault

/-- Two values that cannot be joined are all that joining complains about. -/
theorem Value.eq_cannotJoin_of_append {v w : Value} {f : Fault} (h : v.append w = .error f) :
    f = .cannotJoin v w := by
  cases v <;> cases w <;> first
    | exact (Except.error.inj h).symm
    | cases h

/-- A value that cannot be shown is no name that could be blamed. -/
theorem Value.blamedName?_of_shown {v : Value} {f : Fault} (h : v.shown = .error f) :
    f.blamedName? = none := by
  unfold shown at h
  split at h
  · cases h
  · exact Except.error.inj h ▸ rfl

namespace Scheme

variable {s : Scheme} {name kind front : Value} {body bs : Bytes} {f : Fault} {t : Text}

theorem blamedName?_of_prefixFor (h : s.prefixFor kind = .error f) : f.blamedName? = none := by
  unfold prefixFor at h
  split at h
  · next k hk =>
    -- private prefixes are joined with the default one, and an unknown kind is to blame itself
    cases k with
    | default => cases h
    | assemblerPrivate => exact Value.eq_cannotJoin_of_append h ▸ rfl
    | linkerPrivate => exact Value.eq_cannotJoin_of_append h ▸ rfl
  · exact Except.error.inj h ▸ rfl

theorem blamedName?_of_before {u : Text} (h : front.before u = .error f) :
    f.blamedName? = none := by
  cases front with
  | text t => cases h
  | _ => exact Except.error.inj h ▸ rfl

theorem blamedName?_of_encode (h : s.encode front body = .error f) : f.blamedName? = none := by
  unfold encode at h
  split at h
  · -- in quoted mode three things can go wrong, one after the other
    cases hn : s.policy.needsQuotes body with
    | error e =>
      rw [hn] at h
      obtain rfl := Except.error.inj h
      -- the question for quotes has no answer only for an empty body
      cases body with
      | nil => exact Except.error.inj hn ▸ rfl
      | cons b rest => cases hn
    | ok needed =>
      rw [hn] at h
      cases needed with
      | true =>
        -- a prefix that cannot be shown is no name
        cases hshown : front.shown with
        | error e =>
          simp only [bind, Except.bind, hshown] at h
          exact Except.error.inj h ▸ Value.blamedName?_of_shown hshown
        | ok t =>
          simp only [bind, Except.bind, hshown] at h
          cases h
      | false => exact blamedName?_of_before h
  · exact blamedName?_of_before h

/-! ### Names with the same bytes -/

/-- **Mangling depends on the bytes of a name.** Only the blame depends on how it was given. -/
theorem mangle_eq_mapError (h : name.toBytes = .ok bs) :
    s.mangle name kind = (s.mangle (.bytes bs) kind).mapError (Fault.blaming name) := by
  -- what blames no name is not changed by blaming another one
  have hkeep : ∀ {α : Type} {x : Except Fault α}, (∀ f, x = .error f → f.blamedName? = none) →
      x.mapError (Fault.blaming name) = x := by
    intro α x hx
    cases x with
    | error f => exact congrArg Except.error (Fault.blaming_of_blamedName?_eq_none (hx f rfl) name)
    | ok a => rfl
  unfold mangle
  rw [h, Value.toBytes_bytes]
  cases bs with
  | nil => rfl
  | cons b rest =>
    cases hp : s.prefixFor kind with
    | error f =>
      have hf : f.blamedName? = none := blamedName?_of_prefixFor hp
      exact congrArg Except.error (Fault.blaming_of_blamedName?_eq_none hf name).symm
    | ok front =>
      simp only [bind, Except.bind]
      -- a bare marker blames the name; all that follows is the encoder, and it blames none
      split
      · split
        · rfl
        · exact (hkeep fun f hf => blamedName?_of_encode hf).symm
      · exact (hkeep fun f hf => blamedName?_of_encode hf).symm

/-- **A byte string and the text that it decodes to are one name.** The text gives all bytes back,
well-formed or not, so no two byte strings decode to one text, and both are mangled alike: with the
same result, or with the same fault, but for the name that it blames. -/
theorem decoded_names_mangle_alike :
    (∀ bs, (Text.ofBytes bs).toBytes = bs) ∧ Function.Injective Text.ofBytes ∧
    ∀ (s : Scheme) (bs : Bytes) (kind : Value),
      s.mangle (.text (Text.ofBytes bs)) kind =
        (s.mangle (.bytes bs) kind).mapError (Fault.blaming (.text (Text.ofBytes bs))) := by
  refine ⟨Text.toBytes_ofBytes, ?_, ?_⟩
  · intro bs cs h
    -- encoding takes the decoded texts apart again
    calc bs = (Text.ofBytes bs).toBytes := (Text.toBytes_ofBytes bs).symm
      _ = (Text.ofBytes cs).toBytes := by rw [h]
      _ = cs := Text.toBytes_ofBytes cs
  · intro s bs kind
    have hbytes : (Value.text (Text.ofBytes bs)).toBytes = .ok bs :=
      congrArg Except.ok (Text.toBytes_ofBytes bs)
    exact mangle_eq_mapError hbytes

/-! ### Schemes whose prefixes are texts -/

/-- **The prefixes of a scheme are texts.** -/
structure HasTextPrefixes (s : Scheme) : Prop where
  default : ∃ t, s.defaultPrefix = .text t
  assemblerPrivate : ∃ t, s.privatePrefix = .text t
  linkerPrivate : ∃ t, s.linkerPrivatePrefix = .text t

/-- So are the full prefixes then, and every kind has one. -/
theorem HasTextPrefixes.prefixFor {s : Scheme} (h : s.HasTextPrefixes) (k : PrefixKind) :
    ∃ t, s.prefixFor (.text k.name) = .ok (.text t) := by
  obtain ⟨⟨p, hp⟩, ⟨q, hq⟩, ⟨r, hr⟩⟩ := h
  rw [prefixFor_name]
  cases k with
  | default => exact ⟨p, congrArg Except.ok hp⟩
  | assemblerPrivate => exact ⟨q ++ p, by rw [fullPrefix, hq, hp, Value.append_text]⟩
  | linkerPrivate => exact ⟨r ++ p, by rw [fullPrefix, hr, hp, Value.append_text]⟩

/-! ### Behind a text -/

/-- Behind a text every body can be encoded. -/
theorem exists_encode_eq_ok (hb : body ≠ []) : ∃ out, s.encode (.text t) body = .ok out := by
  obtain ⟨b, rest, rfl⟩ := List.exists_cons_of_ne_nil hb
  cases hq : s.useQuotes with
  | false =>
    rw [encode_of_not_useQuotes hq]
    exact ⟨_, Value.before_text ..⟩
  | true =>
    cases hn : isDigit b || !(b :: rest).all s.policy.accepts with
    | true => exact ⟨_, (encode_text_eq_ok_iff hq).2 (.inl ⟨congrArg Except.ok hn, rfl⟩)⟩
    | false => exact ⟨_, (encode_text_eq_ok_iff hq).2 (.inr ⟨congrArg Except.ok hn, rfl⟩)⟩

/-- **What can be wrong with a name**, if its prefix is a text: it is empty, or there is nothing
behind the marker. -/
theorem mangle_cases (hp : s.prefixFor kind = .ok (.text t)) (hn : name.toBytes = .ok bs) :
    bs = [] ∧ s.mangle name kind = .error (.emptyName name) ∨
      bs = [marker] ∧ s.mangle name kind = .error (.bareMarker name) ∨
      bs ≠ [] ∧ bs ≠ [marker] ∧ ∃ out, s.mangle name kind = .ok out := by
  cases bs with
  | nil =>
    refine .inl ⟨rfl, ?_⟩
    rw [mangle, hn]
    rfl
  | cons b rest =>
    by_cases hbare : b = marker ∧ rest = []
    · obtain ⟨rfl, rfl⟩ := hbare
      refine .inr (.inl ⟨rfl, ?_⟩)
      rw [mangle, hn]
      simp only [bind, Except.bind, hp, if_true]
    · refine .inr (.inr ⟨List.cons_ne_nil _ _, fun h => hbare (List.cons.inj h), ?_⟩)
      -- whether or not the marker is dropped, there is something left to encode
      have hbody : bodyOf (b :: rest) ≠ [] := by
        rw [bodyOf, List.head?_cons, List.tail_cons]
        by_cases hb : b = marker
        · rw [if_pos (congrArg some hb)]
          exact fun hrest => hbare ⟨hb, hrest⟩
        · rw [if_neg fun h => hb (Option.some.inj h)]
          exact List.cons_ne_nil b rest
      rw [mangle_eq_encode hn hp hbody]
      exact exists_encode_eq_ok hbody

end Scheme

end NameMangling
