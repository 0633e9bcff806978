import NameMangling.Proofs.Mangling.Prefixes

/-!
# What comes of mangling a name

A front end hands over a text or a byte string, and asks for a prefix kind by name. Three things can
be wrong, and they are looked for in this order: the name is empty, there is no such kind, or the
name is the marker alone. In all other cases there is a result, and it is not empty.

Two faults look possible and never come up. Encoding a text might fail, but what the first attempt
refuses, the second one accepts (`Text.orElse_encodeBy?`). And a body without bytes might be asked
whether it needs quotes, but a name without a body has been found out by then.

* `PrefixKind.ofValue?_text_eq_none_iff` — which kinds there are;
* `Scheme.mangle_eq_error_of_unknown` — what is wrong with a name of an unknown kind;
* `Scheme.mangle_outcome` — all faults, and when each of them arises.
-/

namespace NameMangling

/-- **A name as front ends give it** is a text or a byte string of either sort. -/
inductive Value.IsName : Value → Prop where
  | text (t : Text) : IsName (.text t)
  | bytes (bs : Bytes) : IsName (.bytes bs)
  | buffer (bs : Bytes) : IsName (.buffer bs)

/-- Such a name has bytes, and for a text they are what the two attempts at encoding come to. -/
theorem Value.IsName.exists_toBytes {name : Value} (h : name.IsName) :
    ∃ data, name.toBytes = .ok data ∧ ∀ t, name = .text t →
      (t.encodeBy? CodePoint.byHeldByte <|> t.encodeBy? CodePoint.byEncoding) = some data := by
  cases h with
  | text t =>
    refine ⟨t.toBytes, rfl, ?_⟩
    -- only a text has to be encoded, and one of the two attempts succeeds
    rintro u ⟨⟩
    exact t.orElse_encodeBy?
  | bytes bs => exact ⟨bs, rfl, by rintro t ⟨⟩⟩
  | buffer bs => exact ⟨bs, rfl, by rintro t ⟨⟩⟩

namespace PrefixKind

/-- **A kind that can be asked for** is one of the names of prefix kinds. -/
def IsKnown (kind : Text) : Prop := ∃ k : PrefixKind, kind = k.name

theorem ofValue?_text_eq_none_iff {kind : Text} :
    ofValue? (.text kind) = none ↔ ¬ IsKnown kind := by
  refine ⟨?_, ?_⟩
  · rintro h ⟨k, rfl⟩
    rw [ofValue?_name] at h
    cases h
  · intro h
    refine List.find?_eq_none.2 fun k _ hk => h ⟨k, ?_⟩
    exact Value.text.inj (of_decide_eq_true hk)

end PrefixKind

open PrefixKind

namespace Scheme

variable {s : Scheme} {name : Value} {body data : Bytes} {kind t out : Text} {f : Fault}

/-! ### Unknown kinds -/

/-- **A name of an unknown kind** is not mangled. If there is anything in it, the kind is to blame,
even if the prefix would have been dropped. -/
theorem mangle_eq_error_of_unknown (hn : name.toBytes = .ok data) (hk : ¬ IsKnown kind) :
    s.mangle name (.text kind) =
      .error (if data = [] then .emptyName name else .unknownKind (.text kind)) := by
  have hprefix : s.prefixFor (.text kind) = .error (.unknownKind (.text kind)) := by
    rw [prefixFor, ofValue?_text_eq_none_iff.2 hk]
  rw [mangle, hn]
  cases data with
  | nil => rfl
  | cons b rest =>
    rw [if_neg (List.cons_ne_nil b rest)]
    simp only [bind, Except.bind, hprefix]

/-! ### Results -/

/-- What is encoded behind a text is not empty: between quotes there are the quotes, and otherwise
escaping loses no byte. -/
theorem ne_nil_of_encode (hb : body ≠ []) (h : s.encode (.text t) body = .ok out) : out ≠ [] := by
  have hescape : s.policy.escape body ≠ [] := fun hnil => hb (Policy.escape_eq_nil_iff.1 hnil)
  rcases eq_or_eq_of_encode hb h with rfl | rfl
  · exact List.cons_ne_nil _ _
  · exact List.append_ne_nil_of_right_ne_nil t hescape

theorem nameFault?_eq_some_iff :
    nameFault? name data = some f ↔
      data = [] ∧ f = .emptyName name ∨ data = [marker] ∧ f = .bareMarker name := by
  unfold nameFault?
  split
  · next hnil => simp [hnil, eq_comm]
  split
  · next hnil hmarker => simp [hmarker, eq_comm]
  · next hnil hmarker => simp [hnil, hmarker]

/-- A name with which nothing is wrong has a result, and it is not empty. -/
theorem exists_mangle_eq_ok (hp : s.prefixFor (.text kind) = .ok (.text t))
    (hn : name.toBytes = .ok data) (hempty : data ≠ []) (hmarker : data ≠ [marker]) :
    ∃ out, s.mangle name (.text kind) = .ok out ∧ out ≠ [] := by
  have hfault : nameFault? name data = none := by
    rw [nameFault?, if_neg hempty, if_neg hmarker]
  have hbody : bodyOf data ≠ [] := bodyOf_ne_nil_of_nameFault? hfault
  obtain ⟨out, hout⟩ := exists_encode_eq_ok (s := s) (t := frontOf data t) hbody
  refine ⟨out, ?_, ne_nil_of_encode hbody hout⟩
  rw [mangle_eq_encode hn hp hbody, hout]

/-! ### All faults -/

/-- **The faults of mangling** and when each of them arises. An empty name is found before an
unknown kind, and an unknown kind before a bare marker. -/
theorem mangle_text_eq_error_iff (htext : s.HasTextPrefixes) (hn : name.toBytes = .ok data) :
    s.mangle name (.text kind) = .error f ↔
      data = [] ∧ f = .emptyName name ∨
      data ≠ [] ∧ ¬ IsKnown kind ∧ f = .unknownKind (.text kind) ∨
      IsKnown kind ∧ data = [marker] ∧ f = .bareMarker name := by
  by_cases hk : IsKnown kind
  · have hiff : s.mangle name (.text kind) = .error f ↔ nameFault? name data = some f := by
      -- a known kind has a prefix, which is a text, so only the name can be wrong
      obtain ⟨k, rfl⟩ := hk
      obtain ⟨t, hp⟩ := htext.prefixFor k
      exact mangle_eq_error_iff hp hn
    rw [hiff, nameFault?_eq_some_iff]
    simp only [hk, not_true, false_and, and_false, false_or, true_and]
  · rw [mangle_eq_error_of_unknown hn hk, Except.error.injEq]
    by_cases hempty : data = []
    · simp [hk, hempty, eq_comm]
    · simp [hk, hempty, eq_comm]

/-- **What comes of mangling a name**, if the prefixes of the scheme are texts. The name has bytes,
and there are three faults:

* an empty name, whatever the kind is;
* an unknown kind, for a name that is not empty;
* a bare marker, for a known kind.

The first and the last one blame the name, as it was given. In all other cases there is a result,
and it is not empty. Of a body that is to be encoded it can be said whether it needs quotes. -/
theorem mangle_outcome (htext : s.HasTextPrefixes) (hname : name.IsName) (kind : Text) :
    let result := s.mangle name (.text kind)
    ∃ data, name.toBytes = .ok data ∧
      (∀ t, name = .text t →
        (t.encodeBy? CodePoint.byHeldByte <|> t.encodeBy? CodePoint.byEncoding) = some data) ∧
      (∀ f, result = .error f ↔
        data = [] ∧ f = .emptyName name ∨
        data ≠ [] ∧ ¬ IsKnown kind ∧ f = .unknownKind (.text kind) ∨
        IsKnown kind ∧ data = [marker] ∧ f = .bareMarker name) ∧
      ((∃ f, result = .error f ∧ f.blamedName? = some name) ↔
        data = [] ∨ IsKnown kind ∧ data = [marker]) ∧
      (data ≠ [] → IsKnown kind → data ≠ [marker] → ∃ out, result = .ok out ∧ out ≠ []) ∧
      result = (s.parts? name (.text kind) >>= fun x => s.encode x.1 x.2) ∧
      ∀ front body, s.parts? name (.text kind) = .ok (front, body) →
        ∃ needed, s.policy.needsQuotes body = .ok needed := by
  intro result
  obtain ⟨data, hn, hencode⟩ := hname.exists_toBytes
  have hfault : ∀ f, result = .error f ↔ _ := fun f => mangle_text_eq_error_iff htext hn
  refine ⟨data, hn, hencode, hfault, ⟨?_, ?_⟩, ?_, s.mangle_eq_bind name _, ?_⟩
  · -- an unknown kind blames no name
    rintro ⟨f, hf, hblamed⟩
    rcases (hfault f).1 hf with ⟨hempty, -⟩ | ⟨-, -, rfl⟩ | ⟨hk, hmarker, -⟩
    · exact .inl hempty
    · cases hblamed
    · exact .inr ⟨hk, hmarker⟩
  · -- the two faults of a name blame it as it was given
    rintro (hempty | ⟨hk, hmarker⟩)
    · exact ⟨_, (hfault _).2 (.inl ⟨hempty, rfl⟩), rfl⟩
    · exact ⟨_, (hfault _).2 (.inr (.inr ⟨hk, hmarker, rfl⟩)), rfl⟩
  · rintro hempty ⟨k, rfl⟩ hmarker
    obtain ⟨t, hp⟩ := htext.prefixFor k
    exact exists_mangle_eq_ok hp hn hempty hmarker
  · -- a body that is encoded is not empty, so there is a first byte to ask about
    intro front body hparts
    obtain ⟨b, rest, rfl⟩ := List.exists_cons_of_ne_nil (body_ne_nil hparts)
    exact ⟨_, rfl⟩

/-- A marker without a name, of an unknown kind: the kind is to blame. And a text with a stray
surrogate behind a stand-in, which the first attempt at encoding refuses: it has a result. -/
theorem mangle_outcome_stray_surrogate :
    let s : Scheme := ⟨.text [], .text (Text.ofString "L"), .text [], true, .safe⟩
    let bare := Value.bytes [marker]
    let odd : Text := [.standIn 0xFF, ⟨0xD800, by decide⟩]
    let unknown := Text.ofString "local"
    let known := Text.ofString "private"
    s.HasTextPrefixes ∧
    (bare.IsName ∧ s.mangle bare (.text unknown) = .error (.unknownKind (.text unknown))) ∧
    (Value.text odd).IsName ∧ odd.encodeBy? CodePoint.byHeldByte = none ∧
      ∃ out, s.mangle (.text odd) (.text known) = .ok out ∧ out ≠ [] := by
  intro s bare odd unknown known
  have htext : s.HasTextPrefixes := ⟨⟨_, rfl⟩, ⟨_, rfl⟩, ⟨_, rfl⟩⟩
  have hunknown : ¬ IsKnown unknown := ofValue?_text_eq_none_iff.1 (by decide)
  have hknown : IsKnown known := ⟨.assemblerPrivate, rfl⟩
  refine ⟨htext, ⟨.bytes _, ?_⟩, .text _, by decide, ?_⟩
  · obtain ⟨data, hn, -, hfault, -⟩ := mangle_outcome htext (.bytes [marker]) unknown
    obtain rfl := Except.ok.inj hn
    exact (hfault _).2 (.inr (.inl ⟨List.cons_ne_nil _ _, hunknown, rfl⟩))
  · obtain ⟨data, hn, -, -, -, hresult, -⟩ := mangle_outcome htext (.text odd) known
    -- no surrogate is a stand-in here, so all of them are written in three bytes
    have hdata : data = [0xED, 0xB3, 0xBF, 0xED, 0xA0, 0x80] := (Except.ok.inj hn).symm
    exact hresult (by rw [hdata]; decide) hknown (by rw [hdata]; decide)

end Scheme

end NameMangling
