import NameMangling.Proofs.Mangling.Results
import NameMangling.Proofs.Text.Decoding

/-!
# Quoted output is well formed

In quoted mode a result is a plain text (`Quote.IsPlain`: neither a double quote nor a line feed) or
a plain text between two double quotes, and the text is not empty in either case
(`Quote.IsWellFormed`).

Replacing works on bytes and the result is a text, so the question is whether bytes can decode to a
double quote that was not there. They cannot: an ASCII character comes from its own byte
(`Text.mem_of_mem_ofBytes`). What can still go wrong is said in the assumptions: the target must
accept neither character, and the prefix must be plain.
-/

namespace NameMangling

namespace Quote

variable {t u : Text} {bs : Bytes}

/-- **A plain text** holds neither a double quote nor a line feed. -/
def IsPlain (t : Text) : Prop := CodePoint.ofChar '"' ∉ t ∧ Text.newline ∉ t

instance : DecidablePred IsPlain := fun _ => inferInstanceAs (Decidable (_ ∧ _))

/-- **A well-formed result** is a plain text that is not empty, by itself or between quotes. -/
def IsWellFormed (t : Text) : Prop :=
  (t ≠ [] ∧ IsPlain t) ∨ ∃ inner, t = enclose inner ∧ inner ≠ [] ∧ IsPlain inner

theorem isPlain_nil : IsPlain [] := ⟨List.not_mem_nil, List.not_mem_nil⟩

theorem IsPlain.append (ht : IsPlain t) (hu : IsPlain u) : IsPlain (t ++ u) :=
  ⟨fun h => (List.mem_append.1 h).elim ht.1 hu.1, fun h => (List.mem_append.1 h).elim ht.2 hu.2⟩

/-- Bytes that are neither double quotes nor line feeds decode to a plain text. -/
theorem isPlain_ofBytes (hquote : 0x22 ∉ bs) (hline : 0x0A ∉ bs) : IsPlain (Text.ofBytes bs) := by
  refine ⟨?_, ?_⟩
  · intro h
    have hbyte : 0x22 ∈ bs := Text.mem_of_mem_ofBytes h (by decide)
    exact hquote hbyte
  · intro h
    have hbyte : 0x0A ∈ bs := Text.mem_of_mem_ofBytes h (by decide)
    exact hline hbyte

/-- **What stands between the quotes is plain**, behind a plain prefix. -/
theorem isPlain_body (bs : Bytes) : IsPlain (body bs) := by
  -- what stands for a byte holds neither of the two, since both are replaced
  have hbyte : ∀ b, 0x22 ∉ substitute b ∧ 0x0A ∉ substitute b := by
    intro b
    unfold substitute
    split
    · decide
    split
    · decide
    · next hquote hline => simp [Ne.symm hquote, Ne.symm hline]
  refine isPlain_ofBytes (fun h => ?_) fun h => ?_
  · obtain ⟨b, -, hb⟩ := List.mem_flatMap.1 h
    exact (hbyte b).1 hb
  · obtain ⟨b, -, hb⟩ := List.mem_flatMap.1 h
    exact (hbyte b).2 hb

theorem body_eq_nil_iff : body bs = [] ↔ bs = [] := by
  rw [body, Text.ofBytes_eq_nil_iff, List.flatMap_eq_nil_iff]
  refine ⟨?_, fun h => by simp [h]⟩
  intro h
  -- no byte is replaced by nothing
  cases bs with
  | nil => rfl
  | cons b rest => exact absurd (h b List.mem_cons_self) (substitute_ne_nil b)

end Quote

open Quote

/-- A body that needs no quotes decodes to a plain text. -/
theorem Policy.isPlain_of_needsQuotes {p : Policy} {bs : Bytes} (hquote : p.accepts 0x22 = false)
    (hline : p.accepts 0x0A = false) (h : p.needsQuotes bs = .ok false) :
    IsPlain (Text.ofBytes bs) := by
  obtain ⟨b, rest, -, -, hall⟩ := needsQuotes_eq_ok_false_iff.1 h
  refine isPlain_ofBytes (fun hm => ?_) fun hm => ?_
  · have hacc : p.accepts 0x22 = true := hall _ hm
    exact Bool.false_ne_true (hquote.symm.trans hacc)
  · have hacc : p.accepts 0x0A = true := hall _ hm
    exact Bool.false_ne_true (hline.symm.trans hacc)

namespace Scheme

variable {s : Scheme} {name kind front : Value} {body : Bytes} {out : Text}

theorem isWellFormed_encode (hq : s.useQuotes = true) (hquote : s.policy.accepts 0x22 = false)
    (hline : s.policy.accepts 0x0A = false) (hf : ∀ shown, front.shown = .ok shown → IsPlain shown)
    (hb : body ≠ []) (h : s.encode front body = .ok out) : IsWellFormed out := by
  rcases (encode_eq_ok_iff hq).1 h with ⟨-, shown, hshown, rfl⟩ | ⟨hn, h⟩
  · -- between quotes: the prefix is plain by assumption, and what is replaced is plain
    have hne : shown ++ Quote.body body ≠ [] := fun hnil =>
      hb (body_eq_nil_iff.1 (List.append_eq_nil_iff.1 hnil).2)
    exact .inr ⟨_, rfl, hne, (hf shown hshown).append (isPlain_body body)⟩
  · -- without quotes: all bytes of the body are acceptable, and the two are not
    obtain ⟨t, rfl, rfl⟩ := Value.before_eq_ok_iff.1 h
    have hne : t ++ Text.ofBytes body ≠ [] := fun hnil =>
      hb (Text.ofBytes_eq_nil_iff.1 (List.append_eq_nil_iff.1 hnil).2)
    have hplain : IsPlain (Text.ofBytes body) := Policy.isPlain_of_needsQuotes hquote hline hn
    exact .inl ⟨hne, (hf t rfl).append hplain⟩

theorem isWellFormed_mangle (hq : s.useQuotes = true) (hquote : s.policy.accepts 0x22 = false)
    (hline : s.policy.accepts 0x0A = false) (hp : s.prefixFor kind = .ok front)
    (hf : ∀ shown, front.shown = .ok shown → IsPlain shown) (h : s.mangle name kind = .ok out) :
    IsWellFormed out := by
  rw [mangle_eq_bind] at h
  obtain ⟨⟨front', body⟩, hparts, h⟩ := Fault.bind_eq_ok_iff.1 h
  refine isWellFormed_encode hq hquote hline ?_ (body_ne_nil hparts) h
  rcases front_eq_or hparts with rfl | hp'
  · -- behind the marker, nothing is shown in front of the body
    rintro shown ⟨⟩
    exact isPlain_nil
  · obtain rfl := Except.ok.inj (hp.symm.trans hp')
    exact hf

end Scheme

/-- **Quoted output is well formed**, for names and for symbols, whatever bytes the names have. What
the prefix is shown as must be plain. -/
theorem Mangler.quoted_isWellFormed {m : Mangler} (hq : m.scheme.useQuotes = true)
    (hquote : m.scheme.policy.accepts 0x22 = false)
    (hline : m.scheme.policy.accepts 0x0A = false) :
    (∀ name kind front out, m.scheme.prefixFor kind = .ok front →
      (∀ shown, front.shown = .ok shown → IsPlain shown) →
      m.scheme.mangle name kind = .ok out → IsWellFormed out) ∧
    ∀ id s suffix forcePrivate address front out, s.isIntrinsic = false →
      m.scheme.fullPrefix (s.kind forcePrivate) = .ok front →
      (∀ shown, front.shown = .ok shown → IsPlain shown) →
      (m.mangleSymbol id s suffix forcePrivate address).1 = .ok out →
      ∃ t, out = .text t ∧ IsWellFormed t := by
  refine ⟨?_, ?_⟩
  · intro name kind front out hp hf h
    exact Scheme.isWellFormed_mangle hq hquote hline hp hf h
  · intro id s suffix forcePrivate address front out hi hp hf h
    -- a symbol is mangled under some name, and any name will do
    obtain ⟨name, t, rfl, ht, -⟩ := (mangleSymbol_eq_ok_iff hi).1 h
    have hp' : m.scheme.prefixFor (.text (s.kind forcePrivate).name) = .ok front := by
      rw [Scheme.prefixFor, PrefixKind.ofValue?_name]
      exact hp
    exact ⟨t, rfl, Scheme.isWellFormed_mangle hq hquote hline hp' hf ht⟩

/-- A name in which a double quote and a line feed stand behind the first byte of a longer sequence,
and a symbol without a name but with a line feed for a suffix. -/
theorem Mangler.quoted_isWellFormed_broken_sequence :
    let m : Mangler := .ofScheme ⟨.text (Text.ofString "_"), .text [], .text [], true, .safe⟩
    let s : Symbol := .foreign ⟨.nothing, false, false, false, false, false⟩
    let quoted := enclose (Text.ofString "_" ++ CodePoint.standIn 0xC3 :: Text.ofString "_QQ__NL_")
    let madeUp := Text.ofString "\"___unnamed_1_NL_\""
    (m.scheme.mangle (.bytes [0xC3, 0x22, 0x0A]) (.text PrefixKind.default.name) = .ok quoted ∧
      IsWellFormed quoted) ∧
    (m.mangleSymbol 0 s (.text [Text.newline]) false).1 = .ok (.text madeUp) ∧
      ∃ t, Value.text madeUp = .text t ∧ IsWellFormed t := by
  intro m s quoted madeUp
  have hname : m.scheme.mangle (.bytes [0xC3, 0x22, 0x0A]) (.text PrefixKind.default.name) =
    .ok quoted := rfl
  have hsymbol : (m.mangleSymbol 0 s (.text [Text.newline]) false).1 = .ok (.text madeUp) := by
    simp only [m, s, madeUp]
    rfl
  -- the prefix is a text, and so is shown as it is
  have hfront : ∀ shown, (Value.text (Text.ofString "_")).shown = .ok shown → IsPlain shown := by
    rintro shown ⟨⟩
    decide
  have h := Mangler.quoted_isWellFormed (m := m) rfl (by decide) (by decide)
  refine ⟨⟨hname, h.1 _ _ _ _ rfl hfront hname⟩, hsymbol, ?_⟩
  exact h.2 _ _ _ _ _ _ _ rfl rfl hfront hsymbol

end NameMangling
