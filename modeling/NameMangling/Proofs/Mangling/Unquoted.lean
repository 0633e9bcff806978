import NameMangling.Proofs.Escaping.Legal
import NameMangling.Proofs.Mangling.Results

/-!
# Unquoted output is a legal symbol

Without quotes a result is made of acceptable ASCII characters only, is not empty and does not begin
with a digit, whatever the name is made of (`Policy.Permits`).

The rule for digits concerns the first character of the whole result, but escaping knows only the
first byte of the body. This goes together because a body is escaped as if it stood first, whether a
prefix comes before it or the marker has taken the prefix away; so permitted texts can be joined
(`Policy.Permits.append`). What the prefix has to promise is no more than what the result does.
-/

namespace NameMangling

namespace Policy

variable {p : Policy} {t u : Text} {bs : Bytes}

/-- **A permitted text** consists of acceptable ASCII characters, and no digit comes first. -/
structure Permits (p : Policy) (t : Text) : Prop where
  /-- Every character is the one of an acceptable byte. -/
  acceptable : ∀ c ∈ t, c.isAscii = true ∧ p.accepts (UInt8.ofNat c.val) = true
  /-- The first character, if there is one, is no digit. -/
  noDigit : ∀ c ∈ t.head?, isDigit (UInt8.ofNat c.val) = false

instance (p : Policy) : DecidablePred p.Permits := fun t =>
  decidable_of_iff
    ((∀ c ∈ t, c.isAscii = true ∧ p.accepts (UInt8.ofNat c.val) = true) ∧
      ∀ c ∈ t.head?, isDigit (UInt8.ofNat c.val) = false)
    ⟨fun h => ⟨h.1, h.2⟩, fun h => ⟨h.acceptable, h.noDigit⟩⟩

theorem permits_nil : p.Permits [] := ⟨by simp, by simp⟩

/-- Permitted texts can be joined: what comes first in the result came first before. -/
theorem Permits.append (ht : p.Permits t) (hu : p.Permits u) : p.Permits (t ++ u) where
  acceptable c hc := (List.mem_append.1 hc).elim (ht.acceptable c) (hu.acceptable c)
  noDigit c hc := by
    cases t with
    | nil => exact hu.noDigit c hc
    | cons d rest => exact ht.noDigit c hc

/-! ### Escaped bodies -/

/-- The characters of a legal text are acceptable, at its beginning and behind it. -/
theorem acceptable_of_isLegal {first : Bool} (h : p.IsLegal first t) :
    ∀ c ∈ t, c.isAscii = true ∧ p.accepts (UInt8.ofNat c.val) = true := by
  induction t generalizing first with
  | nil => exact fun c hc => absurd hc List.not_mem_nil
  | cons c rest ih =>
    obtain ⟨⟨b, hb, rfl⟩, hrest⟩ := h
    -- what is not escaped is acceptable, whether or not it stands first
    have hacc : p.accepts b = true := by
      simp only [escapes, Bool.or_eq_false_iff, Bool.not_eq_false'] at hb
      exact hb.1
    have hascii : (CodePoint.ofByte b).isAscii = true :=
      decide_eq_true (UInt8.lt_iff_toNat_lt.1 (p.accepts_lt hacc))
    intro d hd
    rcases List.mem_cons.1 hd with rfl | hd
    · refine ⟨hascii, ?_⟩
      rw [CodePoint.val_ofByte, UInt8.ofNat_toNat]
      exact hacc
    · exact ih hrest d hd

/-- A text that is legal as a whole is permitted. -/
theorem permits_of_isLegal (h : p.IsLegal true t) : p.Permits t := by
  refine ⟨acceptable_of_isLegal h, ?_⟩
  intro c hc
  cases t with
  | nil => cases hc
  | cons d rest =>
    obtain ⟨⟨b, hb, rfl⟩, -⟩ := h
    obtain rfl := Option.some.inj hc
    -- the first character is not escaped where a digit would be
    simp only [escapes, Bool.true_and, Bool.or_eq_false_iff] at hb
    rw [CodePoint.val_ofByte, UInt8.ofNat_toNat]
    exact hb.2

/-- **Escaping makes permitted texts** of any bytes. -/
theorem permits_escape (p : Policy) (bs : Bytes) : p.Permits (p.escape bs) := by
  have hlegal : p.IsLegal true (p.escape bs) := escapeFrom_true (p := p) ▸ isLegal_escapeFrom
  exact permits_of_isLegal hlegal

theorem escape_eq_nil_iff : p.escape bs = [] ↔ bs = [] := by
  refine ⟨?_, fun h => h ▸ escape_nil p⟩
  intro h
  cases bs with
  | nil => rfl
  | cons b rest =>
    -- for each byte something is written, its character or its escape
    have hfirst : p.writeFirst b = [] := (List.append_eq_nil_iff.1 h).1
    rw [← writeAt_true, writeAt] at hfirst
    split at hfirst <;> cases hfirst

end Policy

/-! ### Mangled names -/

namespace Scheme

variable {s : Scheme} {name kind : Value} {body : Bytes} {front out : Text}

theorem permits_encode (hq : s.useQuotes = false) (hf : s.policy.Permits front) (hb : body ≠ [])
    (h : s.encode (.text front) body = .ok out) : out ≠ [] ∧ s.policy.Permits out := by
  rw [encode_of_not_useQuotes hq, Value.before_text] at h
  obtain rfl := Except.ok.inj h
  have hne : s.policy.escape body ≠ [] := fun hnil => hb (Policy.escape_eq_nil_iff.1 hnil)
  exact ⟨fun hnil => hne (List.append_eq_nil_iff.1 hnil).2,
    hf.append (Policy.permits_escape s.policy body)⟩

theorem permits_mangle (hq : s.useQuotes = false) (hp : s.prefixFor kind = .ok (.text front))
    (hf : s.policy.Permits front) (h : s.mangle name kind = .ok out) :
    out ≠ [] ∧ s.policy.Permits out := by
  rw [mangle_eq_bind] at h
  obtain ⟨⟨front', body⟩, hparts, h⟩ := Fault.bind_eq_ok_iff.1 h
  have hbody : body ≠ [] := body_ne_nil hparts
  -- behind the marker a body stands first in the result, and it has been escaped for this place
  rcases front_eq_or hparts with rfl | hp'
  · exact permits_encode hq Policy.permits_nil hbody h
  · obtain rfl := Except.ok.inj (hp.symm.trans hp')
    exact permits_encode hq hf hbody h

end Scheme

/-- **Unquoted output is a legal symbol**, for names and for symbols, named or not: it is not empty,
it consists of acceptable ASCII characters, and the first of them is no digit. -/
theorem Mangler.unquoted_isPermitted {m : Mangler} (hq : m.scheme.useQuotes = false) :
    (∀ name kind front out, m.scheme.prefixFor kind = .ok (.text front) →
      m.scheme.policy.Permits front → m.scheme.mangle name kind = .ok out →
      out ≠ [] ∧ m.scheme.policy.Permits out) ∧
    ∀ id s suffix forcePrivate address front out, s.isIntrinsic = false →
      m.scheme.fullPrefix (s.kind forcePrivate) = .ok (.text front) →
      m.scheme.policy.Permits front →
      (m.mangleSymbol id s suffix forcePrivate address).1 = .ok out →
      ∃ t, out = .text t ∧ t ≠ [] ∧ m.scheme.policy.Permits t := by
  refine ⟨?_, ?_⟩
  · intro name kind front out hp hf h
    exact Scheme.permits_mangle hq hp hf h
  · intro id s suffix forcePrivate address front out hi hp hf h
    obtain ⟨name, t, rfl, ht, -⟩ := (mangleSymbol_eq_ok_iff hi).1 h
    have hp' : m.scheme.prefixFor (.text (s.kind forcePrivate).name) = .ok (.text front) :=
      (m.scheme.prefixFor_name _).trans hp
    exact ⟨t, rfl, Scheme.permits_mangle hq hp' hf ht⟩

/-- A name in which a digit follows the marker and the marker is acceptable, and a symbol without a
name that is forced to be private. -/
theorem Mangler.unquoted_isPermitted_marked_digit :
    let p : Policy := ⟨[0x01], by simp⟩
    let m : Mangler := .ofScheme ⟨.text (Text.ofString "_"), .text (Text.ofString ".L"), .text [],
      false, p⟩
    let s : Symbol := .foreign {}
    let marked := Text.ofString "_39_\x01_FF_"
    let madeUp := Text.ofString ".L___unnamed_1_20_9"
    (m.scheme.mangle (.bytes [0x01, 0x39, 0x01, 0xFF]) (.text PrefixKind.default.name) =
        .ok marked ∧
      marked ≠ [] ∧ p.Permits marked) ∧
    (m.mangleSymbol 0 s (.text (Text.ofString " 9")) true).1 = .ok (.text madeUp) ∧
      ∃ t, Value.text madeUp = .text t ∧ t ≠ [] ∧ p.Permits t := by
  intro p m s marked madeUp
  have hname : m.scheme.mangle (.bytes [0x01, 0x39, 0x01, 0xFF])
      (.text PrefixKind.default.name) = .ok marked := rfl
  have hsymbol : (m.mangleSymbol 0 s (.text (Text.ofString " 9")) true).1 = .ok (.text madeUp) := by
    simp only [m, p, s, madeUp]
    rfl
  have h := Mangler.unquoted_isPermitted (m := m) rfl
  refine ⟨⟨hname, h.1 _ _ _ _ rfl (by decide) hname⟩, hsymbol, ?_⟩
  exact h.2 _ _ _ _ _ _ _ rfl rfl (by decide) hsymbol

end NameMangling
