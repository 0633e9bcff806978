import NameMangling.Proofs.Escaping.Legal
import Mathlib.Data.Set.Function

/-!
# Which names escaping confuses

Escaping is not injective: a name that happens to contain what looks like an escape is written like
the name with the byte that the escape stands for. This is the only way in which names are confused.
Call a byte string *canonical* (`Policy.IsCanonical`) if nothing in it looks like an escape of a
byte that would be escaped there. Then every byte string is written like exactly one canonical one.

An escape does not end where it seems to. Its last underscore may be the first one of another, and
what follows an underscore and two digits in the name may be an underscore or a byte that is escaped
and so begins with one. So an escape is what the text reads as from the left:

* `Policy.unescapeFrom` reads a text from the left and takes every escape that it meets for the byte
  that it stands for, if that byte would be escaped at this place;
* `Policy.escapeFrom_unescapeFrom` — reading a legal text loses nothing;
* `Policy.isCanonicalFrom_unescapeFrom` — what is read is canonical;
* `Policy.unescapeFrom_escapeFrom` — a canonical byte string is read back.

What ties the reading to the definition is `Policy.looksEscaped_iff`: a byte string begins with what
looks like an escape exactly if the text that is written for it begins with an escape.
-/

namespace NameMangling

/-! ### Reading an escape -/

namespace Escape

/-- The value of an uppercase hexadecimal digit. -/
def digitValue? (c : CodePoint) : Option Nat :=
  if 0x30 ≤ c.val ∧ c.val ≤ 0x39 then some (c.val - 0x30)
  else if 0x41 ≤ c.val ∧ c.val ≤ 0x46 then some (c.val - 0x41 + 10)
  else none

/-- The byte whose value two uppercase hexadecimal digits are. -/
def value? (c d : CodePoint) : Option UInt8 :=
  match digitValue? c, digitValue? d with
  | some h, some l => some (UInt8.ofNat (16 * h + l))
  | _, _ => none

/-- **The byte of the escape** with which a text begins. -/
def read? : Text → Option UInt8
  | a :: c :: d :: e :: _ => if a = '_' ∧ e = '_' then value? c d else none
  | _ => none

theorem digitValue?_eq_some_iff {c : CodePoint} {d : Nat} :
    digitValue? c = some d ↔ d < 16 ∧ c = Numeral.upperHexDigit d := by
  refine ⟨?_, ?_⟩
  · intro h
    -- the ranges of values are those of the digits, ten of one kind and six of the other
    have hdigit : ∀ d < 16, (Numeral.upperHexDigit d).val =
        if d < 10 then 0x30 + d else 0x41 + (d - 10) := by decide
    unfold digitValue? at h
    split at h
    · obtain rfl := Option.some.inj h
      refine ⟨by omega, CodePoint.ext ?_⟩
      rw [hdigit _ (by omega), if_pos (by omega)]
      omega
    split at h
    · obtain rfl := Option.some.inj h
      refine ⟨by omega, CodePoint.ext ?_⟩
      rw [hdigit _ (by omega), if_neg (by omega)]
      omega
    · cases h
  · rintro ⟨h, rfl⟩
    -- there are sixteen digits to try
    revert d
    decide

theorem value?_eq_some_iff {c d : CodePoint} {v : UInt8} :
    value? c d = some v ↔
      c = Numeral.upperHexDigit (v.toNat / 16) ∧ d = Numeral.upperHexDigit (v.toNat % 16) := by
  have hv := v.toNat_lt
  refine ⟨?_, ?_⟩
  · intro h
    unfold value? at h
    split at h
    · next k l hk hl =>
      obtain ⟨hk, rfl⟩ := digitValue?_eq_some_iff.1 hk
      obtain ⟨hl, rfl⟩ := digitValue?_eq_some_iff.1 hl
      obtain rfl := Option.some.inj h
      -- two digits have a value below 256, so the byte has it, and gives both back by division
      rw [UInt8.toNat_ofNat', Nat.mod_eq_of_lt (by omega)]
      refine ⟨?_, ?_⟩
      · congr 1
        omega
      · congr 1
        omega
    · cases h
  · rintro ⟨rfl, rfl⟩
    have hhi := digitValue?_eq_some_iff.2 ⟨(by omega : v.toNat / 16 < 16), rfl⟩
    have hlo := digitValue?_eq_some_iff.2 ⟨(by omega : v.toNat % 16 < 16), rfl⟩
    rw [value?, hhi, hlo]
    simp only [Nat.div_add_mod, UInt8.ofNat_toNat]

theorem value?_ofByte_eq_some_iff {c d v : UInt8} :
    value? (CodePoint.ofByte c) (CodePoint.ofByte d) = some v ↔
      c = digit (v.toNat / 16) ∧ d = digit (v.toNat % 16) := by
  have hv := v.toNat_lt
  rw [value?_eq_some_iff, ← ofByte_digit (by omega), ← ofByte_digit (by omega),
    CodePoint.ofByte_inj, CodePoint.ofByte_inj]

/-- A text begins with the escape that is read from it. -/
theorem read?_eq_some_iff {t : Text} {v : UInt8} : read? t = some v ↔ ofByte v <+: t := by
  refine ⟨?_, ?_⟩
  · intro h
    unfold read? at h
    split at h
    · next a c d e rest =>
      -- a text with four characters or more, since nothing else is read
      split at h
      · next hae =>
        obtain ⟨rfl, rfl⟩ := hae
        obtain ⟨rfl, rfl⟩ := value?_eq_some_iff.1 h
        exact ⟨rest, rfl⟩
      · cases h
    · cases h
  · rintro ⟨rest, rfl⟩
    rw [ofByte, List.cons_append, List.cons_append, List.cons_append, List.cons_append, read?,
      if_pos ⟨rfl, rfl⟩]
    exact value?_eq_some_iff.2 ⟨rfl, rfl⟩

/-- What follows the escape that is read. -/
theorem ofByte_append_drop {c : CodePoint} {rest : Text} {v : UInt8}
    (h : read? (c :: rest) = some v) : ofByte v ++ rest.drop 3 = c :: rest := by
  obtain ⟨back, hback⟩ := read?_eq_some_iff.1 h
  obtain ⟨-, rfl⟩ := List.cons.inj hback
  exact hback

end Escape

namespace Policy

variable {p : Policy} {first : Bool} {b : UInt8} {bs y : Bytes} {t : Text}

/-- **Reading a text** from the left: an escape of a byte that would be escaped at this place is
that byte, and any other character is itself. -/
def unescapeFrom (p : Policy) : Bool → Text → Bytes
  | _, [] => []
  | first, c :: rest =>
    match (Escape.read? (c :: rest)).filter (p.escapes first) with
    | some v => v :: p.unescapeFrom false (rest.drop 3)
    | none => UInt8.ofNat c.val :: p.unescapeFrom false rest
termination_by _ t => t.length

/-- An escape that counts is read as its byte. -/
theorem unescapeFrom_ofByte_append (h : p.escapes first b = true) (rest : Text) :
    p.unescapeFrom first (Escape.ofByte b ++ rest) = b :: p.unescapeFrom false rest := by
  have hread : (Escape.read? (Escape.ofByte b ++ rest)).filter (p.escapes first) = some b := by
    rw [Escape.read?_eq_some_iff.2 (List.prefix_append ..), Option.filter_some, if_pos h]
  rw [Escape.ofByte, List.cons_append] at hread ⊢
  rw [unescapeFrom, hread]
  rfl

/-- A character at which no escape begins that counts is read as itself. -/
theorem unescapeFrom_ofByte_cons {rest : Text}
    (h : ∀ v, p.escapes first v = true → ¬ Escape.ofByte v <+: CodePoint.ofByte b :: rest) :
    p.unescapeFrom first (CodePoint.ofByte b :: rest) = b :: p.unescapeFrom false rest := by
  have hread : (Escape.read? (CodePoint.ofByte b :: rest)).filter (p.escapes first) = none := by
    refine Option.filter_eq_none_iff.2 fun v hv he => ?_
    exact h v he (Escape.read?_eq_some_iff.1 hv)
  rw [unescapeFrom, hread, CodePoint.val_ofByte, UInt8.ofNat_toNat]

/-! ### Canonical byte strings -/

/-- **A canonical byte string**: nowhere in it stand an underscore, two uppercase hexadecimal digits
whose value is a byte that would be escaped there, and then an underscore or a byte that is not
acceptable. Only at the very beginning would a digit be escaped. -/
def IsCanonical (p : Policy) (y : Bytes) : Prop :=
  ∀ front c d b back v, y = front ++ Escape.underscore :: c :: d :: b :: back →
    Escape.value? (CodePoint.ofByte c) (CodePoint.ofByte d) = some v →
    b = Escape.underscore ∨ p.accepts b = false →
    ¬ (p.accepts v = false ∨ front = [] ∧ isDigit v = true)

/-- Does a tail begin with what looks like an escape of a byte that would be escaped there? -/
def LooksEscaped (p : Policy) (first : Bool) (y : Bytes) : Prop :=
  ∃ c d b back v, y = Escape.underscore :: c :: d :: b :: back ∧
    Escape.value? (CodePoint.ofByte c) (CodePoint.ofByte d) = some v ∧
    (b = Escape.underscore ∨ p.accepts b = false) ∧ p.escapes first v = true

/-- Is a tail canonical, from its first byte on? -/
def IsCanonicalFrom (p : Policy) : Bool → Bytes → Prop
  | _, [] => True
  | first, b :: rest => ¬ p.LooksEscaped first (b :: rest) ∧ p.IsCanonicalFrom false rest

theorem isCanonicalFrom_iff :
    p.IsCanonicalFrom first y ↔
      ∀ front tail, y = front ++ tail → ¬ p.LooksEscaped (first && front.isEmpty) tail := by
  induction y generalizing first with
  | nil =>
    refine ⟨fun _ front tail h => ?_, fun _ => trivial⟩
    obtain ⟨rfl, rfl⟩ := List.append_eq_nil_iff.1 h.symm
    rintro ⟨c, d, b, back, v, h, -⟩
    cases h
  | cons b rest ih =>
    rw [IsCanonicalFrom, ih]
    refine ⟨?_, ?_⟩
    · rintro ⟨hb, hrest⟩ front tail h
      -- the whole tail is the only one that stands at the beginning
      cases front with
      | nil =>
        rw [← show b :: rest = tail from h, List.isEmpty_nil, Bool.and_true]
        exact hb
      | cons c front =>
        rw [List.isEmpty_cons, Bool.and_false]
        exact hrest front tail (List.cons.inj h).2
    · intro h
      refine ⟨by simpa using h [] (b :: rest) rfl, ?_⟩
      -- a tail of what follows is a tail of the whole, with one byte more in front
      intro front tail hrest
      have ht := h (b :: front) tail (congrArg (b :: ·) hrest)
      rwa [List.isEmpty_cons, Bool.and_false] at ht

theorem isCanonical_iff : p.IsCanonical y ↔ p.IsCanonicalFrom true y := by
  rw [isCanonicalFrom_iff]
  refine ⟨?_, ?_⟩
  · -- both say the same of one place; only at the beginning would a digit be escaped
    rintro h front tail rfl ⟨c, d, b, back, v, rfl, hv, hb, hesc⟩
    refine h front c d b back v rfl hv hb ((escapes_eq_true_iff.1 hesc).imp_right fun hd => ?_)
    rwa [Bool.true_and, List.isEmpty_iff] at hd
  · intro h front c d b back v hy hv hb hesc
    refine h front _ hy ⟨c, d, b, back, v, rfl, hv, hb, escapes_eq_true_iff.2 ?_⟩
    rwa [Bool.true_and, List.isEmpty_iff]

/-! ### What begins with an escape -/

/-- Behind the first byte, an acceptable character other than an underscore was itself. -/
theorem cons_prefix_escapeFrom_iff {c : UInt8} (hc : p.escapes false c = false)
    (hne : c ≠ Escape.underscore) :
    CodePoint.ofByte c :: t <+: p.escapeFrom false bs ↔
      ∃ rest, bs = c :: rest ∧ t <+: p.escapeFrom false rest := by
  refine ⟨?_, ?_⟩
  · intro h
    cases bs with
    | nil => exact absurd (List.prefix_nil.1 h) (List.cons_ne_nil _ _)
    | cons b rest =>
      rw [escapeFrom] at h
      cases hb : p.escapes false b with
      | true =>
        -- what is escaped begins with an underscore
        rw [writeAt_of_escapes hb, Escape.ofByte_eq_map] at h
        exact absurd (CodePoint.ofByte_inj.1 (List.cons_prefix_cons.1 h).1) hne
      | false =>
        rw [writeAt_of_not_escapes hb] at h
        obtain ⟨hcb, ht⟩ := List.cons_prefix_cons.1 h
        obtain rfl := CodePoint.ofByte_inj.1 hcb
        exact ⟨rest, rfl, ht⟩
  · rintro ⟨rest, rfl, ht⟩
    rw [escapeFrom, writeAt_of_not_escapes hc]
    exact List.cons_prefix_cons.2 ⟨rfl, ht⟩

/-- Behind the first byte, an underscore was itself or begins an escape. -/
theorem underscore_prefix_escapeFrom_iff :
    [CodePoint.ofByte Escape.underscore] <+: p.escapeFrom false bs ↔
      ∃ b rest, bs = b :: rest ∧ (b = Escape.underscore ∨ p.accepts b = false) := by
  refine ⟨?_, ?_⟩
  · intro h
    cases bs with
    | nil => exact absurd (List.prefix_nil.1 h) (List.cons_ne_nil _ _)
    | cons b rest =>
      refine ⟨b, rest, rfl, ?_⟩
      rw [escapeFrom] at h
      cases hb : p.escapes false b with
      -- an escape begins with the underscore, and its byte is not acceptable
      | true =>
        rw [escapes_false, Bool.not_eq_true'] at hb
        exact .inr hb
      | false =>
        rw [writeAt_of_not_escapes hb] at h
        exact .inl (CodePoint.ofByte_inj.1 (List.cons_prefix_cons.1 h).1).symm
  · rintro ⟨b, rest, rfl, hb⟩
    rw [escapeFrom]
    -- one underscore is written as itself, the other is the first character of an escape
    rcases hb with rfl | hb
    · rw [writeAt_of_not_escapes escapes_underscore]
      exact List.prefix_append ..
    · have hesc : p.escapes false b = true := by rw [escapes_false, hb, Bool.not_false]
      rw [writeAt_of_escapes hesc, Escape.ofByte_eq_map]
      exact List.cons_prefix_cons.2 ⟨rfl, List.nil_prefix⟩

/-- What is written for a byte string that begins with an unescaped byte begins with an escape only
if two digits follow, and then an underscore or a byte that is escaped. -/
theorem ofByte_prefix_escapeFrom_iff {v : UInt8} {rest : Bytes} (hb : p.escapes first b = false) :
    Escape.ofByte v <+: p.escapeFrom first (b :: rest) ↔
      b = Escape.underscore ∧ ∃ e back,
        rest = Escape.digit (v.toNat / 16) :: Escape.digit (v.toNat % 16) :: e :: back ∧
        (e = Escape.underscore ∨ p.accepts e = false) := by
  have hv := v.toNat_lt
  have hhi : v.toNat / 16 < 16 := by omega
  have hlo : v.toNat % 16 < 16 := by omega
  -- the digits of an escape are acceptable and are no underscores, so each of them was itself
  have hhi' : p.escapes false (Escape.digit (v.toNat / 16)) = false :=
    escapes_of_isSafe (Escape.isSafe_digit hhi)
  have hlo' : p.escapes false (Escape.digit (v.toNat % 16)) = false :=
    escapes_of_isSafe (Escape.isSafe_digit hlo)
  rw [escapeFrom, writeAt_of_not_escapes hb, Escape.ofByte_eq_map, List.map_cons,
    List.singleton_append, List.cons_prefix_cons, CodePoint.ofByte_inj, List.map_cons,
    cons_prefix_escapeFrom_iff hhi' (Escape.digit_ne_underscore hhi)]
  refine and_congr eq_comm ⟨?_, ?_⟩
  · -- one digit after the other is taken off, until the last underscore is left
    rintro ⟨r, rfl, h⟩
    rw [List.map_cons, cons_prefix_escapeFrom_iff hlo' (Escape.digit_ne_underscore hlo)] at h
    obtain ⟨r, rfl, h⟩ := h
    obtain ⟨e, back, rfl, he⟩ := underscore_prefix_escapeFrom_iff.1 h
    exact ⟨e, back, rfl, he⟩
  · rintro ⟨e, back, rfl, he⟩
    have hlast := underscore_prefix_escapeFrom_iff.2 ⟨e, back, rfl, he⟩
    refine ⟨_, rfl, ?_⟩
    rw [List.map_cons, cons_prefix_escapeFrom_iff hlo' (Escape.digit_ne_underscore hlo)]
    exact ⟨_, rfl, hlast⟩

/-- **What looks like an escape is written like one**, and nothing else is unless it is one. -/
theorem looksEscaped_iff {rest : Bytes} (hb : p.escapes first b = false) :
    p.LooksEscaped first (b :: rest) ↔
      ∃ v, p.escapes first v = true ∧ Escape.ofByte v <+: p.escapeFrom first (b :: rest) := by
  refine ⟨?_, ?_⟩
  · rintro ⟨c, d, e, back, v, hy, hv, he, hesc⟩
    obtain ⟨rfl, rfl⟩ := List.cons.inj hy
    obtain ⟨rfl, rfl⟩ := Escape.value?_ofByte_eq_some_iff.1 hv
    exact ⟨v, hesc, (ofByte_prefix_escapeFrom_iff hb).2 ⟨rfl, e, back, rfl, he⟩⟩
  · rintro ⟨v, hesc, h⟩
    obtain ⟨rfl, e, back, rfl, he⟩ := (ofByte_prefix_escapeFrom_iff hb).1 h
    exact ⟨_, _, e, back, v, rfl, Escape.value?_ofByte_eq_some_iff.2 ⟨rfl, rfl⟩, he, hesc⟩

/-! ### Reading and writing -/

/-- **Reading a legal text loses nothing.** -/
theorem escapeFrom_unescapeFrom (h : p.IsLegal first t) :
    p.escapeFrom first (p.unescapeFrom first t) = t := by
  induction first, t using unescapeFrom.induct (p := p) with
  | case1 first => rw [unescapeFrom, escapeFrom]
  -- what was read from an escape is written as that escape again
  | case2 first c rest v hread ih =>
    obtain ⟨hv, hesc⟩ := Option.filter_eq_some_iff.1 hread
    rw [unescapeFrom, hread, escapeFrom, writeAt_of_escapes hesc, ih (h.2.drop 3),
      Escape.ofByte_append_drop hv]
  | case3 first c rest hread ih =>
    obtain ⟨⟨b, hb, rfl⟩, hrest⟩ := h
    rw [unescapeFrom, hread, CodePoint.val_ofByte, UInt8.ofNat_toNat, escapeFrom,
      writeAt_of_not_escapes hb, ih hrest]
    rfl

/-- **What is read is canonical.** -/
theorem isCanonicalFrom_unescapeFrom (h : p.IsLegal first t) :
    p.IsCanonicalFrom first (p.unescapeFrom first t) := by
  induction first, t using unescapeFrom.induct (p := p) with
  | case1 first =>
    rw [unescapeFrom]
    trivial
  | case2 first c rest v hread ih =>
    obtain ⟨-, hesc⟩ := Option.filter_eq_some_iff.1 hread
    rw [unescapeFrom, hread]
    refine ⟨?_, ih (h.2.drop 3)⟩
    -- no byte that was read from an escape is an underscore
    rintro ⟨_, _, _, _, _, hv, -⟩
    rw [(List.cons.inj hv).1, escapes_underscore] at hesc
    cases hesc
  | case3 first c rest hread ih =>
    obtain ⟨⟨b, hb, rfl⟩, hrest⟩ := h
    rw [unescapeFrom, hread, CodePoint.val_ofByte, UInt8.ofNat_toNat]
    refine ⟨?_, ih hrest⟩
    intro hlooks
    -- an escape that begins here would have been read
    obtain ⟨v, hesc, hpre⟩ := (looksEscaped_iff hb).1 hlooks
    rw [escapeFrom, writeAt_of_not_escapes hb, escapeFrom_unescapeFrom hrest] at hpre
    exact Option.filter_eq_none_iff.1 hread v (Escape.read?_eq_some_iff.2 hpre) hesc

/-- **A canonical byte string is read back.** -/
theorem unescapeFrom_escapeFrom (h : p.IsCanonicalFrom first y) :
    p.unescapeFrom first (p.escapeFrom first y) = y := by
  induction y generalizing first with
  | nil => rw [escapeFrom, unescapeFrom]
  | cons b rest ih =>
    cases hb : p.escapes first b with
    | true =>
      rw [escapeFrom, writeAt_of_escapes hb, unescapeFrom_ofByte_append hb, ih h.2]
    | false =>
      -- the byte is read as itself, for nothing that looks like an escape begins with it
      have hnone : ∀ v, p.escapes first v = true →
          ¬ Escape.ofByte v <+: p.escapeFrom first (b :: rest) := fun v hv hpre =>
        h.1 ((looksEscaped_iff hb).2 ⟨v, hv, hpre⟩)
      rw [escapeFrom, writeAt_of_not_escapes hb, List.singleton_append] at hnone ⊢
      rw [unescapeFrom_ofByte_cons hnone, ih h.2]

/-- **Every byte string is written like exactly one canonical one.** So escaping confuses no two
canonical byte strings. -/
theorem existsUnique_canonical (p : Policy) :
    (∀ x, ∃! y, p.IsCanonical y ∧ p.escape y = p.escape x) ∧
      Set.InjOn p.escape {y | p.IsCanonical y} := by
  -- the only candidate is what the text reads as
  have hback : ∀ {y}, p.IsCanonical y → p.unescapeFrom true (p.escape y) = y := by
    intro y hy
    rw [← escapeFrom_true, unescapeFrom_escapeFrom (isCanonical_iff.1 hy)]
  -- so the text tells which canonical byte string it was written for
  have hinj : ∀ {y z}, p.IsCanonical y → p.IsCanonical z → p.escape y = p.escape z → y = z := by
    intro y z hy hz h
    rw [← hback hy, h, hback hz]
  refine ⟨fun x => ⟨p.unescapeFrom true (p.escape x), ?_, ?_⟩, fun y hy z hz h => hinj hy hz h⟩
  · have hlegal : p.IsLegal true (p.escape x) := escapeFrom_true ▸ isLegal_escapeFrom
    refine ⟨isCanonical_iff.2 (isCanonicalFrom_unescapeFrom hlegal), ?_⟩
    rw [← escapeFrom_true, escapeFrom_unescapeFrom hlegal]
  · rintro y ⟨hy, h⟩
    rw [← h, hback hy]

/-- Only one of these two names is canonical: in the other one a blank completes the escape of a
blank. -/
example : safe.escape [0x5F, 0x32, 0x30, 0x20] = safe.escape [0x20, 0x32, 0x30, 0x5F] := by decide

end Policy

end NameMangling
