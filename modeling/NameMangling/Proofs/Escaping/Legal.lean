import NameMangling.Escape
import Mathlib.Data.List.Basic

/-!
# Escaping from a position on

Escaping treats the first byte of a name differently from all others, and only in that it escapes
digits. So what is said about escaping by induction is said about a tail of a name, with a flag that
tells whether the tail is the whole name: `Policy.escapes`, `Policy.escapeFrom`.

* `Policy.escapeFrom_true` — escaping from the first byte on is escaping;
* `Policy.isLegal_escapeFrom` — what comes out are acceptable characters that need no escapes
  themselves.
-/

namespace NameMangling

/-! ### Digits of escapes -/

namespace Escape

/-- The underscore, with which escapes begin and end. -/
def underscore : UInt8 := 0x5F

/-- The byte of an uppercase hexadecimal digit. -/
def digit (d : Nat) : UInt8 := UInt8.ofNat (Numeral.upperHexDigit d).val

theorem ofByte_underscore : CodePoint.ofByte underscore = CodePoint.ofChar '_' := rfl

theorem ofByte_digit {d : Nat} (h : d < 16) :
    CodePoint.ofByte (digit d) = Numeral.upperHexDigit d := by
  revert d
  decide

theorem digit_ne_underscore {d : Nat} (h : d < 16) : digit d ≠ underscore := by
  revert d
  decide

theorem isSafe_digit {d : Nat} (h : d < 16) : isSafe (digit d) = true := by
  revert d
  decide

/-- An escape as the characters of four bytes. -/
theorem ofByte_eq_map (b : UInt8) :
    ofByte b = [underscore, digit (b.toNat / 16), digit (b.toNat % 16), underscore].map
      CodePoint.ofByte := by
  have hb := b.toNat_lt
  rw [ofByte, ← ofByte_digit (by omega), ← ofByte_digit (by omega), ← ofByte_underscore]
  rfl

end Escape

namespace Policy

variable {p : Policy} {first : Bool} {b : UInt8} {bs : Bytes}

/-! ### The flag for the first byte -/

/-- **Is a byte escaped**, at the beginning of a name or behind it? -/
def escapes (p : Policy) (first : Bool) (b : UInt8) : Bool := !p.accepts b || (first && isDigit b)

/-- What a byte becomes at the beginning of a name or behind it. -/
def writeAt (p : Policy) (first : Bool) (b : UInt8) : Text :=
  if p.escapes first b then Escape.ofByte b else [CodePoint.ofByte b]

/-- **Escaping** the tail of a name that may be the whole of it. -/
def escapeFrom (p : Policy) : Bool → Bytes → Text
  | _, [] => []
  | first, b :: rest => p.writeAt first b ++ p.escapeFrom false rest

theorem writeAt_of_escapes (h : p.escapes first b = true) :
    p.writeAt first b = Escape.ofByte b := if_pos h

theorem writeAt_of_not_escapes (h : p.escapes first b = false) :
    p.writeAt first b = [CodePoint.ofByte b] := if_neg (Bool.eq_false_iff.1 h)

theorem escapes_eq_true_iff :
    p.escapes first b = true ↔ p.accepts b = false ∨ first = true ∧ isDigit b = true := by
  simp [escapes]

theorem escapes_false : p.escapes false b = !p.accepts b := Bool.or_false _

theorem writeAt_false : p.writeAt false b = p.write b := by
  rw [writeAt, write, escapes_false]
  cases p.accepts b <;> rfl

theorem writeAt_true : p.writeAt true b = p.writeFirst b := by
  rw [writeFirst, ← writeAt_false, writeAt, writeAt, escapes, escapes]
  cases isDigit b <;> simp

theorem escapeFrom_false : p.escapeFrom false bs = bs.flatMap p.write := by
  induction bs with
  | nil => rfl
  | cons b rest ih => rw [escapeFrom, ih, writeAt_false, List.flatMap_cons]

/-- Escaping from the first byte on is escaping. -/
theorem escapeFrom_true : p.escapeFrom true bs = p.escape bs := by
  cases bs with
  | nil => rfl
  | cons b rest => rw [escapeFrom, writeAt_true, escapeFrom_false, escape_cons]

/-- **Acceptable bytes in front** stand as they are, if the first of them is no digit. -/
theorem escape_append_of_accepts (hb : isDigit b = false)
    (hacc : ∀ c ∈ b :: bs, p.accepts c = true) (rest : Bytes) :
    p.escape (b :: bs ++ rest) = (b :: bs).map CodePoint.ofByte ++ rest.flatMap p.write := by
  have hwrite : ∀ c ∈ b :: bs, p.write c = [CodePoint.ofByte c] :=
    fun c hc => if_pos (hacc c hc)
  have hfirst : p.writeFirst b = p.write b := if_neg (Bool.eq_false_iff.1 hb)
  calc p.escape (b :: bs ++ rest)
      = p.write b ++ (bs ++ rest).flatMap p.write := by rw [List.cons_append, escape_cons, hfirst]
    _ = (b :: bs).flatMap p.write ++ rest.flatMap p.write := by
        rw [List.flatMap_append, List.flatMap_cons, List.append_assoc]
    _ = (b :: bs).map CodePoint.ofByte ++ rest.flatMap p.write := by
        rw [List.map_eq_flatMap, List.flatMap_congr hwrite]

theorem escapes_of_isSafe (h : isSafe b = true) : p.escapes false b = false := by
  rw [escapes_false, accepts, h]
  rfl

/-- The underscore is never escaped. -/
@[simp] theorem escapes_underscore : p.escapes first Escape.underscore = false := by
  rw [escapes, accepts, Bool.or_eq_false_iff]
  cases first <;> exact ⟨rfl, rfl⟩

/-! ### Legal texts -/

/-- **A legal text** consists of characters that need no escapes. -/
def IsLegal (p : Policy) : Bool → Text → Prop
  | _, [] => True
  | first, c :: rest => (∃ b, p.escapes first b = false ∧ c = CodePoint.ofByte b) ∧
      p.IsLegal false rest

theorem IsLegal.drop {t : Text} (h : p.IsLegal false t) (n : Nat) : p.IsLegal false (t.drop n) := by
  induction n generalizing t with
  | zero => exact h
  | succ n ih =>
    cases t with
    | nil => trivial
    | cons c rest => exact ih h.2

/-- An escape is legal wherever it stands. -/
theorem isLegal_ofByte_append {rest : Text} (h : p.IsLegal false rest) :
    p.IsLegal first (Escape.ofByte b ++ rest) := by
  have hb := b.toNat_lt
  rw [Escape.ofByte_eq_map]
  exact ⟨⟨_, escapes_underscore, rfl⟩,
    ⟨_, escapes_of_isSafe (Escape.isSafe_digit (by omega)), rfl⟩,
    ⟨_, escapes_of_isSafe (Escape.isSafe_digit (by omega)), rfl⟩,
    ⟨_, escapes_underscore, rfl⟩, h⟩

/-- **Escaping makes legal texts.** -/
theorem isLegal_escapeFrom : p.IsLegal first (p.escapeFrom first bs) := by
  induction bs generalizing first with
  | nil => trivial
  | cons b rest ih =>
    rw [escapeFrom]
    cases h : p.escapes first b with
    | true =>
      rw [writeAt_of_escapes h]
      exact isLegal_ofByte_append ih
    | false =>
      rw [writeAt_of_not_escapes h]
      exact ⟨⟨b, h, rfl⟩, ih⟩

end Policy

end NameMangling
