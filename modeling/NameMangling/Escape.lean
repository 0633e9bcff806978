import NameMangling.Policy
import NameMangling.Text.Numeral

/-!
# Escaping

In unquoted names every byte that may not stand as it is becomes `_XY_`, with its value in two
uppercase hexadecimal digits. Digits are escaped at the beginning of a name and nowhere else.

* `Policy.escape_cons` — the first byte is written by `writeFirst`, all others by `write`;
* `Escape.ofInt_toNat` — the escape of a byte is the escape of its number.
-/

namespace NameMangling

namespace Escape

/-- **The escape of a byte.** -/
def ofByte (b : UInt8) : Text :=
  ['_', Numeral.upperHexDigit (b.toNat / 16), Numeral.upperHexDigit (b.toNat % 16), '_']

/-- The same form for any number: at least two characters between the underscores, filled up by a
zero in front; a sign counts as one of them. -/
def ofInt : Int → Text
  | .ofNat n =>
    Text.ofString (if n < 16 then "_0" else "_") ++ Numeral.upperHex n ++ Text.ofString "_"
  | .negSucc n => Text.ofString "_-" ++ Numeral.upperHex (n + 1) ++ Text.ofString "_"

/-- The escape of a byte is the escape of its number. -/
theorem ofInt_toNat (b : UInt8) : ofInt b.toNat = ofByte b := by
  have h : ∀ n < 256, ofInt (Int.ofNat (UInt8.ofNat n).toNat) = ofByte (UInt8.ofNat n) := by
    decide +kernel
  have hb := h b.toNat b.toNat_lt
  rwa [UInt8.ofNat_toNat] at hb

end Escape

namespace Policy

/-- A byte behind the first one: as it is if it is acceptable, escaped if not. -/
def write (p : Policy) (b : UInt8) : Text :=
  if p.accepts b then [CodePoint.ofByte b] else Escape.ofByte b

/-- The first byte: escaped also if it is a digit. -/
def writeFirst (p : Policy) (b : UInt8) : Text :=
  if isDigit b then Escape.ofByte b else p.write b

/-- **Escaping** a byte string. -/
def escape (p : Policy) : Bytes → Text
  | [] => []
  | b :: rest => p.writeFirst b ++ rest.flatMap p.write

@[simp] theorem escape_nil (p : Policy) : p.escape [] = [] := rfl

@[simp] theorem escape_cons (p : Policy) (b : UInt8) (rest : Bytes) :
    p.escape (b :: rest) = p.writeFirst b ++ rest.flatMap p.write := rfl

example : safe.escape [0x30, 0x30, 0x20] = Text.ofString "_30_0_20_" := by decide

end Policy

end NameMangling
