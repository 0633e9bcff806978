/-!
# Code points, texts and byte strings

A `Text` is a list of code points, where any number below 0x110000 counts, surrogates included:
names reach this library from environments whose strings may hold surrogates that belong to no
pair. Byte strings are lists of bytes.

Among the surrogates, U+DC80 to U+DCFF have a job. Such a code point is a **stand-in** for a byte
that could not be decoded: U+DC80 + k stands for the byte 0x80 + k. The other surrogates stand for
nothing and are called **stray**.

* `CodePoint.heldByte?` — the byte that a stand-in stands for;
* `CodePoint.heldByte?_standIn` — every byte from 0x80 up has its stand-in;
* `CodePoint.isStray_iff` — a surrogate is stray exactly when it holds no byte.
-/

namespace NameMangling

/-- A byte string. -/
abbrev Bytes := List UInt8

/-- A code point: a number below 0x110000. Surrogates are code points too. -/
structure CodePoint where
  val : Nat
  isLt : val < 0x110000
  deriving DecidableEq

/-- A text is a sequence of code points. -/
abbrev Text := List CodePoint

namespace CodePoint

/-- Two code points with the same number are the same. -/
@[ext] theorem ext {c d : CodePoint} (h : c.val = d.val) : c = d := by
  cases c; cases d; cases h; rfl

/-- The code point of a character. -/
def ofChar (c : Char) : CodePoint where
  val := c.toNat
  isLt := by
    have h := c.valid
    change c.val.toNat < _
    simp only [UInt32.isValidChar, Nat.isValidChar] at h
    omega

instance : Coe Char CodePoint := ⟨ofChar⟩

/-- The code point with the number of a byte. -/
def ofByte (b : UInt8) : CodePoint where
  val := b.toNat
  isLt := Nat.lt_trans b.toNat_lt (by decide)

@[simp] theorem val_ofByte (b : UInt8) : (ofByte b).val = b.toNat := rfl

@[simp] theorem ofByte_inj {b c : UInt8} : ofByte b = ofByte c ↔ b = c :=
  ⟨fun h => UInt8.toNat_inj.1 (congrArg val h), congrArg ofByte⟩

/-- The ASCII characters are the code points below 0x80. -/
def isAscii (c : CodePoint) : Bool := c.val < 0x80

/-- The surrogates are U+D800 to U+DFFF. -/
def isSurrogate (c : CodePoint) : Bool := 0xD800 ≤ c.val && c.val ≤ 0xDFFF

/-! ### Stand-ins for undecodable bytes -/

/-- **Stand-in.** The code point U+DC00 + b stands for the byte b. -/
def standIn (b : UInt8) : CodePoint where
  val := 0xDC00 + b.toNat
  isLt := by have := b.toNat_lt; omega

@[simp] theorem val_standIn (b : UInt8) : (standIn b).val = 0xDC00 + b.toNat := rfl

/-- The byte that a code point stands for: U+DC80 to U+DCFF hold one, all others none. -/
def heldByte? (c : CodePoint) : Option UInt8 :=
  if 0xDC80 ≤ c.val ∧ c.val ≤ 0xDCFF then some (UInt8.ofNat (c.val - 0xDC00)) else none

/-- A stray surrogate holds no byte. -/
def isStray (c : CodePoint) : Bool := c.isSurrogate && c.heldByte?.isNone

/-- The bytes from 0x80 up are held by their stand-ins. -/
theorem heldByte?_standIn {b : UInt8} (h : 0x80 ≤ b.toNat) : (standIn b).heldByte? = some b := by
  have := b.toNat_lt
  rw [heldByte?, if_pos (by rw [val_standIn]; omega)]
  simp

/-- Only the stand-in of a byte holds it. -/
theorem eq_standIn_of_heldByte? {c : CodePoint} {b : UInt8} (h : c.heldByte? = some b) :
    c = standIn b := by
  unfold heldByte? at h
  split at h
  · next hc =>
    obtain rfl := Option.some.inj h
    ext
    simp only [val_standIn, UInt8.toNat_ofNat']
    omega
  · cases h

/-- A code point holds no byte exactly when it lies outside U+DC80 to U+DCFF. -/
theorem heldByte?_eq_none_iff {c : CodePoint} :
    c.heldByte? = none ↔ ¬ (0xDC80 ≤ c.val ∧ c.val ≤ 0xDCFF) := by
  unfold heldByte?
  split <;> simp_all

/-- The stray surrogates are U+D800 to U+DC7F and U+DD00 to U+DFFF. -/
theorem isStray_iff {c : CodePoint} :
    c.isStray = true ↔
      (0xD800 ≤ c.val ∧ c.val ≤ 0xDFFF) ∧ ¬ (0xDC80 ≤ c.val ∧ c.val ≤ 0xDCFF) := by
  simp [isStray, isSurrogate, heldByte?_eq_none_iff]

end CodePoint

namespace Text

/-- The text of a string of characters. -/
def ofString (s : String) : Text := s.toList.map CodePoint.ofChar

/-- The line feed, which ends a line. -/
def newline : CodePoint := '\n'

/-- A text is ASCII when all its code points are. -/
def isAscii (t : Text) : Bool := t.all CodePoint.isAscii

end Text

end NameMangling
