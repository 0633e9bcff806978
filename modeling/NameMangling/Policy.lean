import NameMangling.Fault

/-!
# Acceptable bytes

Which bytes may stand in a name as they are: ASCII letters and digits, underscore, dollar sign and
full stop, and any further ASCII characters that the target allows. Digits are acceptable, though
not at the beginning of a name; that is for the encoders to see to.

* `Policy.accepts_lt` — acceptable bytes are ASCII.
-/

namespace NameMangling

/-- The ASCII digits. -/
def isDigit (b : UInt8) : Bool := 0x30 ≤ b && b ≤ 0x39

/-- **The bytes that every target accepts**: ASCII letters and digits, and `_`, `$` and `.`. -/
def isSafe (b : UInt8) : Bool :=
  isDigit b || (0x41 ≤ b && b ≤ 0x5A) || (0x61 ≤ b && b ≤ 0x7A) || b == 0x5F || b == 0x24 ||
    b == 0x2E

/-- **The acceptable bytes of a target**: the safe ones and some further ASCII characters. -/
structure Policy where
  extra : Bytes
  extra_lt : ∀ b ∈ extra, b < 0x80

namespace Policy

/-- The policy that accepts the safe bytes alone. -/
def safe : Policy := ⟨[], by simp⟩

/-- The policy that also accepts the characters of an ASCII text. -/
def ofText (extra : Text) (h : extra.isAscii = true) : Policy where
  extra := extra.map fun c => UInt8.ofNat c.val
  extra_lt := by
    intro b hb
    obtain ⟨c, hc, rfl⟩ := List.mem_map.1 hb
    have hc := of_decide_eq_true (List.all_eq_true.1 h c hc)
    rw [UInt8.lt_iff_toNat_lt, UInt8.toNat_ofNat', Nat.mod_eq_of_lt (by omega)]
    exact hc

/-- What is wrong with a byte string that stands for further acceptable characters: that it is no
ASCII, or else that it is no text. -/
def bytesFault (bs : Bytes) (v : Value) : Fault :=
  if bs.all (· < 0x80) then .bytesForText else .nonAsciiExtra v

/-- **The policy that also accepts the characters of a value**, which must be an ASCII text. -/
def ofExtra? : Value → Except Fault Policy
  | .text t => if h : t.isAscii = true then .ok (ofText t h) else .error (.nonAsciiExtra (.text t))
  | .bytes bs => .error (bytesFault bs (.bytes bs))
  | .buffer bs => .error (bytesFault bs (.buffer bs))
  | _ => .error .noText

/-- May a byte stand in a name as it is? -/
def accepts (p : Policy) (b : UInt8) : Bool := isSafe b || p.extra.contains b

/-- The acceptable bytes among the numbers from `lo` up to, not including, `hi`. -/
def acceptedIn (p : Policy) (lo hi : Int) : List Nat :=
  (List.range 256).filter fun n => lo ≤ n && n < hi && p.accepts (UInt8.ofNat n)

/-- Safe bytes are acceptable, whatever else is. -/
theorem accepts_of_isSafe (p : Policy) {b : UInt8} (h : isSafe b = true) : p.accepts b = true := by
  rw [accepts, h, Bool.true_or]

/-- Safe bytes are ASCII. -/
theorem isSafe_lt {b : UInt8} (h : isSafe b = true) : b < 0x80 := by
  simp only [isSafe, isDigit, Bool.or_eq_true, Bool.and_eq_true, decide_eq_true_eq,
    beq_iff_eq] at h
  simp only [UInt8.lt_iff_toNat_lt, UInt8.le_iff_toNat_le, ← UInt8.toNat_inj] at h ⊢
  simp only [UInt8.reduceToNat] at h ⊢
  omega

/-- Acceptable bytes are ASCII. -/
theorem accepts_lt (p : Policy) {b : UInt8} (h : p.accepts b = true) : b < 0x80 := by
  rcases Bool.or_eq_true_iff.1 h with h | h
  · exact isSafe_lt h
  · exact p.extra_lt b (List.contains_iff_mem.1 h)

end Policy

end NameMangling
