import NameMangling.Fault
import NameMangling.Text.Utf8

/-!
# Bytes of values, and joining values

A name is mangled by its bytes. Texts and byte strings have them; a list of numbers names them one
by one; a number asks for so many zero bytes, within the bounds of what can be counted and held, and
a truth value counts as one or zero. Nothing has no bytes.

Two values can be joined if they are of one sort. Byte strings of both sorts can be joined, and the
result is of the sort of the first; numbers and truth values join to their sum.
-/

namespace NameMangling.Value

/-- The byte with a given number. -/
def byte? (n : Int) : Except Fault UInt8 :=
  if 0 ≤ n ∧ n < 256 then .ok (UInt8.ofNat n.toNat) else .error .noByte

/-- Is a number a count of bytes? Counts are signed and have 64 bits, and the largest ones are out:
a byte string takes 33 bytes more than it holds, and what it takes must be a count as well. -/
def isCount (n : Int) : Bool := -0x8000000000000000 ≤ n && n + 33 < 0x8000000000000000

/-- The most bytes that there is room for, 64 GiB. -/
def room : Int := 0x1000000000

/-- A number of zero bytes. Whether there is room for them is asked last. -/
def zeroBytes (n : Int) : Except Fault Bytes :=
  if !isCount n then .error .countOutOfRange
  else if n < 0 then .error .negativeCount
  else if room < n then .error .noRoom
  else .ok (List.replicate n.toNat 0)

/-- **The bytes of a value.** -/
def toBytes : Value → Except Fault Bytes
  | text t => .ok t.toBytes
  | bytes bs | buffer bs => .ok bs
  | integer n => zeroBytes n
  | flag b => zeroBytes (ofFlag b)
  | integers ns => ns.mapM byte?
  | nothing => .error .noBytes

/-- **Joining two values.** -/
def append : Value → Value → Except Fault Value
  | text t, text u => .ok (text (t ++ u))
  -- The first of two byte strings decides the sort of the result.
  | bytes bs, bytes cs | bytes bs, buffer cs => .ok (bytes (bs ++ cs))
  | buffer bs, bytes cs | buffer bs, buffer cs => .ok (buffer (bs ++ cs))
  | integers ms, integers ns => .ok (integers (ms ++ ns))
  | integer m, integer n => .ok (integer (m + n))
  | integer m, flag b => .ok (integer (m + ofFlag b))
  | flag b, integer n => .ok (integer (ofFlag b + n))
  | flag b, flag c => .ok (integer (ofFlag b + ofFlag c))
  | v, w => .error (.cannotJoin v w)

/-- A value in front of a text. Only a text can stand there. -/
def before : Value → Text → Except Fault Text
  | text p, t => .ok (p ++ t)
  | v, t => .error (.cannotJoin v (text t))

example : zeroBytes (-0x8000000000000000) = .error .negativeCount := rfl

example : zeroBytes (-0x8000000000000001) = .error .countOutOfRange := rfl

example : zeroBytes 2 = .ok [0, 0] := rfl

@[simp] theorem toBytes_text (t : Text) : (text t).toBytes = .ok t.toBytes := rfl

@[simp] theorem toBytes_bytes (bs : Bytes) : (bytes bs).toBytes = .ok bs := rfl

@[simp] theorem append_text (t u : Text) : (text t).append (text u) = .ok (text (t ++ u)) := rfl

@[simp] theorem before_text (p t : Text) : (text p).before t = .ok (p ++ t) := rfl

end NameMangling.Value
