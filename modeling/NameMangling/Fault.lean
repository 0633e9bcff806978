import NameMangling.Value.Basic

/-!
# Faults

Everything that can go wrong, by cause, with the wording of the messages in one place.

Two of the faults blame a name: there was nothing to mangle, or nothing but the marker. They carry
the name as it was given (`Fault.blamedName?`), and a caller that works through many names goes on
after them. The other faults are misuse, and some of them are left without a message.

A message that shows a value can itself go wrong, if a number in the value has too many digits. Then
this is what it says, whatever it was about.
-/

namespace NameMangling

/-- **What went wrong.** -/
inductive Fault where
  /-- The name has no bytes. -/
  | emptyName (name : Value)
  /-- The name has no bytes behind the marker that suppresses its prefix. -/
  | bareMarker (name : Value)
  /-- The prefix kind is none of the known ones. -/
  | unknownKind (kind : Value)
  /-- The linkage is none of the known ones. -/
  | unknownLinkage (linkage : Value)
  /-- Further acceptable characters must be ASCII. -/
  | nonAsciiExtra (extra : Value)
  /-- A number in a list is no byte. -/
  | noByte
  /-- A negative number of bytes was asked for. -/
  | negativeCount
  /-- A number of bytes was asked for that is no count of bytes at all. -/
  | countOutOfRange
  /-- More bytes were asked for than there is room for. -/
  | noRoom
  /-- The value nothing has no bytes. -/
  | noBytes
  /-- The two values cannot be joined. -/
  | cannotJoin (left right : Value)
  /-- A byte string stands where only a text will do. -/
  | bytesForText
  /-- A value that is neither text nor byte string stands where only a text will do. -/
  | noText
  /-- A number has too many digits to be shown. -/
  | tooManyDigits
  /-- A body without bytes was asked whether it needs quotes. -/
  | emptyBody
  /-- No mangler has this name. -/
  | unboundMangler (name : String)
  /-- No symbol has this name. -/
  | unboundSymbol (name : String)
  /-- A caller's own symbol does not describe itself. -/
  | noFacts
  deriving DecidableEq

namespace Fault

/-- The name that a fault blames, as it was given. -/
def blamedName? : Fault → Option Value
  | emptyName name | bareMarker name => some name
  | _ => none

/-- What is said of a number that has too many digits to be shown. -/
def digitsText : Text :=
  Text.ofString "Exceeds the limit (" ++ Numeral.decimal Numeral.maxDigits ++
    Text.ofString " digits) for integer string conversion; " ++
    Text.ofString "use sys.set_int_max_str_digits() to increase the limit"

/-- A message with something that is shown in it. -/
def about (opening : String) (shown : Option Text) (ending : String) : Text :=
  match shown with
  | some t => Text.ofString opening ++ t ++ Text.ofString ending
  | none => digitsText

/-- **The text of a fault.** A fault that comes from mixing up sorts of values has none, nor has one
that comes from asking for too much. -/
def message? : Fault → Option Text
  | emptyName _ => some (Text.ofString "Cannot mangle an empty name.")
  | bareMarker name => some (about "The name " name.literal? " is empty after the no-prefix marker.")
  | unknownKind kind => some (about "Unknown prefix kind `" kind.display? "`!")
  | unknownLinkage linkage => some (about "Unknown linkage `" linkage.display? "`!")
  | nonAsciiExtra extra =>
    some (about "Extra acceptable characters must be ASCII, got `" extra.display? "`!")
  | noByte => some (Text.ofString "bytes must be in range(0, 256)")
  | negativeCount => some (Text.ofString "negative count")
  | tooManyDigits => some digitsText
  | _ => none

/-- Two computations that can fail, one after the other, succeed exactly if both do. -/
theorem bind_eq_ok_iff {α β : Type} {x : Except Fault α} {f : α → Except Fault β} {b : β} :
    x >>= f = .ok b ↔ ∃ a, x = .ok a ∧ f a = .ok b := by
  cases x with
  | error e => simp [bind, Except.bind]
  | ok a => simp [bind, Except.bind]

end Fault

/-- **A value as it is shown**, in its display form. -/
def Value.shown (v : Value) : Except Fault Text :=
  match v.display? with
  | some t => .ok t
  | none => .error .tooManyDigits

namespace Value

@[simp] theorem shown_text (t : Text) : (text t).shown = .ok t := rfl

end Value

end NameMangling
