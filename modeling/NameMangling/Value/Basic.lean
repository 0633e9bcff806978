import NameMangling.Text.Literal

/-!
# Values that callers hand over

Front ends hand the mangler whatever they hold: names as texts or as byte strings, counts, lists of
byte numbers, or nothing at all. A `Value` is any of these. It matters which one it is: it decides
what bytes a name has (`Value.toBytes`), whether a suffix can be joined to it (`Value.append`), and
how it looks in a message, for which there are two forms.

* `Value.display?` — a text as it is, all other values by their literal;
* `Value.literal?` — texts and byte strings between quotes, so that their ends can be seen.

A value with a number in it that has too many digits has neither form (`Value.isTooLong`), and it is
the only kind of value that has none (`Value.isSome_literalBy?`, `Value.isSome_display?`).
-/

namespace NameMangling

/-- **A value of a caller.** -/
inductive Value where
  /-- A text. -/
  | text (t : Text)
  /-- A byte string. -/
  | bytes (bs : Bytes)
  /-- A byte string that its owner may still change. It differs from `bytes` in its literal only,
  and in what becomes of it when it is joined to another one. -/
  | buffer (bs : Bytes)
  /-- A number. -/
  | integer (n : Int)
  /-- A truth value. -/
  | flag (b : Bool)
  /-- A list of numbers. -/
  | integers (ns : List Int)
  /-- No value. -/
  | nothing
  deriving DecidableEq

namespace Value

/-- Truth values count as one and zero. -/
def ofFlag (b : Bool) : Int := if b then 1 else 0

/-- Empty values, zero, the false flag and nothing do not count as given; all others do. -/
def isGiven : Value → Bool
  | text t => !t.isEmpty
  | bytes bs | buffer bs => !bs.isEmpty
  | integer n => n != 0
  | flag b => b
  | integers ns => !ns.isEmpty
  | nothing => false

/-- The literal of a value, for a choice of what counts as printable. There is none if a number in
it has too many digits. -/
def literalBy? (printable : CodePoint → Bool) : Value → Option Text
  | text t => some (Literal.ofText printable t)
  | bytes bs => some (Literal.ofBytes bs)
  | buffer bs => some (Literal.ofBuffer bs)
  | integer n => Numeral.signedDecimal? n
  | flag true => some (Text.ofString "True")
  | flag false => some (Text.ofString "False")
  | integers ns =>
    (ns.mapM Numeral.signedDecimal?).map fun numerals =>
      Text.ofString "[" ++ (Text.ofString ", ").intercalate numerals ++ Text.ofString "]"
  | nothing => some (Text.ofString "None")

/-- **The literal of a value.** -/
def literal? (v : Value) : Option Text := v.literalBy? CodePoint.isPrintable

/-- **The display form of a value**: a text as it is, any other value by its literal. -/
def display? : Value → Option Text
  | text t => some t
  | v => v.literal?

/-- Is there a number in a value that has too many digits to be shown? -/
def isTooLong : Value → Bool
  | integer n => Numeral.isTooLong n
  | integers ns => ns.any Numeral.isTooLong
  | _ => false

end Value

end NameMangling
