import NameMangling.Text.Numeral
import NameMangling.Text.Printable

/-!
# Quoted literals

The text between quotes that stands for a text or a byte string in messages and descriptions.

The enclosing quote is the single one, unless the content holds single quotes and no double ones.
Inside, a backslash comes before the enclosing quote and before a backslash; line feed, carriage
return and tab are written by letter; and what cannot be shown is written by number, as `\xNN`,
`\uNNNN` or `\UNNNNNNNN`, the shortest that fits. In a text that is every control character, every
surrogate and every code point beyond ASCII that is not printable; in a byte string, every byte
outside 0x20 to 0x7E.

Which code points count as printable is a parameter. It is asked only about code points beyond ASCII
that are no surrogates, so every choice gives literals that can be told apart.
-/

namespace NameMangling.Literal

/-- The quote that encloses a content. -/
def enclosingQuote (content : Text) : CodePoint :=
  if content.contains '\'' && !content.contains '"' then '"' else '\''

/-- A code point by its number, in two, four or eight hexadecimal digits. -/
def byNumber (c : CodePoint) : Text :=
  if c.val < 0x100 then Text.ofString "\\x" ++ Numeral.fixedHex 2 c.val
  else if c.val < 0x10000 then Text.ofString "\\u" ++ Numeral.fixedHex 4 c.val
  else Text.ofString "\\U" ++ Numeral.fixedHex 8 c.val

/-- Does a code point stand for itself, if it is neither a quote nor a backslash? -/
def isShown (printable : CodePoint → Bool) (c : CodePoint) : Bool :=
  if c.isAscii then 0x20 ≤ c.val && c.val < 0x7F
  else !c.isSurrogate && printable c

/-- One code point between quotes, where `guarded` is the quote that gets a backslash. -/
def escape (shown : CodePoint → Bool) (guarded c : CodePoint) : Text :=
  if c = guarded ∨ c = '\\' then ['\\', c]
  else if c = '\n' then ['\\', 'n']
  else if c = '\r' then ['\\', 'r']
  else if c = '\t' then ['\\', 't']
  else if shown c then [c]
  else byNumber c

/-- A content between two quotes. -/
def enclose (shown : CodePoint → Bool) (quote guarded : CodePoint) (content : Text) : Text :=
  quote :: content.flatMap (escape shown guarded) ++ [quote]

/-- The literal of a text. -/
def ofText (printable : CodePoint → Bool) (t : Text) : Text :=
  enclose (isShown printable) (enclosingQuote t) (enclosingQuote t) t

/-- The literal of a byte string: the letter b, then the bytes as code points between quotes. -/
def ofBytes (bs : Bytes) : Text :=
  let content := bs.map CodePoint.ofByte
  'b' :: enclose (isShown fun _ => false) (enclosingQuote content) (enclosingQuote content) content

/-- The literal of a byte string that its owner may change. It names the sort of the value, and in
it every single quote gets a backslash, even between double quotes. -/
def ofBuffer (bs : Bytes) : Text :=
  let content := bs.map CodePoint.ofByte
  Text.ofString "bytearray(b" ++
    enclose (isShown fun _ => false) (enclosingQuote content) '\'' content ++ Text.ofString ")"

example : ofText CodePoint.isPrintable (Text.ofString "it's \"é\"\n\x00") =
    Text.ofString "'it\\'s \"é\"\\n\\x00'" := by decide +kernel

example : ofBytes [0x69, 0x27, 0xFF] = Text.ofString "b\"i'\\xff\"" := by decide

example : ofBuffer [0x69, 0x27] = Text.ofString "bytearray(b\"i\\'\")" := by decide

end NameMangling.Literal
