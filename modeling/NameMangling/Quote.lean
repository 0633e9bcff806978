import NameMangling.Policy
import NameMangling.Text.Utf8

/-!
# Quoting

In quoted mode a name that could not stand as it is goes between double quotes. Inside them only the
double quote and the line feed are replaced, by `_QQ_` and `_NL_`; the bytes are then read as UTF-8.

A name needs quotes if it begins with a digit or holds a byte that is not acceptable, which are just
the names that escaping would change.
-/

namespace NameMangling

namespace Quote

/-- What stands for a byte between quotes. -/
def substitute (b : UInt8) : Bytes :=
  if b = 0x22 then [0x5F, 0x51, 0x51, 0x5F]
  else if b = 0x0A then [0x5F, 0x4E, 0x4C, 0x5F]
  else [b]

/-- All other bytes stand for themselves. -/
theorem substitute_of_ne {b : UInt8} (hquote : b ≠ 0x22) (hline : b ≠ 0x0A) :
    substitute b = [b] := by
  rw [substitute, if_neg hquote, if_neg hline]

/-- No byte gets lost. -/
theorem substitute_ne_nil (b : UInt8) : substitute b ≠ [] := by
  unfold substitute
  split
  · exact List.cons_ne_nil _ _
  split <;> exact List.cons_ne_nil _ _

/-- **The text between the quotes** for the bytes of a name. -/
def body (bs : Bytes) : Text := Text.ofBytes (bs.flatMap substitute)

/-- A text between double quotes. -/
def enclose (t : Text) : Text := CodePoint.ofChar '"' :: t ++ [CodePoint.ofChar '"']

example : body [0x61, 0x22, 0x0A] = Text.ofString "a_QQ__NL_" := by decide

end Quote

/-- **Does a name need quotes?** The question makes no sense for a name without bytes. -/
def Policy.needsQuotes (p : Policy) : Bytes → Except Fault Bool
  | [] => .error .emptyBody
  | b :: rest => .ok (isDigit b || !(b :: rest).all p.accepts)

end NameMangling
