import NameMangling.Text.Literal
import Mathlib.Algebra.Group.Nat.Defs

/-!
# Literals, read back

A literal can be read back without knowing more than its own text, and its end can be found in
whatever follows it. The first code point says which quote encloses the content. Each code point of
the content is then read by itself (`Literal.readOne`): what is behind a backslash tells how many
digits follow, and an enclosing quote without a backslash is the end.

Which code points were shown and which were written by number makes no difference to the reading, so
nothing here depends on what counts as printable.

* `Literal.readOne_escape_append` — a code point is read back in front of anything;
* `Literal.enclose_append_inj` — so is a content between quotes;
* `Literal.ofText_append_inj`, `Literal.ofBytes_append_inj` — and the literals of texts and byte
  strings.
-/

namespace NameMangling

/-! ### Digits -/

namespace Numeral

/-- The value of a lowercase hexadecimal digit. Of anything else it means nothing. -/
def lowerHexValue (c : CodePoint) : Nat :=
  if c.val < 0x61 then c.val - 0x30 else c.val - 0x61 + 10

/-- The number that lowercase hexadecimal digits write, the most significant first. -/
def ofLowerHex (digits : Text) : Nat := digits.foldl (fun n c => 16 * n + lowerHexValue c) 0

theorem lowerHexValue_lowerHexDigit {d : Nat} (h : d < 16) :
    lowerHexValue (lowerHexDigit d) = d := by
  revert d
  decide

/-- **A number is read back** from digits of a fixed width, if they are enough for it. -/
theorem ofLowerHex_fixedHex {width n : Nat} (h : n < 16 ^ width) :
    ofLowerHex (fixedHex width n) = n := by
  induction width generalizing n with
  | zero =>
    rw [Nat.pow_zero, Nat.lt_one_iff] at h
    exact h.symm
  | succ width ih =>
    have hfront : n / 16 < 16 ^ width := by
      rw [Nat.pow_succ] at h
      exact Nat.div_lt_of_lt_mul (by rwa [Nat.mul_comm])
    -- the last digit is the remainder, and the others write the quotient
    rw [fixedHex, ofLowerHex, List.foldl_append, List.foldl_cons, List.foldl_nil, ← ofLowerHex,
      ih hfront, lowerHexValue_lowerHexDigit (Nat.mod_lt n (by decide))]
    exact Nat.div_add_mod n 16

end Numeral

namespace Literal

variable {shown : CodePoint → Bool} {quote c : CodePoint} {t u rest rest' : Text}

/-! ### One code point -/

/-- **A quote** is a single or a double one. -/
def IsQuote (c : CodePoint) : Prop := c = '\'' ∨ c = '"'

instance : DecidablePred IsQuote := fun _ => inferInstanceAs (Decidable (_ ∨ _))

theorem isQuote_enclosingQuote (content : Text) : IsQuote (enclosingQuote content) := by
  unfold enclosingQuote
  split
  · exact .inr rfl
  · exact .inl rfl

/-- Reading a code point that is written by number, in digits of a given width. -/
def readNumber (width : Nat) (t : Text) : Option (CodePoint × Text) :=
  let n := Numeral.ofLowerHex (t.take width)
  if h : n < 0x110000 then some (⟨n, h⟩, t.drop width) else none

/-- Reading a code point behind a backslash. What is not one of the six letters is itself. -/
def readGuarded : Text → Option (CodePoint × Text)
  | [] => none
  | c :: rest =>
    if c = 'n' then some ('\n', rest)
    else if c = 'r' then some ('\r', rest)
    else if c = 't' then some ('\t', rest)
    else if c = 'x' then readNumber 2 rest
    else if c = 'u' then readNumber 4 rest
    else if c = 'U' then readNumber 8 rest
    else some (c, rest)

/-- **Reading one code point** of a content, up to the enclosing quote. -/
def readOne (quote : CodePoint) : Text → Option (CodePoint × Text)
  | [] => none
  | c :: rest =>
    if c = quote then none else if c = '\\' then readGuarded rest else some (c, rest)

theorem readNumber_fixedHex_append {width : Nat} (h : c.val < 16 ^ width) (rest : Text) :
    readNumber width (Numeral.fixedHex width c.val ++ rest) = some (c, rest) := by
  have hlen : (Numeral.fixedHex width c.val).length = width := Numeral.length_fixedHex width c.val
  have hvalue : Numeral.ofLowerHex ((Numeral.fixedHex width c.val ++ rest).take width) = c.val := by
    rw [List.take_left' hlen, Numeral.ofLowerHex_fixedHex h]
  simp only [readNumber, hvalue, c.isLt, dif_pos, List.drop_left' hlen]

/-- By number, a code point is written in enough digits, behind a letter that tells how many. -/
theorem exists_byNumber_eq (c : CodePoint) :
    ∃ (letter : CodePoint) (width : Nat),
      byNumber c = CodePoint.ofChar '\\' :: letter :: Numeral.fixedHex width c.val ∧
        c.val < 16 ^ width ∧ ∀ t, readGuarded (letter :: t) = readNumber width t := by
  have hc := c.isLt
  unfold byNumber
  split
  · next h => exact ⟨'x', 2, rfl, h, fun _ => rfl⟩
  split
  · next h => exact ⟨'u', 4, rfl, h, fun _ => rfl⟩
  · -- eight digits are enough for every code point
    exact ⟨'U', 8, rfl, Nat.lt_trans hc (by decide), fun _ => rfl⟩

theorem readOne_quote (quote : CodePoint) (rest : Text) : readOne quote (quote :: rest) = none :=
  if_pos rfl

theorem readOne_backslash (hq : IsQuote quote) (t : Text) :
    readOne quote (CodePoint.ofChar '\\' :: t) = readGuarded t := by
  rcases hq with rfl | rfl <;> rfl

/-- **A code point is read back**, whatever follows it. -/
theorem readOne_escape_append (hq : IsQuote quote) (shown : CodePoint → Bool) (c : CodePoint)
    (rest : Text) : readOne quote (escape shown quote c ++ rest) = some (c, rest) := by
  unfold escape
  -- a quote or a backslash, which are no letters
  split
  · next h =>
    rw [List.cons_append, List.singleton_append, readOne_backslash hq]
    rcases h with rfl | rfl
    · rcases hq with rfl | rfl <;> rfl
    · rfl
  next hguarded =>
  -- line feed, carriage return and tab
  split
  · next h =>
    subst h
    exact readOne_backslash hq _
  split
  · next h =>
    subst h
    exact readOne_backslash hq _
  split
  · next h =>
    subst h
    exact readOne_backslash hq _
  split
  · -- the code point itself
    rw [List.singleton_append, readOne, if_neg fun h => hguarded (.inl h),
      if_neg fun h => hguarded (.inr h)]
  · -- all others by number, which is read in as many digits as are written
    obtain ⟨letter, width, hnumber, hlt, hread⟩ := exists_byNumber_eq c
    rw [hnumber, List.cons_append, List.cons_append, readOne_backslash hq, hread,
      readNumber_fixedHex_append hlt]

/-! ### Contents -/

/-- **A content is read back**, up to its enclosing quote and whatever follows that. -/
theorem flatMap_escape_append_inj (hq : IsQuote quote)
    (h : t.flatMap (escape shown quote) ++ quote :: rest =
      u.flatMap (escape shown quote) ++ quote :: rest') : t = u ∧ rest = rest' := by
  have hread : ∀ c back tail, readOne quote
      ((c :: back).flatMap (escape shown quote) ++ quote :: tail) =
        some (c, back.flatMap (escape shown quote) ++ quote :: tail) := by
    intro c back tail
    rw [List.flatMap_cons, List.append_assoc, readOne_escape_append hq]
  -- both sides are read one code point at a time, until one of the contents ends
  induction t generalizing u with
  | nil =>
    cases u with
    | nil => exact ⟨rfl, (List.cons.inj h).2⟩
    | cons d u =>
      -- the other content goes on where this one has ended
      have hnone : readOne quote (quote :: rest) = none := readOne_quote quote rest
      rw [List.flatMap_nil, List.nil_append] at h
      rw [h, hread] at hnone
      cases hnone
  | cons c t ih =>
    cases u with
    | nil =>
      have hnone : readOne quote (quote :: rest') = none := readOne_quote quote rest'
      rw [List.flatMap_nil, List.nil_append] at h
      rw [← h, hread] at hnone
      cases hnone
    | cons d u =>
      have hsome := congrArg (readOne quote) h
      rw [hread, hread] at hsome
      obtain ⟨rfl, hback⟩ := Prod.mk.inj (Option.some.inj hsome)
      obtain ⟨rfl, hrest⟩ := ih hback
      exact ⟨rfl, hrest⟩

theorem enclose_append (shown : CodePoint → Bool) (quote guarded : CodePoint) (t rest : Text) :
    enclose shown quote guarded t ++ rest =
      quote :: (t.flatMap (escape shown guarded) ++ quote :: rest) := by
  rw [enclose, List.append_assoc, List.cons_append, List.singleton_append]

/-- **What is between quotes is read back.** The first code point is the enclosing quote, which
depends on the whole content. -/
theorem enclose_append_inj
    (h : enclose shown (enclosingQuote t) (enclosingQuote t) t ++ rest =
      enclose shown (enclosingQuote u) (enclosingQuote u) u ++ rest') : t = u ∧ rest = rest' := by
  rw [enclose_append, enclose_append] at h
  obtain ⟨hquote, h⟩ := List.cons.inj h
  -- now the same code points are guarded in both contents
  rw [← hquote] at h
  exact flatMap_escape_append_inj (isQuote_enclosingQuote t) h

/-! ### Literals -/

/-- **The literal of a text ends by itself** and tells the text. -/
theorem ofText_append_inj {printable : CodePoint → Bool}
    (h : ofText printable t ++ rest = ofText printable u ++ rest') : t = u ∧ rest = rest' :=
  enclose_append_inj h

/-- **The literal of a byte string ends by itself** and tells the byte string. -/
theorem ofBytes_append_inj {bs cs : Bytes} (h : ofBytes bs ++ rest = ofBytes cs ++ rest') :
    bs = cs ∧ rest = rest' := by
  obtain ⟨hcontent, hrest⟩ := enclose_append_inj (List.cons.inj h).2
  exact ⟨(List.map_inj_right fun _ _ => CodePoint.ofByte_inj.1).1 hcontent, hrest⟩

end Literal

end NameMangling
