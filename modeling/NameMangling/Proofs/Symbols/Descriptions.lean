import NameMangling.Proofs.Text.Literals
import NameMangling.Symbol

/-!
# Descriptions tell symbols apart

The description of a symbol is its role, a name between quotes and a linkage that is not, with
brackets and a comma in between. A name may hold all of these, and quotes as well. It is still never
misread, since the description can be read from the left, and each part of it says where it ends:

* the roles begin with different letters (`SymbolRole.word_append_inj`);
* the literal of a name says by its first code point whether it stands for a text, for a byte string
  or for nothing, and then ends by itself (`Value.literalBy?_append_inj`);
* what is left is the linkage, which is written as it is.

So two declared symbols with the same description have role, linkage and name in common
(`DeclaredSymbol.descriptions_tell_apart`). It says nothing about the intrinsic mark, which is not
described. And there always is a description: only numbers can be impossible to show, and no symbol
is declared with one for a linkage.
-/

namespace NameMangling

variable {rest rest' : Text}

/-! ### Roles -/

theorem SymbolRole.head?_word_append (r : SymbolRole) (rest : Text) :
    (r.word ++ rest).head? = r.word.head? := by
  cases r <;> rfl

/-- **A role is told by its first letter.** -/
theorem SymbolRole.word_append_inj {r r' : SymbolRole} (h : r.word ++ rest = r'.word ++ rest') :
    r = r' ∧ rest = rest' := by
  have hhead : r.word.head? = r'.word.head? := by
    rw [← head?_word_append r rest, h, head?_word_append]
  have hrole : r = r' := by
    revert hhead
    cases r <;> cases r' <;> decide
  -- with one role on both sides, the word can be cut off
  subst hrole
  exact ⟨rfl, List.append_cancel_left h⟩

/-! ### Names -/

/-- **A name that a symbol is declared with**: a text, a byte string, or none at all. -/
inductive Value.IsDeclaredName : Value → Prop where
  | text (t : Text) : IsDeclaredName (.text t)
  | bytes (bs : Bytes) : IsDeclaredName (.bytes bs)
  | nothing : IsDeclaredName .nothing

namespace Value

variable {printable : CodePoint → Bool} {v w : Value} {l l' : Text}

/-- A name that a symbol is declared with is no number, so it has a literal. -/
theorem IsDeclaredName.exists_literalBy? (hv : v.IsDeclaredName) (printable : CodePoint → Bool) :
    ∃ t, v.literalBy? printable = some t := by
  cases hv <;> exact ⟨_, rfl⟩

/-- **The literal of a name ends by itself** and tells the name, its sort included. -/
theorem literalBy?_append_inj (hv : v.IsDeclaredName) (hw : w.IsDeclaredName)
    (hl : v.literalBy? printable = some l) (hl' : w.literalBy? printable = some l')
    (h : l ++ rest = l' ++ rest') : v = w ∧ rest = rest' := by
  -- names of one sort are told apart by their literals, and the sorts by the first code point
  have hb : ¬ Literal.IsQuote 'b' := by decide
  have hN : ¬ Literal.IsQuote 'N' := by decide
  have hbN : CodePoint.ofChar 'b' ≠ CodePoint.ofChar 'N' := by decide
  have hhead := congrArg List.head? h
  cases hv <;> cases hw <;> obtain rfl := Option.some.inj hl <;>
    obtain rfl := Option.some.inj hl'
  case text.text t u =>
    obtain ⟨rfl, hrest⟩ := Literal.ofText_append_inj h
    exact ⟨rfl, hrest⟩
  case text.bytes t cs =>
    have hquote := Literal.isQuote_enclosingQuote t
    exact absurd (Option.some.inj hhead ▸ hquote) hb
  case text.nothing t =>
    have hquote := Literal.isQuote_enclosingQuote t
    exact absurd (Option.some.inj hhead ▸ hquote) hN
  case bytes.text bs u =>
    have hquote := Literal.isQuote_enclosingQuote u
    exact absurd (Option.some.inj hhead.symm ▸ hquote) hb
  case bytes.bytes bs cs =>
    obtain ⟨rfl, hrest⟩ := Literal.ofBytes_append_inj h
    exact ⟨rfl, hrest⟩
  case bytes.nothing bs => exact absurd (Option.some.inj hhead) hbN
  case nothing.text u =>
    have hquote := Literal.isQuote_enclosingQuote u
    exact absurd (Option.some.inj hhead.symm ▸ hquote) hN
  case nothing.bytes cs => exact absurd (Option.some.inj hhead.symm) hbN
  case nothing.nothing => exact ⟨rfl, List.append_cancel_left h⟩

end Value

/-! ### Declared symbols -/

/-- **What a declaration makes of its parts.** The linkage is one of the known ones, and so a text;
role, name and linkage are kept. -/
theorem Declaration.eq_of_symbol? {d : Declaration} {s : DeclaredSymbol} (h : d.symbol? = .ok s) :
    s.role = d.role ∧ s.name = d.name ∧ s.linkage = d.linkage ∧
      ∃ t ∈ Linkage.all, s.linkage = .text t := by
  unfold symbol? at h
  split at h
  · next hknown =>
    obtain ⟨t, ht, hlinkage⟩ := List.any_eq_true.1 hknown
    have hkept : s.role = d.role ∧ s.name = d.name ∧ s.linkage = d.linkage := by
      -- whatever becomes of the mark, nothing else is touched
      dsimp only at h
      split at h <;>
      · obtain ⟨mark, -, h⟩ := Fault.bind_eq_ok_iff.1 h
        obtain rfl := Except.ok.inj h
        exact ⟨rfl, rfl, rfl⟩
    obtain ⟨hrole, hname, hkeep⟩ := hkept
    exact ⟨hrole, hname, hkeep, t, ht, hkeep.trans (of_decide_eq_true hlinkage)⟩
  · cases h

/-- The description of a symbol whose name has a literal and whose linkage is a text. -/
theorem DeclaredSymbol.descriptionBy?_eq_some {printable : CodePoint → Bool} {s : DeclaredSymbol}
    {l t : Text} (hl : s.name.literalBy? printable = some l) (ht : s.linkage = .text t) :
    s.descriptionBy? printable =
      some (s.role.word ++ Text.ofString "(" ++ l ++ Text.ofString ", " ++ t ++
        Text.ofString ")") := by
  rw [descriptionBy?, hl, ht]
  rfl

/-- **Descriptions tell symbols apart.** Take two symbols that are declared with texts, byte strings
or nothing for names. Both have a description, for any choice of what counts as printable, and if it
is the same one, then they have the same role, the same linkage and the same name. -/
theorem DeclaredSymbol.descriptions_tell_apart (printable : CodePoint → Bool)
    {d d' : Declaration} {s s' : DeclaredSymbol} (hs : d.symbol? = .ok s)
    (hs' : d'.symbol? = .ok s') (hname : d.name.IsDeclaredName)
    (hname' : d'.name.IsDeclaredName) :
    ∃ t t', s.descriptionBy? printable = some t ∧ s'.descriptionBy? printable = some t' ∧
      (t = t' → s.role = s'.role ∧ s.linkage = s'.linkage ∧ s.name = s'.name) := by
  obtain ⟨-, hn, -, t, -, hlinkage⟩ := Declaration.eq_of_symbol? hs
  obtain ⟨-, hn', -, t', -, hlinkage'⟩ := Declaration.eq_of_symbol? hs'
  -- the names and linkages are those that were declared
  rw [← hn] at hname
  rw [← hn'] at hname'
  obtain ⟨l, hl⟩ := hname.exists_literalBy? printable
  obtain ⟨l', hl'⟩ := hname'.exists_literalBy? printable
  refine ⟨_, _, descriptionBy?_eq_some hl hlinkage, descriptionBy?_eq_some hl' hlinkage', ?_⟩
  intro h
  -- the two descriptions are read from the left, part by part
  simp only [List.append_assoc] at h
  obtain ⟨hrole, h⟩ := SymbolRole.word_append_inj h
  have h := List.append_cancel_left h
  obtain ⟨hnames, h⟩ := Value.literalBy?_append_inj hname hname' hl hl' h
  -- what is left ends with the same bracket
  have ht : t = t' := List.append_cancel_right (List.append_cancel_left h)
  exact ⟨hrole, by rw [hlinkage, hlinkage', ht], hnames⟩

/-- A name that looks like the end of a description, and two functions of this name. One of them is
declared as an intrinsic and the other is none, which the description does not tell. -/
theorem DeclaredSymbol.descriptions_tell_apart_bracket :
    let name := Value.text (Text.ofString "', weak)\"")
    let d : Declaration := ⟨.function, name, .text Linkage.linkerPrivate, .flag true⟩
    let d' : Declaration := ⟨.function, name, .text Linkage.linkerPrivate, .nothing⟩
    let s : DeclaredSymbol := ⟨.function, name, .text Linkage.linkerPrivate, .flag true⟩
    let s' : DeclaredSymbol := ⟨.function, name, .text Linkage.linkerPrivate, .flag false⟩
    (d.symbol? = .ok s ∧ d'.symbol? = .ok s' ∧ name.IsDeclaredName ∧
      s.description? = some (Text.ofString "Function('\\', weak)\"', linker-private)") ∧
      s'.description? = s.description? ∧ s.intrinsicMark ≠ s'.intrinsicMark) ∧
    s.role = s'.role ∧ s.linkage = s'.linkage ∧ s.name = s'.name := by
  intro name d d' s s'
  have hs : d.symbol? = .ok s := rfl
  have hs' : d'.symbol? = .ok s' := rfl
  have hname : name.IsDeclaredName := .text _
  have hdescription : s.description? =
      some (Text.ofString "Function('\\', weak)\"', linker-private)") := by
    decide +kernel
  have hsame : s'.description? = s.description? := rfl
  obtain ⟨t, t', ht, ht', hapart⟩ :=
    descriptions_tell_apart CodePoint.isPrintable hs hs' hname hname
  have heq : t = t' := Option.some.inj (ht.symm.trans (hsame.symm.trans ht'))
  exact ⟨⟨hs, hs', hname, hdescription, hsame, by decide⟩, hapart heq⟩

end NameMangling
