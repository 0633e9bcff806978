import NameMangling.Text.Basic

/-!
# Options of the command line

The options that the program knows, and how an option is found by what is typed. A long name may be
cut short, as long as no other long name begins the same way; a name that is typed in full always
means its own option.

An option that is not known is not an error at once. It joins the catalogue, with a value or without
as it was typed, and so takes part in looking up what is typed after it.
-/

namespace NameMangling.CommandLine

/-- **The options that the program knows.** -/
inductive KnownOption where
  | help
  | verbose
  | defaultPrefix
  | privatePrefix
  | linkerPrivatePrefix
  | quotes
  | assemblerPrivate
  | linkerPrivate
  | noPrefix
  deriving DecidableEq

namespace KnownOption

/-- The known options in the order in which the program lists them. -/
def all : List KnownOption :=
  [help, verbose, defaultPrefix, privatePrefix, linkerPrivatePrefix, quotes, assemblerPrivate,
    linkerPrivate, noPrefix]

/-- The long name of an option. -/
def long : KnownOption → Text
  | help => Text.ofString "--help"
  | verbose => Text.ofString "--verbose"
  | defaultPrefix => Text.ofString "--prefix"
  | privatePrefix => Text.ofString "--private-prefix"
  | linkerPrivatePrefix => Text.ofString "--linker-private-prefix"
  | quotes => Text.ofString "--quotes"
  | assemblerPrivate => Text.ofString "--private"
  | linkerPrivate => Text.ofString "--linker-private"
  | noPrefix => Text.ofString "--no-prefix"

/-- The options that take a value are those that give a prefix. -/
def takesValue : KnownOption → Bool
  | defaultPrefix | privatePrefix | linkerPrivatePrefix => true
  | _ => false

end KnownOption

/-- **An option**, known or not. -/
inductive ProgramOption where
  | known (o : KnownOption)
  | unknownLong (name : Text) (takesValue : Bool)
  | unknownShort (c : CodePoint)
  deriving DecidableEq

namespace ProgramOption

/-- The long name of an option that has one. -/
def long? : ProgramOption → Option Text
  | known o => some o.long
  | unknownLong name _ => some name
  | unknownShort _ => none

/-- Does an option take a value? -/
def takesValue : ProgramOption → Bool
  | known o => o.takesValue
  | unknownLong _ takesValue => takesValue
  | unknownShort _ => false

/-- The option that a single letter stands for. -/
def ofLetter (c : CodePoint) : ProgramOption :=
  if c = 'h' then known .help else if c = 'v' then known .verbose else unknownShort c

end ProgramOption

/-- The options that have been heard of, in order. -/
abbrev Catalogue := List ProgramOption

namespace Catalogue

/-- The catalogue of the known options. -/
def initial : Catalogue := KnownOption.all.map .known

/-- **The options that a typed long name may mean**: the one of just that name, or else all those
whose names begin with it. -/
def candidates (cat : Catalogue) (typed : Text) : List ProgramOption :=
  -- What is typed in full is not ambiguous, even if a longer name begins with it.
  let exact := cat.filter fun o => o.long? = some typed
  if exact.isEmpty then cat.filter fun o => o.long?.any typed.isPrefixOf else exact

end Catalogue

/-- **Errors in the use of the command line.** -/
inductive UsageError where
  /-- A long name may mean several options. -/
  | ambiguous (typed : Text) (names : List Text)
  /-- An option that takes no value was given one. -/
  | unexpectedValue (name : Text)
  /-- The arguments end where a value should follow. -/
  | missingValue (name : Text)
  /-- The options do not go together. -/
  | mismatch
  deriving DecidableEq

namespace UsageError

/-- The text of an error. That options do not go together is left for the user to see. -/
def message? : UsageError → Option Text
  | ambiguous typed names =>
    some (typed ++ Text.ofString " is not a unique prefix: " ++
      (Text.ofString ", ").intercalate names ++ Text.ofString "?")
  | unexpectedValue name => some (name ++ Text.ofString " must not have an argument")
  | missingValue name => some (name ++ Text.ofString " requires argument")
  | mismatch => none

end UsageError

end NameMangling.CommandLine
