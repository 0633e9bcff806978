import NameMangling.CommandLine.Options

/-!
# Arguments

Arguments are read from left to right. Each of them is

* a value, if the option before it takes one and was given none;
* the end of the options, if it is `--`: it and everything after it are names;
* a long option, if it begins with `--`, with a value behind the first `=` if there is one;
* a group of letters that each stand for an option, if it begins with `-` and is not `-` itself;
* a name, otherwise.

The first error ends the reading. Whether the options go together is not asked here.
-/

namespace NameMangling.CommandLine

/-- An option that was given, with its value if it has one. -/
structure GivenOption where
  option : ProgramOption
  value? : Option Text
  deriving DecidableEq

/-- **Arguments that have been read**: the options and the names, each in order. -/
structure Arguments where
  options : List GivenOption
  names : List Text
  deriving DecidableEq

namespace Arguments

/-- No arguments. -/
def none : Arguments := ⟨[], []⟩

/-- An option before other arguments. -/
def withOption (o : GivenOption) (a : Arguments) : Arguments := { a with options := o :: a.options }

/-- A name before other arguments. -/
def withName (name : Text) (a : Arguments) : Arguments := { a with names := name :: a.names }

end Arguments

/-- What a long option turns out to be. -/
inductive LongOption where
  /-- An option from the catalogue, with all that it needs. -/
  | complete (o : GivenOption)
  /-- An option whose value is the next argument. -/
  | awaitingValue (o : ProgramOption)
  /-- An option that the catalogue lacks. -/
  | novel (o : GivenOption)
  deriving DecidableEq

namespace LongOption

/-- The sign between the name of a long option and its value. -/
def equalsSign : CodePoint := '='

/-- The name in a long option, up to the first `=`. -/
def name (argument : Text) : Text := argument.takeWhile (· != equalsSign)

/-- The value in a long option, behind the first `=`. -/
def value? (argument : Text) : Option Text := (argument.dropWhile (· != equalsSign)).tail?

/-- **Reading a long option.** -/
def read (cat : Catalogue) (argument : Text) : Except UsageError LongOption :=
  let typed := name argument
  match cat.candidates typed, value? argument with
  | [], v => .ok (.novel ⟨.unknownLong typed v.isSome, v⟩)
  | [o], some v =>
    if o.takesValue then .ok (.complete ⟨o, some v⟩)
    else .error (.unexpectedValue (o.long?.getD typed))
  | [o], none => .ok (if o.takesValue then .awaitingValue o else .complete ⟨o, none⟩)
  | several, _ => .error (.ambiguous typed (several.filterMap ProgramOption.long?))

end LongOption

namespace Arguments

/-- The hyphen, with which options begin. -/
def hyphen : CodePoint := '-'

/-- Two hyphens, the end of the options. -/
def optionsEnd : Text := [hyphen, hyphen]

/-- Reading arguments with a given catalogue; `awaiting` is an option that waits for its value. -/
def readFrom (cat : Catalogue) (awaiting : Option ProgramOption) :
    List Text → Except UsageError Arguments
  | [] =>
    match awaiting with
    | some o => .error (.missingValue (o.long?.getD []))
    | Option.none => .ok none
  | argument :: rest =>
    match awaiting with
    -- A value may be anything, even what looks like an option or like their end.
    | some o => (readFrom cat Option.none rest).map (withOption ⟨o, some argument⟩)
    | Option.none =>
      if argument = optionsEnd then
        .ok ⟨[], argument :: rest⟩
      else if optionsEnd.isPrefixOf argument then
        match LongOption.read cat argument with
        | .error e => .error e
        | .ok (.complete o) => (readFrom cat Option.none rest).map (withOption o)
        | .ok (.awaitingValue o) => readFrom cat (some o) rest
        -- Only here does the catalogue grow.
        | .ok (.novel o) => (readFrom (cat ++ [o.option]) Option.none rest).map (withOption o)
      else
        match argument with
        -- A hyphen by itself is a name, and so is the empty argument.
        | [] | [_] => (readFrom cat Option.none rest).map (withName argument)
        | c :: letters =>
          if c = hyphen then
            (readFrom cat Option.none rest).map fun a =>
              letters.foldr (fun l a => a.withOption ⟨.ofLetter l, Option.none⟩) a
          else (readFrom cat Option.none rest).map (withName argument)

/-- **Reading arguments.** -/
def read (arguments : List Text) : Except UsageError Arguments :=
  readFrom .initial Option.none arguments

end Arguments

end NameMangling.CommandLine
