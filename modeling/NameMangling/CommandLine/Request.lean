import NameMangling.CommandLine.Arguments
import NameMangling.Scheme

/-!
# Requests

What a user asks for: help, the version, or names to be mangled in a certain way. Help comes before
everything else, and the version before any question whether the options go together.
-/

namespace NameMangling.CommandLine

/-- **A job**: how names are to be mangled, and what is to be said about it. -/
structure Job where
  scheme : Scheme
  kind : PrefixKind
  noPrefix : Bool
  verbose : Bool

/-- **A request.** -/
inductive Request where
  | help
  | version
  | mangle (job : Job) (names : List Text)

namespace Arguments

/-- Was a known option given? -/
def has (a : Arguments) (o : KnownOption) : Bool := a.options.any fun g => g.option = .known o

/-- The value of an option, empty if the option was not given. -/
def valueOf (a : Arguments) (o : KnownOption) : Text :=
  ((a.options.find? fun g => g.option = .known o).bind GivenOption.value?).getD []

/-- The version is no known option. It is asked for by its full name, with any value but an empty
one. -/
def asksVersion (a : Arguments) : Bool :=
  a.options.any fun g =>
    match g.option with
    | .unknownLong name _ => name = Text.ofString "--version" && g.value? != some []
    | _ => false

/-- The options go together if all of them are known, none is given twice, and a symbol is not to be
private in two ways. -/
def isConsistent (a : Arguments) : Bool :=
  (a.options.all fun g => g.option matches .known _) &&
    (KnownOption.all.all fun o => a.options.countP (fun g => g.option = .known o) ≤ 1) &&
    !(a.has .assemblerPrivate && a.has .linkerPrivate)

/-- The job that the options describe. -/
def job (a : Arguments) : Job where
  scheme :=
    { defaultPrefix := .text (a.valueOf .defaultPrefix)
      privatePrefix := .text (a.valueOf .privatePrefix)
      linkerPrivatePrefix := .text (a.valueOf .linkerPrivatePrefix)
      useQuotes := a.has .quotes
      policy := .safe }
  kind :=
    if a.has .assemblerPrivate then .assemblerPrivate
    else if a.has .linkerPrivate then .linkerPrivate
    else .default
  noPrefix := a.has .noPrefix
  verbose := a.has .verbose

/-- The request that the arguments make. -/
def request (a : Arguments) : Except UsageError Request :=
  if a.has .help then .ok .help
  else if a.asksVersion then .ok .version
  else if a.isConsistent then .ok (.mangle a.job a.names)
  else .error .mismatch

end Arguments

/-- **The request of a command line.** -/
def Request.ofArguments (arguments : List Text) : Except UsageError Request := do
  (← Arguments.read arguments).request

end NameMangling.CommandLine
