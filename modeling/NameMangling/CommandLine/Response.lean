import NameMangling.CommandLine.Request
import NameMangling.Text.Lines
import NameMangling.Text.Utf8

/-!
# Responses

What the program writes, and the status with which it ends. Each name that can be mangled gives one
line of output. A name that cannot be mangled gives a line on the error output and the status 1, and
the names after it are mangled all the same.

Names come from the command line or, if it has none, from the lines of the input.
-/

namespace NameMangling.CommandLine

/-- **A response.** -/
structure Response where
  status : Nat
  stdout : Text
  stderr : Text
  deriving DecidableEq

/-- A text with a line feed behind it. -/
def line (t : Text) : Text := t ++ [Text.newline]

namespace Job

/-- The name that is mangled for a name of the user: marked, if prefixes are not wanted. -/
def given (j : Job) (name : Text) : Text :=
  if j.noPrefix then CodePoint.ofByte Scheme.marker :: name else name

/-- **The mangled form of a name.** -/
def mangle (j : Job) (name : Text) : Except Fault Text :=
  j.scheme.mangle (.text (j.given name)) (.text j.kind.name)

/-- What is said about a name before it is mangled. -/
def remark (j : Job) (name : Text) : Text :=
  if j.verbose then
    line (Text.ofString "Mangling `" ++ name ++ Text.ofString "` (" ++ j.kind.name ++
      Text.ofString (if j.scheme.useQuotes then ", quoted)" else ", unquoted)"))
  else []

/-- What goes to the output for a name. -/
def output (j : Job) (name : Text) : Text :=
  match j.mangle name with
  | .ok mangled => line mangled
  | .error _ => []

/-- What is said about a name that cannot be mangled. -/
def complaint (j : Job) (name : Text) : Text :=
  match j.mangle name with
  | .ok _ => []
  | .error f => line (f.message?.getD [])

/-- Can a name be mangled? -/
def succeeds (j : Job) (name : Text) : Bool := (j.mangle name) matches .ok _

/-- **The response to a job** for given names. -/
def respond (j : Job) (names : List Text) : Response where
  status := if names.all j.succeeds then 0 else 1
  stdout := names.flatMap j.output
  stderr := names.flatMap fun name => j.remark name ++ j.complaint name

/-- The output has the mangled forms of the names that can be mangled, each on its line. -/
theorem stdout_respond (j : Job) (names : List Text) :
    (j.respond names).stdout =
      (names.filterMap fun name => (j.mangle name).toOption).flatMap line := by
  show names.flatMap j.output = _
  induction names with
  | nil => rfl
  | cons name names ih =>
    rw [List.flatMap_cons, List.filterMap_cons, ih, output]
    cases j.mangle name <;> rfl

end Job

/-- The last lines of what is said about errors in the use of the command line. -/
def usage : Text :=
  Text.ofString "Usage:\n    symmangle [options] [--private | --linker-private] [<name>...]"

/-- The version line. -/
def versionLine : Text := Text.ofString "symmangle 1.0"

/-- The help text. -/
def helpText : Text :=
  Text.ofString "Symbol name mangler\n\n" ++ usage ++ Text.ofString "

Names are read from stdin, one per line, when none are given.

Options:
    -h --help                       show this screen
    -v --verbose                    print more output
    --prefix=<s>                    default prefix [default: ]
    --private-prefix=<s>            prefix for private symbols [default: ]
    --linker-private-prefix=<s>     prefix for linker private symbols [default: ]
    --quotes                        quote names instead of escaping them
    --private                       mangle as private symbols
    --linker-private                mangle as linker private symbols
    --no-prefix                     do not prefix the names"

/-- The response to an error in the use of the command line. -/
def UsageError.response (e : UsageError) : Response where
  status := 1
  stdout := []
  stderr := (e.message?.map line).getD [] ++ line usage

/-- Are the names of a request to be read from the input? -/
def Request.readsInput : Request → Bool
  | mangle _ [] => true
  | _ => false

/-- The response to a request, with the bytes of the input. -/
def Request.response (input : Bytes) : Request → Response
  | help => ⟨0, line helpText, []⟩
  | version => ⟨0, line versionLine, []⟩
  -- The input counts only if the command line has no names.
  | mangle job names => job.respond (if names.isEmpty then (Text.ofBytes input).lines else names)

/-- **The response to a command line** with the bytes of its input. -/
def respond (arguments : List Text) (input : Bytes) : Response :=
  match Request.ofArguments arguments with
  | .error e => e.response
  | .ok r => r.response input

end NameMangling.CommandLine
