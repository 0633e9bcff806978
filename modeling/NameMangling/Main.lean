import NameMangling.CommandLine.Response

/-!
# The program

Reads the arguments and, if the names are to come from there, the input; writes what the response
says, and ends with its status.
-/

namespace NameMangling.CommandLine

/-- All bytes of the input. -/
def readInput : IO Bytes := do
  let input ← IO.getStdin
  return (← input.readBinToEnd).toList

/-- Writes the bytes of a text. -/
def write (out : IO.FS.Stream) (t : Text) : IO Unit := do
  out.write (ByteArray.mk t.toBytes.toArray)
  out.flush

/-- Runs the program. -/
def run (arguments : List String) : IO UInt32 := do
  let response ←
    match Request.ofArguments (arguments.map Text.ofString) with
    | .error e => pure e.response
    | .ok r => r.response <$> if r.readsInput then readInput else pure []
  write (← IO.getStdout) response.stdout
  write (← IO.getStderr) response.stderr
  return UInt32.ofNat response.status

end NameMangling.CommandLine

/-- The program. -/
def main (arguments : List String) : IO UInt32 := NameMangling.CommandLine.run arguments
