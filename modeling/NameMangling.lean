import NameMangling.Main
import NameMangling.Session.Step
import NameMangling.Proofs.Numbering.Account
import NameMangling.Proofs.Escaping.Canonical
import NameMangling.Proofs.Mangling.Quoted
import NameMangling.Proofs.Mangling.Unquoted
import NameMangling.Proofs.Numbering.Unnamed
import NameMangling.Proofs.CommandLine.Agreement
import NameMangling.Proofs.Mangling.Unambiguous
import NameMangling.Proofs.Session.Failure
import NameMangling.Proofs.Session.Independence
import NameMangling.Proofs.Text.Lines
import NameMangling.Proofs.CommandLine.Input
import NameMangling.Proofs.CommandLine.OutputLines
import NameMangling.Proofs.Text.Survival
import NameMangling.Proofs.Mangling.KeptBytes
import NameMangling.Proofs.Mangling.Marked
import NameMangling.Proofs.Mangling.Suffix
import NameMangling.Proofs.Mangling.Lookalikes
import NameMangling.Proofs.Mangling.Outcome
import NameMangling.Proofs.Symbols.Descriptions
