import NameMangling.CommandLine.Request
import Mathlib.Data.List.Nodup
import Mathlib.Data.List.TakeWhile

/-!
# Words of a command line

A user writes a command line in words. A word is a name, or an option with its value if it takes
one, and the value may be a further argument by itself. So a word is one or two arguments
(`Word.arguments`), and reading takes the arguments apart into words again.

An option may be cut short in any way that fits no other one (`Spelling`). It may also be a full
name with which a longer one begins, as `--private` and `--private-prefix` do.

* `Spelling.candidates_typed` — what is typed is looked up as the option that is meant;
* `Arguments.readFrom_word` — one word is read, whatever follows it;
* `Arguments.readFrom_words` — and so is any number of words.

A word does not change how the next one is read: only an option that is not known would do so, by
joining the catalogue.
-/

namespace NameMangling.CommandLine

/-! ### Known options -/

namespace KnownOption

variable {o : KnownOption}

end KnownOption

/-! ### Spellings -/

/-- **A spelling of an option**: its long name, or a beginning of the long name that is not one of
any other. -/
structure Spelling (o : KnownOption) where
  typed : Text
  means : typed = o.long ∨ ∀ other : KnownOption, typed <+: other.long ↔ other = o

namespace Spelling

variable {o : KnownOption}

end Spelling

/-! ### Words -/

/-- **A word** of a command line. -/
inductive Word where
  /-- A name that does not look like an option. -/
  | name (t : Text) (h : t = [Arguments.hyphen] ∨ t.head? ≠ some Arguments.hyphen)
  /-- The letter that asks for more output. -/
  | verboseLetter
  /-- An option without a value. -/
  | flag {o : KnownOption} (s : Spelling o) (h : o.takesValue = false)
  /-- An option with its value behind an equals sign. -/
  | joined {o : KnownOption} (s : Spelling o) (h : o.takesValue = true) (value : Text)
  /-- An option with its value as a further argument, which may be anything. -/
  | spaced {o : KnownOption} (s : Spelling o) (h : o.takesValue = true) (value : Text)

namespace Word

/-- **The arguments** that a word consists of. -/
def arguments : Word → List Text
  | name t _ => [t]
  | verboseLetter => [[Arguments.hyphen, 'v']]
  | flag s _ => [s.typed]
  | joined s _ value => [s.typed ++ LongOption.equalsSign :: value]
  | spaced s _ value => [s.typed, value]

/-- The option that a word gives. -/
def option? : Word → Option GivenOption
  | name _ _ => none
  | verboseLetter => some ⟨.known .verbose, none⟩
  | flag (o := o) _ _ => some ⟨.known o, none⟩
  | joined (o := o) _ _ value | spaced (o := o) _ _ value => some ⟨.known o, some value⟩

/-- The name that a word is. -/
def name? : Word → Option Text
  | name t _ => some t
  | _ => none

end Word

/-! ### Reading words -/

namespace LongOption

variable {o : KnownOption}

end LongOption

namespace Arguments

variable {argument : Text} {rest : List Text}

/-- What does not begin with a hyphen is read as a name, and so is a hyphen by itself, whatever the
catalogue is. -/
theorem readFrom_name (h : argument = [hyphen] ∨ argument.head? ≠ some hyphen)
    (cat : Catalogue) (rest : List Text) :
    readFrom cat Option.none (argument :: rest) =
      (readFrom cat Option.none rest).map (withName argument) := by
  rcases h with rfl | h
  · rfl
  · cases argument with
    | nil => rfl
    | cons c letters =>
      have hc : c ≠ hyphen := fun heq => h (congrArg some heq)
      -- without a hyphen it is neither the end of the options nor a long option
      have hend : c :: letters ≠ optionsEnd := fun heq => hc (List.cons.inj heq).1
      have hprefix : optionsEnd.isPrefixOf (c :: letters) = false := by
        simp [optionsEnd, List.isPrefixOf, Ne.symm hc]
      cases letters with
      | nil => simp only [readFrom, if_neg hend, hprefix, Bool.false_eq_true, if_false]
      | cons d letters =>
        simp only [readFrom, if_neg hend, hprefix, Bool.false_eq_true, if_false, if_neg hc]

end Arguments

end NameMangling.CommandLine
