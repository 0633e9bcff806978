import NameMangling.Value.Bytes

/-!
# Symbols

A symbol is something global that a program defines or uses: a function, a variable, or anything
else. The mangler asks six things of it: its name, whether it has one, whether it is an intrinsic,
whether it is private to the assembler or to the linker, and whether it can be let go of.

**Declared** symbols answer from a name, a linkage and a mark, which makes the symbol an intrinsic
if it counts as given. A function bears the mark of its declaration; if that leaves it open, the
mark says whether the name begins with `llvm.`.

**Foreign** symbols belong to the caller and answer as they please: one may deny the name it has.
Some of them are *pinned*: nobody would notice their end, so whoever holds them keeps them.
-/

namespace NameMangling

/-- What a declared symbol stands for. -/
inductive SymbolRole where
  | function
  | data
  | other
  deriving DecidableEq

namespace SymbolRole

/-- The word that opens the description of a symbol. -/
def word : SymbolRole → Text
  | function => Text.ofString "Function"
  | data => Text.ofString "Variable"
  | other => Text.ofString "GlobalSymbol"

end SymbolRole

namespace Linkage

/-- The linkage of symbols that other units may use. -/
def external : Text := Text.ofString "external"

/-- The linkage of symbols that the assembler keeps to itself. -/
def assemblerPrivate : Text := Text.ofString "private"

/-- The linkage of symbols that the linker keeps to itself. -/
def linkerPrivate : Text := Text.ofString "linker-private"

/-- **The linkages that a symbol can be declared with.** -/
def all : List Text :=
  [external, Text.ofString "internal", assemblerPrivate, linkerPrivate, Text.ofString "weak",
    Text.ofString "common"]

/-- Can a symbol be declared with this linkage? -/
def isKnown (v : Value) : Bool := all.any fun t => v = .text t

end Linkage

/-- **A declared symbol.** Name, linkage and intrinsic mark are kept as they were given: after its
declaration, all three may be set to anything. -/
structure DeclaredSymbol where
  role : SymbolRole
  name : Value
  linkage : Value
  intrinsicMark : Value
  deriving DecidableEq

/-- **A foreign symbol.** -/
structure ForeignSymbol where
  name : Value := .nothing
  isIntrinsic : Bool := false
  isNamed : Bool := false
  isPrivate : Bool := false
  isLinkerPrivate : Bool := false
  isPinned : Bool := false
  deriving DecidableEq

/-- **A symbol.** -/
inductive Symbol where
  | declared (s : DeclaredSymbol)
  | foreign (s : ForeignSymbol)
  deriving DecidableEq

/-! ### Declarations -/

/-- A declaration of a symbol. The intrinsic mark concerns functions only, and nothing leaves it
open. -/
structure Declaration where
  role : SymbolRole
  name : Value := .nothing
  linkage : Value := .text Linkage.external
  intrinsicMark : Value := .nothing

namespace Declaration

/-- The beginning by which the names of intrinsics are known. -/
def intrinsicBeginning : Text := Text.ofString "llvm."

/-- Is a function of this name an intrinsic, as far as the name tells? Only texts can be asked, and
values that do not count as given need not be. -/
def namesIntrinsic : Value → Except Fault Bool
  | .text t => .ok (intrinsicBeginning.isPrefixOf t)
  | v =>
    if v.isGiven then
      match v with
      | .bytes _ | .buffer _ => .error .bytesForText
      | _ => .error .noText
    else .ok false

/-- **The symbol of a declaration.** An unknown linkage is found before anything about the name. -/
def symbol? (d : Declaration) : Except Fault DeclaredSymbol :=
  if Linkage.isKnown d.linkage then do
    let mark ←
      -- Only functions are declared as intrinsics, and only an open declaration looks at the name.
      match d.role, d.intrinsicMark with
      | .function, .nothing => (namesIntrinsic d.name).map Value.flag
      | .function, v => .ok v
      | _, _ => .ok (.flag false)
    .ok { role := d.role, name := d.name, linkage := d.linkage, intrinsicMark := mark }
  else .error (.unknownLinkage d.linkage)

end Declaration

/-! ### What symbols tell -/

namespace DeclaredSymbol

/-- A symbol has a name if the name counts as given. -/
def isNamed (s : DeclaredSymbol) : Bool := s.name.isGiven

/-- A symbol is an intrinsic if its mark counts as given. -/
def isIntrinsic (s : DeclaredSymbol) : Bool := s.intrinsicMark.isGiven

/-- Does the assembler keep the symbol to itself? -/
def isPrivate (s : DeclaredSymbol) : Bool := s.linkage = .text Linkage.assemblerPrivate

/-- Does the linker keep the symbol to itself? -/
def isLinkerPrivate (s : DeclaredSymbol) : Bool := s.linkage = .text Linkage.linkerPrivate

/-- The description of a symbol, for a choice of what counts as printable: its role, the literal of
its name and, as it is, its linkage. There is none if one of them cannot be shown. -/
def descriptionBy? (printable : CodePoint → Bool) (s : DeclaredSymbol) : Option Text := do
  let name ← s.name.literalBy? printable
  let linkage ← s.linkage.display?
  some (s.role.word ++ Text.ofString "(" ++ name ++ Text.ofString ", " ++ linkage ++
    Text.ofString ")")

/-- **The description of a symbol.** -/
def description? (s : DeclaredSymbol) : Option Text := s.descriptionBy? CodePoint.isPrintable

end DeclaredSymbol

namespace Symbol

/-- The name of a symbol, which may be no text at all. -/
def name : Symbol → Value
  | declared s => s.name
  | foreign s => s.name

/-- Intrinsics are known to the back end and never mangled. -/
def isIntrinsic : Symbol → Bool
  | declared s => s.isIntrinsic
  | foreign s => s.isIntrinsic

/-- Does the symbol claim to have a name? -/
def isNamed : Symbol → Bool
  | declared s => s.isNamed
  | foreign s => s.isNamed

/-- Does the symbol claim that the assembler keeps it to itself? -/
def isPrivate : Symbol → Bool
  | declared s => s.isPrivate
  | foreign s => s.isPrivate

/-- Does the symbol claim that the linker keeps it to itself? -/
def isLinkerPrivate : Symbol → Bool
  | declared s => s.isLinkerPrivate
  | foreign s => s.isLinkerPrivate

/-- Pinned symbols cannot be let go of. -/
def isPinned : Symbol → Bool
  | declared _ => false
  | foreign s => s.isPinned

/-- A change to a symbol. Nothing checks it. -/
inductive Change where
  | name (v : Value)
  | linkage (v : Value)
  | intrinsicMark (v : Value)

/-- A symbol after a change. Foreign symbols have no linkage that could change, and of a mark they
only know whether it counts as given. -/
def apply : Symbol → Change → Symbol
  | declared s, .name v => declared { s with name := v }
  | declared s, .linkage v => declared { s with linkage := v }
  | declared s, .intrinsicMark v => declared { s with intrinsicMark := v }
  | foreign s, .name v => foreign { s with name := v }
  | s@(foreign _), .linkage _ => s
  | foreign s, .intrinsicMark v => foreign { s with isIntrinsic := v.isGiven }

/-- All that a declared symbol tells about itself. -/
structure Facts where
  description : Text
  name : Value
  linkage : Value
  intrinsicMark : Value
  isNamed : Bool
  isPrivate : Bool
  isLinkerPrivate : Bool
  deriving DecidableEq

/-- The facts about a declared symbol with a given description. -/
def Facts.ofDeclared (s : DeclaredSymbol) (description : Text) : Facts where
  description := description
  name := s.name
  linkage := s.linkage
  intrinsicMark := s.intrinsicMark
  isNamed := s.isNamed
  isPrivate := s.isPrivate
  isLinkerPrivate := s.isLinkerPrivate

/-- The facts about a symbol. Only declared symbols have any, and only if they can be described. -/
def facts? : Symbol → Except Fault Facts
  | declared s =>
    match s.description? with
    | some description => .ok (Facts.ofDeclared s description)
    | none => .error .tooManyDigits
  | foreign _ => .error .noFacts

end Symbol

end NameMangling
