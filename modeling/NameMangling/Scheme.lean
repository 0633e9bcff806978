import NameMangling.Escape
import NameMangling.Quote
import NameMangling.Value.Bytes

/-!
# Mangling schemes

A scheme says how a target wants its names: a prefix for ordinary symbols, further prefixes for
symbols that the assembler or the linker keeps to itself, whether odd names are quoted or escaped,
and which bytes are acceptable.

**Mangling** takes the bytes of a name, puts the prefix for its kind in front, and encodes the rest.
A name that begins with the marker, the byte 1, is already meant for the assembler: the marker is
dropped and no prefix added.

The order in which faults are found is part of the rule: bytes, empty name, prefix, bare marker.
-/

namespace NameMangling

/-- **The prefix kinds.** -/
inductive PrefixKind where
  | default
  | assemblerPrivate
  | linkerPrivate
  deriving DecidableEq

namespace PrefixKind

/-- The name by which a kind is asked for. -/
def name : PrefixKind → Text
  | default => Text.ofString "default"
  | assemblerPrivate => Text.ofString "private"
  | linkerPrivate => Text.ofString "linker-private"

/-- The kind that a value asks for. -/
def ofValue? (v : Value) : Option PrefixKind :=
  [default, assemblerPrivate, linkerPrivate].find? fun k => v = .text k.name

/-- Each kind is found by its name. -/
@[simp] theorem ofValue?_name (k : PrefixKind) : ofValue? (.text k.name) = some k := by
  cases k <;> decide

end PrefixKind

/-- **A mangling scheme.** The prefixes are kept as they were given; one that is no text goes
unnoticed until a name is mangled with it. -/
structure Scheme where
  defaultPrefix : Value
  privatePrefix : Value
  linkerPrivatePrefix : Value
  useQuotes : Bool
  policy : Policy

namespace Scheme

/-- What a scheme is made from. -/
structure Settings where
  defaultPrefix : Value := .text []
  privatePrefix : Value := .text []
  linkerPrivatePrefix : Value := .text []
  useQuotes : Bool := false
  extra : Value := .text []

/-- The scheme with given settings, whose further acceptable characters must be ASCII. -/
def ofSettings? (s : Settings) : Except Fault Scheme :=
  (Policy.ofExtra? s.extra).map fun policy =>
    { defaultPrefix := s.defaultPrefix
      privatePrefix := s.privatePrefix
      linkerPrivatePrefix := s.linkerPrivatePrefix
      useQuotes := s.useQuotes
      policy := policy }

/-- **The full prefix of a kind.** The prefixes for private symbols go in front of the ordinary
one. -/
def fullPrefix (s : Scheme) : PrefixKind → Except Fault Value
  | .default => .ok s.defaultPrefix
  | .assemblerPrivate => s.privatePrefix.append s.defaultPrefix
  | .linkerPrivate => s.linkerPrivatePrefix.append s.defaultPrefix

/-- The full prefix of the kind that a value asks for. -/
def prefixFor (s : Scheme) (kind : Value) : Except Fault Value :=
  match PrefixKind.ofValue? kind with
  | some k => s.fullPrefix k
  | none => .error (.unknownKind kind)

/-- The byte that suppresses the prefix at the beginning of a name. -/
def marker : UInt8 := 1

/-- **The mangled form of a body** behind a prefix. Between quotes the prefix is whatever the value
is shown as; elsewhere it must be a text. -/
def encode (s : Scheme) (front : Value) (body : Bytes) : Except Fault Text :=
  if s.useQuotes then do
    if ← s.policy.needsQuotes body then
      let shown ← front.shown
      .ok (Quote.enclose (shown ++ Quote.body body))
    else front.before (Text.ofBytes body)
  else front.before (s.policy.escape body)

/-- **The mangled name.** -/
def mangle (s : Scheme) (name kind : Value) : Except Fault Text := do
  match ← name.toBytes with
  | [] => .error (.emptyName name)
  | b :: rest =>
    -- An unknown kind is found even if the marker is about to drop the prefix.
    let front ← s.prefixFor kind
    if b = marker then
      if rest = [] then .error (.bareMarker name) else s.encode (.text []) rest
    else s.encode front (b :: rest)

end Scheme

end NameMangling
