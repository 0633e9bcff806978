import NameMangling.IdTable
import NameMangling.Scheme
import NameMangling.Symbol

/-!
# Manglers

A mangler is a scheme together with the numbers that it has given to unnamed symbols. It mangles
symbols: their names with a suffix, or a made-up name if they have none.

What happens to a symbol is decided in this order. An intrinsic keeps its name, whatever that is. A
symbol that claims a name has the suffix joined to it and the result mangled. Any other symbol is
given its number, *before* its name is made up and mangled. So the number is given even if the
suffix turns out to be a number with too many digits, which cannot be shown in a name.
-/

namespace NameMangling

/-- **A mangler.** -/
structure Mangler where
  scheme : Scheme
  table : IdTable

namespace Mangler

/-- A mangler that has not given out any numbers. -/
def ofScheme (s : Scheme) : Mangler := ⟨s, .empty⟩

/-- **The stem** of a made-up name: all of it but the suffix. The limit on digits is no matter here,
since the numbers of symbols only count requests. -/
def stem (n : Nat) : Text := Text.ofString "__unnamed_" ++ Numeral.decimal n

/-- **The made-up name** for the symbol with a given number. A suffix of any sort will do, as long as
it can be shown. -/
def unnamed (n : Nat) (suffix : Value) : Except Fault Text := do
  let shown ← suffix.shown
  .ok (stem n ++ shown)

@[simp] theorem unnamed_text (n : Nat) (suffix : Text) :
    unnamed n (.text suffix) = .ok (stem n ++ suffix) := rfl

end Mangler

/-- The prefix kind of a symbol, which callers may force to be private. -/
def Symbol.kind (s : Symbol) (forcePrivate : Bool) : PrefixKind :=
  if s.isPrivate || forcePrivate then .assemblerPrivate
  else if s.isLinkerPrivate then .linkerPrivate
  else .default

namespace Mangler

/-- **The mangled form of a symbol** that lives at an address, and the mangler afterwards. A symbol
by itself may as well live at the address with its own number. -/
def mangleSymbol (m : Mangler) (id : SymbolId) (s : Symbol) (suffix : Value)
    (forcePrivate : Bool) (address : Address := id) : Except Fault Value × Mangler :=
  let mangle name := (m.scheme.mangle name (.text (s.kind forcePrivate).name)).map Value.text
  if s.isIntrinsic then (.ok s.name, m)
  else if s.isNamed then (s.name.append suffix >>= mangle, m)
  else
    -- The number is given out before anything can fail.
    let (n, table) := m.table.request ⟨id, address, s.isPinned⟩
    (unnamed n suffix >>= fun name => mangle (.text name), { m with table := table })

/-- Only a symbol that needs a made-up name is given a number. -/
theorem mangleSymbol_snd (m : Mangler) (id : SymbolId) (s : Symbol) (suffix : Value)
    (forcePrivate : Bool) (address : Address) :
    (m.mangleSymbol id s suffix forcePrivate address).2 =
      if s.isIntrinsic || s.isNamed then m
      else { m with table := (m.table.request ⟨id, address, s.isPinned⟩).2 } := by
  unfold mangleSymbol
  cases s.isIntrinsic <;> cases s.isNamed <;> rfl

/-- The mangled form of a symbol that needs a made-up name is made from its number. -/
theorem mangleSymbol_fst (m : Mangler) (id : SymbolId) {s : Symbol} (suffix : Value)
    (forcePrivate : Bool) (address : Address) (hi : s.isIntrinsic = false)
    (hn : s.isNamed = false) :
    (m.mangleSymbol id s suffix forcePrivate address).1 =
      unnamed (m.table.request ⟨id, address, s.isPinned⟩).1 suffix >>= fun name =>
        (m.scheme.mangle (.text name) (.text (s.kind forcePrivate).name)).map Value.text := by
  unfold mangleSymbol
  rw [hi, hn]
  rfl

/-- A change to a mangler's scheme. Nothing checks it. -/
inductive Change where
  | defaultPrefix (v : Value)
  | privatePrefix (v : Value)
  | linkerPrivatePrefix (v : Value)
  | useQuotes (b : Bool)

/-- A mangler after a change to its scheme. -/
def apply (m : Mangler) : Change → Mangler
  | .defaultPrefix v => { m with scheme := { m.scheme with defaultPrefix := v } }
  | .privatePrefix v => { m with scheme := { m.scheme with privatePrefix := v } }
  | .linkerPrivatePrefix v => { m with scheme := { m.scheme with linkerPrivatePrefix := v } }
  | .useQuotes b => { m with scheme := { m.scheme with useQuotes := b } }

end Mangler

end NameMangling
