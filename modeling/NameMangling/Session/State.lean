import NameMangling.Mangler

/-!
# States of a session

A session holds manglers and symbols, both by names. A mangler has one name. A symbol may have any
number of them, its *references*. It lives for as long as it has one, or a table keeps it alive;
when it ends, the tables of all manglers are told.

Every symbol ever made has a place in the list of symbols, and the place is its identity. Places are
never used again. The address at which a symbol lives is used again: an allocator gives a new symbol
any address at which no symbol lives at the time. Nothing is assumed of its choice.
-/

namespace NameMangling.Session

/-- **How addresses are given out**: any choice of a free one, which may also depend on how many
symbols there have been. -/
structure Allocator where
  choose : Nat → List Address → Address
  choose_notMem : ∀ n taken, choose n taken ∉ taken

namespace Allocator

private theorem le_foldr_max {a : Address} {taken : List Address} (h : a ∈ taken) :
    a ≤ taken.foldr max 0 := by
  induction taken with
  | nil => cases h
  | cons b taken ih =>
    rcases List.mem_cons.1 h with rfl | h
    · exact Nat.le_max_left _ _
    · exact Nat.le_trans (ih h) (Nat.le_max_right _ _)

/-- The allocator that always takes the address after the last one that is taken. -/
def next : Allocator where
  choose _ taken := taken.foldr max 0 + 1
  choose_notMem _ _ h := Nat.not_succ_le_self _ (le_foldr_max h)

end Allocator

/-- A symbol that has been made, and the address at which it lives or lived. -/
structure Cell where
  symbol : Symbol
  address : Address
  deriving DecidableEq

/-- What a table gets to know of a symbol. -/
def Cell.handle (c : Cell) (id : SymbolId) : Handle := ⟨id, c.address, c.symbol.isPinned⟩

/-- **The state of a session.** -/
structure State where
  allocator : Allocator
  manglers : Bindings String Mangler
  cells : List Cell
  references : Bindings String SymbolId

namespace State

/-- The state in which a session starts. -/
def initial (a : Allocator) : State := ⟨a, .empty, [], .empty⟩

/-- Is there a reference to a symbol? -/
def isReferenced (st : State) (id : SymbolId) : Bool := st.references.any (· == id)

/-- Is a symbol pinned? -/
def isPinned (st : State) (id : SymbolId) : Bool := st.cells[id]?.any (·.symbol.isPinned)

/-- **Does a symbol live?** It does if a name refers to it or a table keeps it alive. -/
def isAlive (st : State) (id : SymbolId) : Bool :=
  st.isReferenced id || st.manglers.any (·.table.holds id)

/-- The addresses at which symbols live. -/
def taken (st : State) : List Address :=
  (st.cells.zipIdx.filter fun x => st.isAlive x.2).map (·.1.address)

/-- The symbol that a name refers to: its identity and its cell. -/
def symbol? (st : State) (name : String) : Except Fault (SymbolId × Cell) :=
  match st.references.get? name with
  | none => .error (.unboundSymbol name)
  | some id =>
    match st.cells[id]? with
    | none => .error (.unboundSymbol name)
    | some c => .ok (id, c)

/-- The state after a symbol has lost a reference: if that was the last thing to keep it alive, its
end is told to all tables. -/
def letGo (st : State) (id : SymbolId) : State :=
  if st.isAlive id then st
  else { st with manglers := st.manglers.map fun m => { m with table := m.table.expire id } }

/-- The state with other references, which leave out a symbol that a name refers to. -/
def withReferences (st : State) (name : String) (references : Bindings String SymbolId) : State :=
  let changed := { st with references := references }
  match st.references.get? name with
  | none => changed
  | some id => changed.letGo id

/-- The state after a name has been made to refer to a symbol. -/
def refer (st : State) (name : String) (id : SymbolId) : State :=
  st.withReferences name (st.references.set name id)

/-- The state after a name has stopped to refer to anything. -/
def release (st : State) (name : String) : State :=
  st.withReferences name (st.references.erase name)

/-- The state with a new symbol, to which a name refers. -/
def declare (st : State) (name : String) (s : Symbol) : State :=
  -- The new symbol is the last one, so its place is the length of the list before it. It finds its
  -- address while the symbol that the name referred to is still there.
  let c : Cell := ⟨s, st.allocator.choose st.cells.length st.taken⟩
  { st with cells := st.cells ++ [c] }.refer name st.cells.length

/-- The state after a change to a symbol. -/
def change (st : State) (id : SymbolId) (c : Symbol.Change) : State :=
  { st with cells := st.cells.modify id fun cell => { cell with symbol := cell.symbol.apply c } }

/-- The state with a name for a mangler. -/
def bind (st : State) (name : String) (m : Mangler) : State :=
  { st with manglers := st.manglers.set name m }

end State

end NameMangling.Session
