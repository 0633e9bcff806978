import NameMangling.Bindings

/-!
# Numbers for unnamed symbols

A mangler numbers the symbols that have no name, so that it can make names for them. The numbers run
from 1 in the order in which they are asked for; a symbol keeps its number for as long as its entry
is there, and a number that has been given out is never given out again, whatever becomes of the
entry.

A table finds the entry of a symbol by the symbol's *address*. Symbols that live at the same time
have different addresses, but when a symbol is gone another one may get its address. So an entry
says which symbol it refers to, and an entry that refers to another symbol counts for nothing.

An entry does not keep its symbol alive. When the symbol ends, all entries that refer to it are told
to be forgotten (`IdTable.expire`). A *pinned* symbol could not tell them, so its entries are
*strong*: they do keep it alive, and stay.

* `IdTable.get?_assign`, `IdTable.get?_forget`, `IdTable.get?_expire` — what stands at an address
  after a number has been assigned, an entry forgotten, or a symbol has ended.
-/

namespace NameMangling

/-- The identity of a symbol. Every symbol ever made has its own. -/
abbrev SymbolId := Nat

/-- A place where a symbol can live. -/
abbrev Address := Nat

/-- **A handle**: what a table gets to know of a symbol that lives. -/
structure Handle where
  id : SymbolId
  address : Address
  isPinned : Bool
  deriving DecidableEq

/-- **An entry**: the symbol that it refers to, whether it keeps that symbol alive, and its number.
A table has no two entries with one number, so an entry is known by it. -/
structure Entry where
  symbol : SymbolId
  isStrong : Bool
  number : Nat
  deriving DecidableEq

namespace Entry

/-- An entry for a symbol that is of no table's making. -/
def foreign (s : SymbolId) : Entry := ⟨s, false, 0⟩

/-- Does an entry refer to a symbol without keeping it alive? -/
def isWeakTo (e : Entry) (s : SymbolId) : Bool := e.symbol = s && !e.isStrong

end Entry

/-- **A table of numbers**: the entries by their addresses, and the number for the next entry. -/
structure IdTable where
  entries : Bindings Address Entry
  next : Nat
  next_pos : 0 < next
  bounded : ∀ {key e}, entries.get? key = some e → 0 < e.number ∧ e.number < next
  deriving DecidableEq

namespace IdTable

/-- The table before any number is given out. -/
def empty : IdTable where
  entries := .empty
  next := 1
  next_pos := Nat.one_pos
  bounded h := absurd h (by simp)

/-- The table after the next number has been assigned to a symbol. -/
def assign (t : IdTable) (h : Handle) : IdTable where
  entries := t.entries.set h.address ⟨h.id, h.isPinned, t.next⟩
  next := t.next + 1
  next_pos := Nat.succ_pos _
  bounded {key e} he := by
    rw [Bindings.get?_set] at he
    split at he
    · obtain rfl := Option.some.inj he
      exact ⟨t.next_pos, Nat.lt_succ_self _⟩
    · exact ⟨(t.bounded he).1, Nat.lt_succ_of_lt (t.bounded he).2⟩

/-- **The number of a symbol**, a new one if it has no entry, and the table afterwards. -/
def request (t : IdTable) (h : Handle) : Nat × IdTable :=
  match t.entries.get? h.address with
  -- Whoever asks holds on to the symbol, so an entry that refers to it does not refer to a dead
  -- one.
  | some e => if e.symbol = h.id then (e.number, t) else (t.next, t.assign h)
  | none => (t.next, t.assign h)

/-- **The table without an entry**, if that is the one at the address. -/
def forget (t : IdTable) (key : Address) (e : Entry) : IdTable :=
  if t.entries.get? key = some e then
    { t with
      entries := t.entries.erase key
      bounded := fun {k e} he => by
        rw [Bindings.get?_erase] at he
        split at he
        · cases he
        · exact t.bounded he }
  else t

/-- **The table after the end of a symbol**: every entry that refers to it without keeping it alive
has been told to be forgotten. -/
def expire (t : IdTable) (s : SymbolId) : IdTable :=
  (t.entries.entries.filter fun x => x.2.isWeakTo s).foldl (fun t x => t.forget x.1 x.2) t

/-- Does the table keep a symbol alive? -/
def holds (t : IdTable) (s : SymbolId) : Bool := t.entries.any fun e => e.isStrong && e.symbol = s

/-- The number of a symbol that has an entry, wherever that stands. -/
def find? (t : IdTable) (s : SymbolId) : Option Nat :=
  (t.entries.entries.find? fun x => x.2.symbol = s).map fun x => x.2.number

/-- **The numbers in the table**, in ascending order. -/
def ids (t : IdTable) : List Nat := (t.entries.entries.map fun x => x.2.number).mergeSort

/-! ### Looking up -/

@[simp] theorem get?_assign (t : IdTable) (h : Handle) (key : Address) :
    (t.assign h).entries.get? key =
      if key = h.address then some ⟨h.id, h.isPinned, t.next⟩ else t.entries.get? key :=
  Bindings.get?_set ..

@[simp] theorem next_assign (t : IdTable) (h : Handle) : (t.assign h).next = t.next + 1 := rfl

/-- Forgetting an entry takes it away from its address, and does nothing if it is not there. -/
theorem get?_forget (t : IdTable) (key other : Address) (e : Entry) :
    (t.forget key e).entries.get? other =
      if other = key ∧ t.entries.get? key = some e then none else t.entries.get? other := by
  unfold forget
  split
  · next he => simp [he]
  · next he => simp [he]

@[simp] theorem next_forget (t : IdTable) (key : Address) (e : Entry) :
    (t.forget key e).next = t.next := by
  unfold forget
  split <;> rfl

private theorem get?_foldl_forget (xs : List (Address × Entry)) (t : IdTable) (key : Address) :
    (xs.foldl (fun t x => t.forget x.1 x.2) t).entries.get? key =
      (t.entries.get? key).filter fun e => (key, e) ∉ xs := by
  induction xs generalizing t with
  | nil => cases he : t.entries.get? key <;> simp [he, Option.filter]
  | cons x xs ih =>
    rw [List.foldl_cons, ih, get?_forget]
    split
    · next h =>
      obtain ⟨rfl, he⟩ := h
      simp [he, Option.filter]
    · next h =>
      -- the first entry is not the one at `key`, so only the others matter
      cases he : t.entries.get? key with
      | none => rfl
      | some e =>
        have hne : (key, e) ≠ x := by
          rintro rfl
          exact h ⟨rfl, he⟩
        simp [Option.filter, hne]

private theorem next_foldl_forget (xs : List (Address × Entry)) (t : IdTable) :
    (xs.foldl (fun t x => t.forget x.1 x.2) t).next = t.next := by
  induction xs generalizing t with
  | nil => rfl
  | cons x xs ih => rw [List.foldl_cons, ih, next_forget]

/-- When a symbol ends, exactly the entries that refer to it and do not keep it alive go. -/
theorem get?_expire (t : IdTable) (s : SymbolId) (key : Address) :
    (t.expire s).entries.get? key = (t.entries.get? key).filter fun e => !e.isWeakTo s := by
  rw [expire, get?_foldl_forget]
  cases he : t.entries.get? key with
  | none => rfl
  | some e =>
    have hm := Bindings.get?_eq_some_iff.1 he
    simp [Option.filter, hm]

@[simp] theorem next_expire (t : IdTable) (s : SymbolId) : (t.expire s).next = t.next :=
  next_foldl_forget _ t

/-- A table keeps a symbol alive exactly if it has a strong entry that refers to it. -/
theorem holds_eq_true_iff {t : IdTable} {s : SymbolId} :
    t.holds s = true ↔ ∃ key e, t.entries.get? key = some e ∧ e.isStrong = true ∧ e.symbol = s := by
  simp [holds, Bindings.any_eq_true_iff]

end IdTable

end NameMangling
