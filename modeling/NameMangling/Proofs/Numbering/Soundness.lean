import NameMangling.Session.Step
import Mathlib.Data.List.Nodup

/-!
# Tables and lifetimes

A table finds the entry of a symbol by an address, and addresses are used again. That it never takes
one symbol for another rests on an invariant of sessions, `State.Sound`:

* `Sound.bound` — names refer to symbols that have been made;
* `Sound.apart` — no two living symbols have the same address;
* `Sound.fits` — every table of a mangler fits the state (`State.Fits`): its entries stand at the
  addresses of the symbols that they refer to, are strong exactly for pinned symbols, and refer to
  living symbols only.

The third clause is what the ends of symbols could break. An end comes about when a name loses its
symbol (`State.withReferences`), and it is then told to all tables. That is enough because a symbol
that lives on without a reference is pinned, and so has none but strong entries.

From the invariant follows what a table does in terms of symbols instead of addresses:

* `Fits.find?_eq_some_iff` — a symbol has at most one entry;
* `Fits.request_of_find?`, `Fits.request_of_find?_eq_none` — a request for a living symbol returns
  the number of its entry, or else makes one without touching any other.
-/

namespace NameMangling.Session

/-! ### Living symbols -/

namespace State

variable {st : State} {id : SymbolId}

theorem isReferenced_iff :
    st.isReferenced id = true ↔ ∃ name, st.references.get? name = some id := by
  simp [isReferenced, Bindings.any_eq_true_iff]

theorem isAlive_iff :
    st.isAlive id = true ↔ st.isReferenced id = true ∨
      ∃ name m, st.manglers.get? name = some m ∧ m.table.holds id = true := by
  simp [isAlive, Bindings.any_eq_true_iff]

theorem isAlive_of_isReferenced (h : st.isReferenced id = true) : st.isAlive id = true :=
  isAlive_iff.2 (.inl h)

theorem isAlive_of_isStrong {name : String} {m : Mangler} {key : Address} {e : Entry}
    (hm : st.manglers.get? name = some m) (he : m.table.entries.get? key = some e)
    (hs : e.isStrong = true) : st.isAlive e.symbol = true :=
  isAlive_iff.2 (.inr ⟨name, m, hm, IdTable.holds_eq_true_iff.2 ⟨key, e, he, hs, rfl⟩⟩)

/-- A name that can be looked up refers to a symbol that has been made. -/
theorem symbol?_eq_ok_iff {name : String} {c : Cell} :
    st.symbol? name = .ok (id, c) ↔
      st.references.get? name = some id ∧ st.cells[id]? = some c := by
  unfold symbol?
  -- first the reference is looked up, then the cell
  cases hr : st.references.get? name with
  | none => simp
  | some i =>
    simp only [Option.some.injEq]
    refine ⟨?_, ?_⟩
    · intro h
      split at h
      · cases h
      · next d hd =>
        obtain ⟨rfl, rfl⟩ := Prod.mk.inj (Except.ok.inj h)
        exact ⟨rfl, hd⟩
    · rintro ⟨rfl, hc⟩
      simp only [hc]

theorem isReferenced_of_symbol? {name : String} {c : Cell} (h : st.symbol? name = .ok (id, c)) :
    st.isReferenced id = true :=
  isReferenced_iff.2 ⟨name, (symbol?_eq_ok_iff.1 h).1⟩

/-! ### The invariant -/

/-- **The table fits the state.** Every entry stands at the address of its symbol, is strong exactly
if that symbol is pinned, and refers to a symbol that lives for a reference or for the entry. -/
structure Fits (st : State) (t : IdTable) : Prop where
  placed : ∀ {key e}, t.entries.get? key = some e →
    ∃ c, st.cells[e.symbol]? = some c ∧ c.address = key ∧ c.symbol.isPinned = e.isStrong
  kept : ∀ {key e}, t.entries.get? key = some e →
    st.isReferenced e.symbol = true ∨ e.isStrong = true
  alive : ∀ {key e}, t.entries.get? key = some e → st.isAlive e.symbol = true

/-- No two living symbols have the same address. -/
def Apart (st : State) : Prop :=
  ∀ {i j : SymbolId} {c d : Cell}, st.cells[i]? = some c → st.cells[j]? = some d →
    st.isAlive i = true → st.isAlive j = true → c.address = d.address → i = j

/-- **The invariant of a session.** -/
structure Sound (st : State) : Prop where
  bound : ∀ {name id}, st.references.get? name = some id → id < st.cells.length
  apart : st.Apart
  fits : ∀ {name m}, st.manglers.get? name = some m → st.Fits m.table

theorem Sound.initial (a : Allocator) : (State.initial a).Sound where
  bound h := absurd h (by simp [State.initial])
  apart := by
    intro i j c d hc
    exact absurd hc (by simp [State.initial])
  fits h := absurd h (by simp [State.initial])

theorem Sound.isReferenced_lt (hs : st.Sound) (h : st.isReferenced id = true) :
    id < st.cells.length := by
  obtain ⟨name, hn⟩ := isReferenced_iff.1 h
  exact hs.bound hn

theorem Sound.isAlive_lt (hs : st.Sound) (h : st.isAlive id = true) : id < st.cells.length := by
  rcases isAlive_iff.1 h with h | ⟨name, m, hm, h⟩
  · exact hs.isReferenced_lt h
  · obtain ⟨key, e, he, -, rfl⟩ := IdTable.holds_eq_true_iff.1 h
    obtain ⟨c, hc, -⟩ := (hs.fits hm).placed he
    exact (List.getElem?_eq_some_iff.1 hc).1

/-- A pinned symbol is told from its cell. -/
theorem isPinned_of_getElem? {c : Cell} (h : st.cells[id]? = some c) :
    st.isPinned id = c.symbol.isPinned := by
  simp [isPinned, h]

/-! ### What a table that fits does -/

section Fits

variable {t : IdTable} {c : Cell} {s : SymbolId} {n : Nat}

/-- The address of an entry is that of its symbol. -/
theorem Fits.address_eq (hf : st.Fits t) {key : Address} {e : Entry}
    (he : t.entries.get? key = some e) (hc : st.cells[e.symbol]? = some c) : c.address = key := by
  obtain ⟨d, hd, ha, -⟩ := hf.placed he
  rw [hc] at hd
  exact Option.some.inj hd ▸ ha

/-- **One entry for a symbol.** -/
theorem Fits.eq_of_symbol_eq (hf : st.Fits t) {key key' : Address} {e e' : Entry}
    (he : t.entries.get? key = some e) (he' : t.entries.get? key' = some e')
    (h : e.symbol = e'.symbol) : key = key' ∧ e = e' := by
  -- both stand at the address of the one symbol
  obtain ⟨c, hc, rfl, -⟩ := hf.placed he
  rw [h] at hc
  obtain rfl := hf.address_eq he' hc
  exact ⟨rfl, Option.some.inj (he.symm.trans he')⟩

/-- No symbol stands twice in a table. -/
theorem Fits.nodup_symbols (hf : st.Fits t) :
    (t.entries.entries.map fun x => x.2.symbol).Nodup := by
  -- no key stands twice, and one symbol has one key
  refine t.entries.nodup.of_map _ |>.map_on fun x hx y hy h => ?_
  have hx' : t.entries.get? x.1 = some x.2 := Bindings.get?_eq_some_iff.2 hx
  have hy' : t.entries.get? y.1 = some y.2 := Bindings.get?_eq_some_iff.2 hy
  obtain ⟨hk, he⟩ := hf.eq_of_symbol_eq hx' hy' h
  exact Prod.ext hk he

theorem Fits.find?_eq_some_iff (hf : st.Fits t) :
    t.find? s = some n ↔
      ∃ key e, t.entries.get? key = some e ∧ e.symbol = s ∧ e.number = n := by
  refine ⟨?_, ?_⟩
  · intro h
    obtain ⟨⟨key, e⟩, hx, hn⟩ := Option.map_eq_some_iff.1 h
    have hm : t.entries.get? key = some e :=
      Bindings.get?_eq_some_iff.2 (List.mem_of_find?_eq_some hx)
    have hsym : e.symbol = s := by simpa using List.find?_some hx
    exact ⟨key, e, hm, hsym, hn⟩
  · rintro ⟨key, e, he, rfl, rfl⟩
    -- the first entry for the symbol is the only one
    cases hx : t.entries.entries.find? (fun x => x.2.symbol = e.symbol) with
    | none =>
      have h := List.find?_eq_none.1 hx _ (Bindings.get?_eq_some_iff.1 he)
      simp at h
    | some x =>
      have hm : t.entries.get? x.1 = some x.2 :=
        Bindings.get?_eq_some_iff.2 (List.mem_of_find?_eq_some hx)
      have hsym : x.2.symbol = e.symbol := by simpa using List.find?_some hx
      rw [IdTable.find?, hx, Option.map_some, (hf.eq_of_symbol_eq hm he hsym).2]

/-- What stands at the address of a living symbol is its own entry, if it has one. -/
theorem Fits.symbol_eq (hf : st.Fits t) (ha : st.Apart) (hc : st.cells[id]? = some c)
    (hl : st.isAlive id = true) {e : Entry} (he : t.entries.get? c.address = some e) :
    e.symbol = id := by
  obtain ⟨d, hd, hda, -⟩ := hf.placed he
  have hle : st.isAlive e.symbol = true := hf.alive he
  exact ha hd hc hle hl hda

theorem Fits.get?_address (hf : st.Fits t) (ha : st.Apart) (hc : st.cells[id]? = some c)
    (hl : st.isAlive id = true) :
    (t.entries.get? c.address).map Entry.number = t.find? id := by
  cases he : t.entries.get? c.address with
  | some e =>
    have hid : e.symbol = id := hf.symbol_eq ha hc hl he
    exact (hf.find?_eq_some_iff.2 ⟨_, e, he, hid, rfl⟩).symm
  | none =>
    -- an entry for the symbol could stand nowhere else
    cases hn : t.find? id with
    | none => rfl
    | some n =>
      obtain ⟨key, e, he', rfl, -⟩ := hf.find?_eq_some_iff.1 hn
      rw [hf.address_eq he' hc, he'] at he
      cases he

/-- A symbol that has an entry keeps its number. -/
theorem Fits.request_of_find? (hf : st.Fits t) (ha : st.Apart) (hc : st.cells[id]? = some c)
    (hl : st.isAlive id = true) (hn : t.find? id = some n) :
    t.request (c.handle id) = (n, t) := by
  rw [← hf.get?_address ha hc hl] at hn
  obtain ⟨e, he, rfl⟩ := Option.map_eq_some_iff.1 hn
  -- what stands at the address is the entry of this very symbol, so it is not replaced
  have hid := hf.symbol_eq ha hc hl he
  simp only [IdTable.request, Cell.handle, he, hid, if_true]

/-- A symbol without an entry gets the next number, and its address is free. -/
theorem Fits.request_of_find?_eq_none (hf : st.Fits t) (ha : st.Apart)
    (hc : st.cells[id]? = some c) (hl : st.isAlive id = true) (hn : t.find? id = none) :
    t.entries.get? c.address = none ∧
      t.request (c.handle id) = (t.next, t.assign (c.handle id)) := by
  have he : t.entries.get? c.address = none := by
    rw [← hf.get?_address ha hc hl] at hn
    exact Option.map_eq_none_iff.1 hn
  refine ⟨he, ?_⟩
  simp only [IdTable.request, Cell.handle, he]

/-- The number of a symbol, be it the one of its entry or the next one. -/
theorem Fits.request_fst (hf : st.Fits t) (ha : st.Apart) (hc : st.cells[id]? = some c)
    (hl : st.isAlive id = true) : (t.request (c.handle id)).1 = (t.find? id).getD t.next := by
  cases hn : t.find? id with
  | some n => rw [hf.request_of_find? ha hc hl hn, Option.getD_some]
  | none => rw [(hf.request_of_find?_eq_none ha hc hl hn).2, Option.getD_none]

end Fits

end State

end NameMangling.Session
