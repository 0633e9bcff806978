import NameMangling.Proofs.Numbering.Soundness

/-!
# Lifetimes

The invariant of sessions holds after every step, whichever addresses the allocator gives out
(`State.Sound.step`, `State.Sound.after`).

Most steps leave references and addresses alone. The others are the moves of a symbol step
(`SymbolMove`): a symbol is made, a name is made to refer to a symbol that is there, or a name is
released. They all change the references of one name, and what that does to the tables is said once,
in `State.Sound.get?_withReferences`: an entry stays exactly if it is strong or its symbol still has
a reference. One direction is that the end of a symbol is told to every table. The other is that
nothing ends too early, and needs the invariant.

`SymbolMove.effect` sums up a symbol step as far as tables are concerned.
-/

namespace NameMangling

/-- No change makes a symbol pinned, or stops it from being so. -/
@[simp] theorem Symbol.isPinned_apply (s : Symbol) (c : Symbol.Change) :
    (s.apply c).isPinned = s.isPinned := by
  cases s <;> cases c <;> rfl

namespace Session.State

variable {st : State} {id : SymbolId} {name : String}

/-! ### Tables of manglers -/

theorem Fits.empty : st.Fits .empty where
  placed h := absurd h (by simp [IdTable.empty])
  kept h := absurd h (by simp [IdTable.empty])
  alive h := absurd h (by simp [IdTable.empty])

section Fits

variable {t : IdTable} {c : Cell}

theorem Fits.assign (hf : st.Fits t) (hc : st.cells[id]? = some c)
    (hr : st.isReferenced id = true) : st.Fits (t.assign (c.handle id)) where
  placed {key e} he := by
    rw [IdTable.get?_assign] at he
    split at he
    · next hk =>
      -- the new entry is that of the cell; all others were there before
      obtain rfl := Option.some.inj he
      exact ⟨c, hc, hk.symm, rfl⟩
    · exact hf.placed he
  kept {key e} he := by
    rw [IdTable.get?_assign] at he
    split at he
    · obtain rfl := Option.some.inj he
      exact .inl hr
    · exact hf.kept he
  alive {key e} he := by
    rw [IdTable.get?_assign] at he
    split at he
    · obtain rfl := Option.some.inj he
      exact isAlive_of_isReferenced hr
    · exact hf.alive he

theorem Fits.request (hf : st.Fits t) (ha : st.Apart) (hc : st.cells[id]? = some c)
    (hr : st.isReferenced id = true) : st.Fits (t.request (c.handle id)).2 := by
  have hl := isAlive_of_isReferenced hr
  cases hn : t.find? id with
  -- a symbol with a number finds it, and the table stays
  | some n => rwa [hf.request_of_find? ha hc hl hn]
  | none =>
    rw [(hf.request_of_find?_eq_none ha hc hl hn).2]
    exact hf.assign hc hr

theorem Fits.forget (hf : st.Fits t) (key : Address) (e : Entry) : st.Fits (t.forget key e) := by
  have hsub : ∀ {k d}, (t.forget key e).entries.get? k = some d → t.entries.get? k = some d := by
    intro k d hd
    rw [IdTable.get?_forget] at hd
    split at hd
    · cases hd
    · exact hd
  exact ⟨fun h => hf.placed (hsub h), fun h => hf.kept (hsub h), fun h => hf.alive (hsub h)⟩

/-- A symbol that is assigned a number has that number; the others have theirs. -/
theorem Fits.find?_assign (hf : st.Fits t) (hc : st.cells[id]? = some c)
    (hr : st.isReferenced id = true) (he : t.entries.get? c.address = none) {s : SymbolId}
    {n : Nat} :
    (t.assign (c.handle id)).find? s = some n ↔ (s = id ∧ n = t.next) ∨ t.find? s = some n := by
  rw [(hf.assign hc hr).find?_eq_some_iff, hf.find?_eq_some_iff]
  refine ⟨?_, ?_⟩
  · rintro ⟨key, e, h, rfl, rfl⟩
    rw [IdTable.get?_assign] at h
    split at h
    · obtain rfl := Option.some.inj h
      -- the entry at the address of the cell is the new one
      exact .inl ⟨rfl, rfl⟩
    · exact .inr ⟨key, e, h, rfl, rfl⟩
  · rintro (⟨rfl, rfl⟩ | ⟨key, e, h, rfl, rfl⟩)
    · exact ⟨c.address, ⟨s, c.symbol.isPinned, t.next⟩, by simp [Cell.handle], rfl, rfl⟩
    · refine ⟨key, e, ?_, rfl, rfl⟩
      rw [IdTable.get?_assign, if_neg]
      · exact h
      · -- an old entry is not at the address of the cell, where there was none
        rintro rfl
        exact absurd (he.symm.trans h) (by simp)

/-- A symbol whose entry is forgotten has no number; the others have theirs. -/
theorem Fits.find?_forget (hf : st.Fits t) {key : Address} {e : Entry}
    (he : t.entries.get? key = some e) {s : SymbolId} {n : Nat} :
    (t.forget key e).find? s = some n ↔ s ≠ e.symbol ∧ t.find? s = some n := by
  rw [(hf.forget key e).find?_eq_some_iff, hf.find?_eq_some_iff]
  refine ⟨?_, ?_⟩
  · rintro ⟨k, d, h, rfl, rfl⟩
    rw [IdTable.get?_forget] at h
    split at h
    · cases h
    · next hk =>
      exact ⟨fun hs => hk ⟨(hf.eq_of_symbol_eq h he hs).1, he⟩, k, d, h, rfl, rfl⟩
  · rintro ⟨hs, k, d, h, rfl, rfl⟩
    refine ⟨k, d, ?_, rfl, rfl⟩
    rw [IdTable.get?_forget, if_neg]
    · exact h
    · rintro ⟨rfl, -⟩
      exact hs (congrArg Entry.symbol (Option.some.inj (h.symm.trans he)))

end Fits

/-- A table of a mangler fits if its entries are placed and kept: they keep their symbols alive
themselves, if references do not. -/
theorem Fits.of_get? {m : Mangler} (hm : st.manglers.get? name = some m)
    (hp : ∀ {key e}, m.table.entries.get? key = some e →
      ∃ c, st.cells[e.symbol]? = some c ∧ c.address = key ∧ c.symbol.isPinned = e.isStrong)
    (hk : ∀ {key e}, m.table.entries.get? key = some e →
      st.isReferenced e.symbol = true ∨ e.isStrong = true) : st.Fits m.table where
  placed := hp
  kept := hk
  alive he := (hk he).elim isAlive_of_isReferenced (isAlive_of_isStrong hm he)

theorem get?_bind_self (st : State) (name : String) (m : Mangler) :
    (st.bind name m).manglers.get? name = some m := by
  rw [State.bind, Bindings.get?_set, if_pos rfl]

/-- Nothing happens to a mangler when another name is bound. -/
theorem get?_bind_of_ne (st : State) {other : String} (hne : other ≠ name) (m : Mangler) :
    (st.bind other m).manglers.get? name = st.manglers.get? name := by
  rw [State.bind, Bindings.get?_set, if_neg hne.symm]

theorem Sound.bind (hs : st.Sound) {m : Mangler} (hf : st.Fits m.table) :
    (st.bind name m).Sound := by
  have hget : ∀ {n m'}, (st.bind name m).manglers.get? n = some m' → st.Fits m'.table := by
    intro n m' h
    rw [State.bind, Bindings.get?_set] at h
    split at h
    · exact Option.some.inj h ▸ hf
    · exact hs.fits h
  -- only symbols that lived before can be held by the new table
  have halive : ∀ {i}, (st.bind name m).isAlive i = true → st.isAlive i = true := by
    intro i hi
    rcases isAlive_iff.1 hi with hr | ⟨n, m', hm', hh⟩
    · exact isAlive_of_isReferenced hr
    · obtain ⟨key, e, he, -, rfl⟩ := IdTable.holds_eq_true_iff.1 hh
      exact (hget hm').alive he
  refine ⟨hs.bound, fun hc hd hi hj => hs.apart hc hd (halive hi) (halive hj), ?_⟩
  intro n m' hm'
  exact .of_get? hm' (hget hm').placed (hget hm').kept

theorem Sound.change (hs : st.Sound) (c : Symbol.Change) : (st.change id c).Sound := by
  -- a cell keeps its address, and its symbol stays pinned or not
  have hcell : ∀ {i : SymbolId} {d : Cell}, (st.change id c).cells[i]? = some d →
      ∃ d' : Cell, st.cells[i]? = some d' ∧ d.address = d'.address ∧
        d.symbol.isPinned = d'.symbol.isPinned := by
    intro i d hd
    rw [State.change, List.getElem?_modify] at hd
    obtain ⟨d', hd', rfl⟩ := Option.map_eq_some_iff.1 hd
    refine ⟨d', hd', ?_⟩
    split <;> simp
  have hcell' : ∀ {i : SymbolId} {d' : Cell}, st.cells[i]? = some d' →
      ∃ d : Cell, (st.change id c).cells[i]? = some d ∧ d.address = d'.address ∧
        d.symbol.isPinned = d'.symbol.isPinned := by
    intro i d' hd'
    rw [State.change, List.getElem?_modify, hd']
    refine ⟨_, rfl, ?_⟩
    split <;> simp
  refine ⟨fun hn => ?_, ?_, fun hm => .of_get? hm (fun he => ?_) (hs.fits hm).kept⟩
  · rw [State.change, List.length_modify]
    exact hs.bound hn
  · intro i j d d' hd hd' hi hj h
    obtain ⟨e, he, ha, -⟩ := hcell hd
    obtain ⟨e', he', ha', -⟩ := hcell hd'
    exact hs.apart he he' hi hj (ha.symm.trans (h.trans ha'))
  · obtain ⟨d', hd', rfl, hp⟩ := (hs.fits hm).placed he
    obtain ⟨d, hd, ha, hp'⟩ := hcell' hd'
    exact ⟨d, hd, ha, hp'.trans hp⟩

/-! ### References that change -/

theorem get?_letGo (st : State) (id : SymbolId) (n : String) :
    (st.letGo id).manglers.get? n = (st.manglers.get? n).map fun m =>
      if st.isAlive id then m else { m with table := m.table.expire id } := by
  unfold letGo
  split
  · next h => simp
  · next h => exact Bindings.get?_map ..

@[simp] theorem references_letGo (st : State) (id : SymbolId) :
    (st.letGo id).references = st.references := by
  unfold letGo
  split <;> rfl

@[simp] theorem cells_letGo (st : State) (id : SymbolId) : (st.letGo id).cells = st.cells := by
  unfold letGo
  split <;> rfl

/-- A symbol that a table keeps alive has none but strong entries, in any table. -/
theorem Sound.isStrong_of_holds (hs : st.Sound) {n n' : String} {m m' : Mangler} {key : Address}
    {e : Entry} (hm : st.manglers.get? n = some m) (he : m.table.entries.get? key = some e)
    (hm' : st.manglers.get? n' = some m') (hh : m'.table.holds e.symbol = true) :
    e.isStrong = true := by
  obtain ⟨key', e', he', hstrong, hsym⟩ := IdTable.holds_eq_true_iff.1 hh
  -- both entries are strong exactly if their symbol is pinned
  obtain ⟨c, hc, -, hp⟩ := (hs.fits hm).placed he
  obtain ⟨c', hc', -, hp'⟩ := (hs.fits hm').placed he'
  rw [hsym, hc] at hc'
  obtain rfl := Option.some.inj hc'
  rw [← hp, hp', hstrong]

section WithReferences

variable {refs : Bindings String SymbolId}

@[simp] theorem references_withReferences : (st.withReferences name refs).references = refs := by
  unfold withReferences
  split
  · rfl
  · exact references_letGo ..

@[simp] theorem cells_withReferences : (st.withReferences name refs).cells = st.cells := by
  unfold withReferences
  split
  · rfl
  · exact cells_letGo ..

/-- **What a change of references does to the tables.** Schemes and counters stay, and of the
entries those that are strong or whose symbols still have a reference. Only one name may lose its
symbol. -/
theorem Sound.get?_withReferences (hs : st.Sound)
    (hkeep : ∀ {n i}, st.references.get? n = some i → n ≠ name → refs.get? n = some i)
    {n : String} {m' : Mangler} (hm' : (st.withReferences name refs).manglers.get? n = some m') :
    ∃ m, st.manglers.get? n = some m ∧ m'.scheme = m.scheme ∧ m'.table.next = m.table.next ∧
      ∀ {key e}, m'.table.entries.get? key = some e ↔ m.table.entries.get? key = some e ∧
        ((st.withReferences name refs).isReferenced e.symbol = true ∨ e.isStrong = true) := by
  let changed : State := { st with references := refs }
  have href : ∀ i, (st.withReferences name refs).isReferenced i = changed.isReferenced i := by
    intro i
    simp [isReferenced, changed]
  -- an entry is kept unless the name was the reference that kept it
  have hkept : ∀ {m key e}, st.manglers.get? n = some m → m.table.entries.get? key = some e →
      st.references.get? name ≠ some e.symbol →
      changed.isReferenced e.symbol = true ∨ e.isStrong = true := by
    intro m key e hm he hne
    refine ((hs.fits hm).kept he).imp_left fun hr => ?_
    obtain ⟨k, hk⟩ := isReferenced_iff.1 hr
    exact isReferenced_iff.2 ⟨k, hkeep hk fun h => hne (h ▸ hk)⟩
  simp only [href]
  cases hold : st.references.get? name with
  | none =>
    simp only [withReferences, hold] at hm'
    refine ⟨m', hm', rfl, rfl, fun {key e} => (and_iff_left_of_imp fun he => ?_).symm⟩
    exact hkept hm' he (by simp [hold])
  | some old =>
    simp only [withReferences, hold, get?_letGo] at hm'
    obtain ⟨m, hm, rfl⟩ := Option.map_eq_some_iff.1 hm'
    by_cases hl : changed.isAlive old = true
    · -- the symbol lives on: without a reference it is held, so it is pinned
      rw [if_pos hl]
      refine ⟨m, hm, rfl, rfl, fun {key e} => (and_iff_left_of_imp fun he => ?_).symm⟩
      by_cases ho : e.symbol = old
      · refine (isAlive_iff.1 hl).imp (fun hr => ho ▸ hr) ?_
        rintro ⟨k, m₂, hm₂, hh⟩
        exact hs.isStrong_of_holds hm he hm₂ (ho ▸ hh)
      · exact hkept hm he fun h => ho (Option.some.inj (hold.symm.trans h)).symm
    · -- the symbol ends, and its entries are told
      rw [if_neg hl]
      refine ⟨m, hm, rfl, IdTable.next_expire .., ?_⟩
      intro key e
      rw [IdTable.get?_expire, Option.filter_eq_some_iff]
      refine and_congr_right fun he => ?_
      by_cases ho : e.symbol = old
      · have hr : changed.isReferenced old = false :=
          Bool.eq_false_iff.2 fun h => hl (isAlive_of_isReferenced h)
        simp [Entry.isWeakTo, ho, hr]
      · have hk := hkept hm he fun h => ho (Option.some.inj (hold.symm.trans h)).symm
        simpa [Entry.isWeakTo, ho] using hk

theorem Sound.withReferences (hs : st.Sound)
    (hbound : ∀ {n i}, refs.get? n = some i → i < st.cells.length)
    (hkeep : ∀ {n i}, st.references.get? n = some i → n ≠ name → refs.get? n = some i)
    (hapart : ({ st with references := refs } : State).Apart) :
    (st.withReferences name refs).Sound := by
  -- nothing lives after the end of a symbol that did not live before it
  have halive : ∀ {i}, (st.withReferences name refs).isAlive i = true →
      ({ st with references := refs } : State).isAlive i = true := by
    intro i hi
    refine isAlive_iff.2 ((isAlive_iff.1 hi).imp (fun hr => ?_) ?_)
    · rw [isReferenced, references_withReferences] at hr
      exact hr
    · rintro ⟨n, m', hm', hh⟩
      obtain ⟨key, e, he, hst, rfl⟩ := IdTable.holds_eq_true_iff.1 hh
      obtain ⟨m, hm, -, -, hiff⟩ := hs.get?_withReferences hkeep hm'
      exact ⟨n, m, hm, IdTable.holds_eq_true_iff.2 ⟨key, e, (hiff.1 he).1, hst, rfl⟩⟩
  refine ⟨?_, ?_, ?_⟩
  · intro n i hn
    rw [references_withReferences] at hn
    rw [cells_withReferences]
    exact hbound hn
  · intro i j c d hc hd hi hj
    rw [cells_withReferences] at hc hd
    exact hapart hc hd (halive hi) (halive hj)
  · intro n m' hm'
    obtain ⟨m, hm, -, -, hiff⟩ := hs.get?_withReferences hkeep hm'
    refine .of_get? hm' (fun he => ?_) fun he => (hiff.1 he).2
    rw [cells_withReferences]
    exact (hs.fits hm).placed (hiff.1 he).1

end WithReferences

/-! ### Steps -/

/-- Fewer references do not bring symbols together at one address. -/
theorem Sound.apart_of_le (hs : st.Sound) {refs : Bindings String SymbolId}
    (hle : ∀ {n i}, refs.get? n = some i → st.isAlive i = true) :
    ({ st with references := refs } : State).Apart := by
  have halive : ∀ {i}, ({ st with references := refs } : State).isAlive i = true →
      st.isAlive i = true := by
    intro i hi
    rcases isAlive_iff.1 hi with hr | hh
    · obtain ⟨n, hn⟩ := isReferenced_iff.1 hr
      exact hle hn
    · exact isAlive_iff.2 (.inr hh)
  intro i j c d hc hd hi hj
  exact hs.apart hc hd (halive hi) (halive hj)

theorem Sound.refer (hs : st.Sound) (hr : st.isReferenced id = true) :
    (st.refer name id).Sound := by
  refine hs.withReferences (fun {n i} hn => ?_) (fun hn hne => ?_)
    (hs.apart_of_le fun {n i} hn => ?_)
  · -- the name has the symbol that is shared, the other names keep theirs
    rcases Bindings.eq_or_of_get?_set hn with rfl | hn
    · exact hs.isReferenced_lt hr
    · exact hs.bound hn
  · rw [Bindings.get?_set, if_neg hne, hn]
  · rcases Bindings.eq_or_of_get?_set hn with rfl | hn
    · exact isAlive_of_isReferenced hr
    · exact isAlive_of_isReferenced (isReferenced_iff.2 ⟨n, hn⟩)

theorem Sound.release (hs : st.Sound) : (st.release name).Sound := by
  refine hs.withReferences (fun hn => hs.bound (Bindings.get?_of_get?_erase hn)) (fun hn hne => ?_)
    (hs.apart_of_le fun {n i} hn => ?_)
  · rw [Bindings.get?_erase, if_neg hne, hn]
  · exact isAlive_of_isReferenced (isReferenced_iff.2 ⟨n, Bindings.get?_of_get?_erase hn⟩)

/-- The state with one more cell, to which nothing refers yet. -/
def extend (st : State) (c : Cell) : State := { st with cells := st.cells ++ [c] }

theorem Sound.extend (hs : st.Sound) (c : Cell) : (st.extend c).Sound := by
  -- what lives is none but what was there before
  have hold : ∀ {i d}, st.isAlive i = true → (st.extend c).cells[i]? = some d →
      st.cells[i]? = some d := by
    intro i d hi hd
    rwa [State.extend, List.getElem?_append_left (hs.isAlive_lt hi)] at hd
  refine ⟨fun hn => ?_, fun hc hd hi hj => ?_, fun hm => .of_get? hm (fun he => ?_) ?_⟩
  · exact Nat.lt_of_lt_of_le (hs.bound hn) (by simp [State.extend])
  · exact hs.apart (hold hi hc) (hold hj hd) hi hj
  · obtain ⟨d, hd, h⟩ := (hs.fits hm).placed he
    refine ⟨d, ?_, h⟩
    rw [State.extend, List.getElem?_append_left (List.getElem?_eq_some_iff.1 hd).1, hd]
  · exact (hs.fits hm).kept

theorem address_mem_taken {c : Cell} (hc : st.cells[id]? = some c) (hl : st.isAlive id = true) :
    c.address ∈ st.taken := by
  refine List.mem_map.2 ⟨(c, id), List.mem_filter.2 ⟨?_, hl⟩, rfl⟩
  exact List.mem_zipIdx_iff_getElem?.2 hc

theorem Sound.declare (hs : st.Sound) (s : Symbol) : (st.declare name s).Sound := by
  let c : Cell := ⟨s, st.allocator.choose st.cells.length st.taken⟩
  have hlast : (st.extend c).cells[st.cells.length]? = some c := by simp [State.extend]
  -- first the cell is there without a reference, then the name gets one to it
  refine (hs.extend c).withReferences (fun {n i} hn => ?_) (fun hn hne => ?_) ?_
  · rcases Bindings.eq_or_of_get?_set hn with rfl | hn
    · exact (List.getElem?_eq_some_iff.1 hlast).1
    · exact (hs.extend c).bound hn
  · rw [Bindings.get?_set, if_neg hne]
    exact hn
  · -- the new symbol is the only one that did not live before, and its address was free
    let refs := st.references.set name st.cells.length
    have halive : ∀ {i}, ({ st.extend c with references := refs } : State).isAlive i = true →
        i = st.cells.length ∨ st.isAlive i = true := by
      intro i hi
      rcases isAlive_iff.1 hi with hr | hh
      · obtain ⟨n, hn⟩ := isReferenced_iff.1 hr
        refine (Bindings.eq_or_of_get?_set hn).imp_right fun hn => ?_
        exact isAlive_of_isReferenced (isReferenced_iff.2 ⟨n, hn⟩)
      · exact .inr (isAlive_iff.2 (.inr hh))
    have hfree : ∀ {i d}, st.isAlive i = true → (st.extend c).cells[i]? = some d →
        d.address ≠ c.address := by
      intro i d hi hd h
      rw [State.extend, List.getElem?_append_left (hs.isAlive_lt hi)] at hd
      exact st.allocator.choose_notMem _ _ (h ▸ address_mem_taken hd hi)
    intro i j d d' hd hd' hi hj h
    -- two old symbols are apart already, and a new one is told by its address
    rcases halive hi with rfl | hi' <;> rcases halive hj with rfl | hj'
    · rfl
    · obtain rfl := Option.some.inj (hlast.symm.trans hd)
      exact absurd h.symm (hfree hj' hd')
    · obtain rfl := Option.some.inj (hlast.symm.trans hd')
      exact absurd h (hfree hi' hd)
    · exact (hs.extend c).apart hd hd' hi' hj' h

/-- **The moves of a symbol step.** -/
inductive SymbolMove (st : State) : State → Prop where
  | stay : SymbolMove st st
  | declare (name : String) (s : Symbol) : SymbolMove st (st.declare name s)
  | refer (name : String) {id : SymbolId} (h : st.isReferenced id = true) :
      SymbolMove st (st.refer name id)
  | release (name : String) : SymbolMove st (st.release name)
  | change (id : SymbolId) (c : Symbol.Change) : SymbolMove st (st.change id c)

theorem symbolMove_of_symbolStep {s : SymbolStep} {o : Outcome} {st' : State}
    (h : st.symbolStep s = .ok (o, st')) : SymbolMove st st' := by
  -- in each case what the step binds first has not failed, and the rest of it is the move
  cases s with
  | make name source =>
    obtain ⟨s, -, h⟩ := Fault.bind_eq_ok_iff.1 h
    obtain ⟨-, rfl⟩ := Prod.mk.inj (Except.ok.inj h)
    exact .declare name s
  | share name other =>
    obtain ⟨⟨id, c⟩, hsym, h⟩ := Fault.bind_eq_ok_iff.1 h
    obtain ⟨-, rfl⟩ := Prod.mk.inj (Except.ok.inj h)
    exact .refer name (isReferenced_of_symbol? hsym)
  | drop name =>
    obtain ⟨x, -, h⟩ := Fault.bind_eq_ok_iff.1 h
    obtain ⟨-, rfl⟩ := Prod.mk.inj (Except.ok.inj h)
    exact .release name
  | change name c =>
    obtain ⟨⟨id, d⟩, -, h⟩ := Fault.bind_eq_ok_iff.1 h
    obtain ⟨-, rfl⟩ := Prod.mk.inj (Except.ok.inj h)
    exact .change id c
  | facts name =>
    obtain ⟨x, -, h⟩ := Fault.bind_eq_ok_iff.1 h
    obtain ⟨f, -, h⟩ := Fault.bind_eq_ok_iff.1 h
    obtain ⟨-, rfl⟩ := Prod.mk.inj (Except.ok.inj h)
    -- facts are only read
    exact .stay

theorem SymbolMove.sound {st' : State} (h : SymbolMove st st') (hs : st.Sound) : st'.Sound := by
  cases h with
  | stay => exact hs
  | declare name s => exact hs.declare s
  | refer name h => exact hs.refer h
  | release name => exact hs.release
  | change id c => exact hs.change c

theorem map_scheme_withReferences (st : State) (name : String) (refs : Bindings String SymbolId)
    (n : String) :
    ((st.withReferences name refs).manglers.get? n).map Mangler.scheme =
      (st.manglers.get? n).map Mangler.scheme := by
  unfold withReferences
  split
  · rfl
  · rw [get?_letGo, Option.map_map]
    congr 1
    funext m
    simp only [Function.comp_apply]
    split <;> rfl

/-- Moves leave the schemes of all manglers alone. -/
theorem SymbolMove.map_scheme_eq {st' : State} (h : SymbolMove st st') (n : String) :
    (st'.manglers.get? n).map Mangler.scheme = (st.manglers.get? n).map Mangler.scheme := by
  cases h with
  | stay => rfl
  | declare name s => exact map_scheme_withReferences ..
  | refer name h => exact map_scheme_withReferences ..
  | release name => exact map_scheme_withReferences ..
  | change id c => rfl

/-- Only a change of the scheme changes it. -/
theorem scheme_use (st : State) (m : Mangler) {u : ManglerUse} (hu : ∀ c, u ≠ .change c) :
    (st.use m u).2.scheme = m.scheme := by
  cases u with
  | change c => exact absurd rfl (hu c)
  | mangleName n kind => rfl
  | look => rfl
  | number sym =>
    -- numbers are the business of the table
    simp only [use]
    split <;> rfl
  | forget sym isOwnEntry =>
    simp only [use]
    split <;> rfl
  | mangleSymbol sym suffix forcePrivate =>
    simp only [use]
    split
    · rfl
    · rw [Mangler.mangleSymbol_snd]
      split <;> rfl

/-- **The effect of a symbol step.** There may be a new symbol; the others are pinned or not as they
were, and get no reference back once they have none. The tables lose just the entries that are
neither strong nor refer to symbols that still have a reference. -/
structure Effect (st st' : State) : Prop where
  length_le : st.cells.length ≤ st'.cells.length
  isPinned_eq : ∀ {id}, id < st.cells.length → st'.isPinned id = st.isPinned id
  isReferenced_of : ∀ {id}, id < st.cells.length → st'.isReferenced id = true →
    st.isReferenced id = true
  tables : ∀ {n m'}, st'.manglers.get? n = some m' →
    ∃ m, st.manglers.get? n = some m ∧ m'.scheme = m.scheme ∧ m'.table.next = m.table.next ∧
      ∀ {key e}, m'.table.entries.get? key = some e ↔ m.table.entries.get? key = some e ∧
        (st'.isReferenced e.symbol = true ∨ e.isStrong = true)

/-- A step that leaves references and tables alone has no effect on tables. -/
theorem Sound.effect_of_eq (hs : st.Sound) {st' : State}
    (hlen : st'.cells.length = st.cells.length)
    (hpin : ∀ id, st'.isPinned id = st.isPinned id) (href : st'.references = st.references)
    (hman : st'.manglers = st.manglers) : Effect st st' where
  length_le := Nat.le_of_eq hlen.symm
  isPinned_eq _ := hpin _
  isReferenced_of _ h := by
    rw [isReferenced, href] at h
    exact h
  tables {n m'} hm' := by
    rw [hman] at hm'
    refine ⟨m', hm', rfl, rfl, fun {key e} => (and_iff_left_of_imp fun he => ?_).symm⟩
    rw [isReferenced, href]
    exact (hs.fits hm').kept he

theorem isReferenced_withReferences {refs : Bindings String SymbolId} :
    (st.withReferences name refs).isReferenced id = refs.any (· == id) := by
  rw [isReferenced, references_withReferences]

theorem isPinned_withReferences {refs : Bindings String SymbolId} :
    (st.withReferences name refs).isPinned id = st.isPinned id := by
  rw [isPinned, cells_withReferences, isPinned]

theorem SymbolMove.effect {st' : State} (h : SymbolMove st st') (hs : st.Sound) :
    Effect st st' := by
  cases h with
  | stay => exact hs.effect_of_eq rfl (fun _ => rfl) rfl rfl
  | change id c =>
    -- a change is made to one symbol, and none pins or unpins it
    refine hs.effect_of_eq ?_ (fun i => ?_) rfl rfl
    · rw [State.change, List.length_modify]
    · rw [isPinned, State.change, List.getElem?_modify, isPinned]
      cases st.cells[i]? with
      | none => rfl
      | some d =>
        rw [Option.map_eq_map, Option.map_some, Option.any_some, Option.any_some]
        split <;> simp
  | release name =>
    -- one reference less: whoever has one had it before
    refine ⟨?_, fun _ => isPinned_withReferences, fun _ hr => ?_, ?_⟩
    · exact Nat.le_of_eq (by rw [State.release, cells_withReferences])
    · rw [State.release, isReferenced_withReferences, Bindings.any_eq_true_iff] at hr
      obtain ⟨n, i, hn, hi⟩ := hr
      exact isReferenced_iff.2 ⟨n, eq_of_beq hi ▸ Bindings.get?_of_get?_erase hn⟩
    · refine hs.get?_withReferences fun hn hne => ?_
      rw [Bindings.get?_erase, if_neg hne, hn]
  | refer name h =>
    -- the name gets a reference to a symbol that has one, and may lose its own
    refine ⟨?_, fun _ => isPinned_withReferences, fun _ hr => ?_, ?_⟩
    · exact Nat.le_of_eq (by rw [State.refer, cells_withReferences])
    · rw [State.refer, isReferenced_withReferences, Bindings.any_eq_true_iff] at hr
      obtain ⟨n, i, hn, hi⟩ := hr
      obtain rfl := eq_of_beq hi
      rcases Bindings.eq_or_of_get?_set hn with rfl | hn
      · exact h
      · exact isReferenced_iff.2 ⟨n, hn⟩
    · refine hs.get?_withReferences fun hn hne => ?_
      rw [Bindings.get?_set, if_neg hne, hn]
  | declare name s =>
    -- the cell of the new symbol comes last, so no old number means another cell
    let c : Cell := ⟨s, st.allocator.choose st.cells.length st.taken⟩
    have hcells : (st.declare name s).cells = st.cells ++ [c] := cells_withReferences
    refine ⟨by simp [hcells], ?_, ?_, ?_⟩
    · intro i hid
      rw [isPinned, hcells, List.getElem?_append_left hid, isPinned]
    · intro i hid hr
      rw [State.declare, State.refer, isReferenced_withReferences, Bindings.any_eq_true_iff] at hr
      obtain ⟨n, i, hn, hi⟩ := hr
      obtain rfl := eq_of_beq hi
      rcases Bindings.eq_or_of_get?_set hn with rfl | hn
      · -- the new symbol is none of those that were there
        exact absurd hid (Nat.lt_irrefl _)
      · exact isReferenced_iff.2 ⟨n, hn⟩
    · -- the tables of the extended state are those of the old one
      refine (hs.extend c).get?_withReferences fun {n i} hn hne => ?_
      rw [Bindings.get?_set, if_neg hne]
      exact hn

/-- What a symbol step does to a table, in terms of symbols. -/
theorem Effect.find? {st' : State} (h : Effect st st') (hs : st.Sound) (hs' : st'.Sound)
    {m' : Mangler} (hm' : st'.manglers.get? name = some m') :
    ∃ m, st.manglers.get? name = some m ∧ m'.table.next = m.table.next ∧
      ∀ {s n}, m'.table.find? s = some n ↔
        m.table.find? s = some n ∧ (st'.isReferenced s = true ∨ st'.isPinned s = true) := by
  obtain ⟨m, hm, -, hnext, hiff⟩ := h.tables hm'
  refine ⟨m, hm, hnext, ?_⟩
  intro s n
  -- an entry is strong exactly if its symbol is pinned, so what stays can be told by symbol
  have hpin : ∀ {key e}, m.table.entries.get? key = some e →
      st'.isPinned e.symbol = e.isStrong := by
    intro key e he
    obtain ⟨c, hc, -, hp⟩ := (hs.fits hm).placed he
    rw [h.isPinned_eq (List.getElem?_eq_some_iff.1 hc).1, isPinned_of_getElem? hc, hp]
  rw [(hs'.fits hm').find?_eq_some_iff, (hs.fits hm).find?_eq_some_iff]
  refine ⟨?_, ?_⟩
  · rintro ⟨key, e, he, rfl, rfl⟩
    obtain ⟨he, hk⟩ := hiff.1 he
    exact ⟨⟨key, e, he, rfl, rfl⟩, hpin he ▸ hk⟩
  · rintro ⟨⟨key, e, he, rfl, rfl⟩, hk⟩
    exact ⟨key, e, hiff.2 ⟨he, hpin he ▸ hk⟩, rfl, rfl⟩

/-! ### Runs -/

theorem Sound.fits_use (hs : st.Sound) {m : Mangler} (hm : st.manglers.get? name = some m)
    (u : ManglerUse) : st.Fits (st.use m u).2.table := by
  have hf := hs.fits hm
  -- both uses that ask for a number ask for that of a referenced symbol
  have hreq : ∀ {sym id c}, st.symbol? sym = .ok (id, c) →
      st.Fits (m.table.request (c.handle id)).2 := fun hsym =>
    hf.request hs.apart (symbol?_eq_ok_iff.1 hsym).2 (isReferenced_of_symbol? hsym)
  -- only a request or a forgotten entry touches the table
  cases u with
  | change c => cases c <;> exact hf
  | mangleName n kind => exact hf
  | look => exact hf
  | number sym =>
    simp only [State.use]
    split
    · exact hf
    · next hsym => exact hreq hsym
  | mangleSymbol sym suffix forcePrivate =>
    simp only [State.use]
    split
    · exact hf
    · next hsym =>
      rw [Mangler.mangleSymbol_snd]
      split
      · exact hf
      · exact hreq hsym
  | forget sym isOwnEntry =>
    simp only [State.use]
    split
    · exact hf
    · exact hf.forget ..

/-- **The invariant is preserved by every step.** -/
theorem Sound.step (hs : st.Sound) (s : Step) : (st.step s).1.Sound := by
  cases s with
  | symbol s =>
    simp only [State.step]
    split
    · exact hs
    · next o st' h => exact (symbolMove_of_symbolStep h).sound hs
  | make name settings =>
    simp only [State.step]
    split
    · exact hs
    · exact hs.bind .empty
  | use name u =>
    simp only [State.step]
    split
    · exact hs
    · next m hm => exact hs.bind (hs.fits_use hm u)

/-- **The invariant holds in every reachable state.** -/
theorem Sound.after (hs : st.Sound) (steps : List Step) : (st.after steps).Sound := by
  induction steps generalizing st with
  | nil => exact hs
  | cons s rest ih => exact ih (hs.step s)

end Session.State

end NameMangling
