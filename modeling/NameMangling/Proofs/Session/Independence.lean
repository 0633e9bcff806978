import NameMangling.Proofs.Numbering.Account
import Mathlib.Data.List.Sort

/-!
# Manglers do not interfere

The manglers of a session share its symbols, and they do influence each other's states: a pinned
symbol without a reference lives for as long as the table of any mangler holds it, and the address
at which it lives is not free in the meantime. None of this can be seen in an answer. A session from
which all steps have been deleted that name other manglers than one gives the same answers as before
to the steps that are left.

The two sessions are run side by side. At every point the states have the same references, and the
same symbols, although perhaps at other addresses (`SameSymbols`). The mangler has the same scheme
and, what matters most, the same history. Its table is determined by the history as far as symbols
and their numbers are concerned (`Account`), so the tables look alike (`Mangler.LooksLike`).

* `Twins.step_of_not_concerns` — a step that concerns other manglers only can be left out;
* `Twins.step` — any other step is answered alike in both sessions;
* `manglers_do_not_interfere` — so are all steps that are left.
-/

namespace NameMangling

/-! ### Results that match -/

namespace Fault

variable {α β γ δ : Type} {r : α → β → Prop} {q : γ → δ → Prop}

/-- **Two results match**: they are the same error, or what they return is related. -/
inductive Match (r : α → β → Prop) : Except Fault α → Except Fault β → Prop where
  | error (f : Fault) : Match r (.error f) (.error f)
  | ok {a : α} {b : β} (h : r a b) : Match r (.ok a) (.ok b)

theorem Match.refl (x : Except Fault α) : Match Eq x x := by
  cases x with
  | error f => exact .error f
  | ok a => exact .ok rfl

/-- What goes on alike after results that match has results that match. -/
theorem Match.bind {x : Except Fault α} {y : Except Fault β} {f : α → Except Fault γ}
    {g : β → Except Fault δ} (h : Match r x y) (hfg : ∀ a b, r a b → Match q (f a) (g b)) :
    Match q (x >>= f) (y >>= g) := by
  cases h with
  | error e => exact .error e
  | ok h => exact hfg _ _ h

theorem Match.error_or_ok {x : Except Fault α} {y : Except Fault β} (h : Match r x y) :
    (∃ f, x = .error f ∧ y = .error f) ∨ ∃ a b, x = .ok a ∧ y = .ok b ∧ r a b := by
  cases h with
  | error f => exact .inl ⟨f, rfl, rfl⟩
  | ok h => exact .inr ⟨_, _, rfl, rfl, h⟩

end Fault

/-! ### Manglers that look alike -/

/-- **Two manglers look alike**: they have the same scheme and have given the same numbers to the
same symbols. The symbols may live at different addresses. -/
structure Mangler.LooksLike (m m' : Mangler) : Prop where
  scheme : m.scheme = m'.scheme
  next : m.table.next = m'.table.next
  find? : ∀ s, m.table.find? s = m'.table.find? s

/-- The mangled form of a symbol takes of the table no more than the number of the symbol. -/
theorem Mangler.mangleSymbol_fst_congr {m m' : Mangler} {id : SymbolId} {s : Symbol}
    {suffix : Value} {forcePrivate : Bool} {a a' : Address} (hscheme : m.scheme = m'.scheme)
    (hn : (m.table.request ⟨id, a, s.isPinned⟩).1 = (m'.table.request ⟨id, a', s.isPinned⟩).1) :
    (m.mangleSymbol id s suffix forcePrivate a).1 =
      (m'.mangleSymbol id s suffix forcePrivate a').1 := by
  unfold mangleSymbol
  cases s.isIntrinsic with
  -- an intrinsic keeps its name, and a symbol with a name needs no number
  | true => rfl
  | false =>
    cases s.isNamed with
    | true => simp [hscheme]
    | false => simp [hscheme, hn]

/-- The symbols of a table with their numbers. -/
def IdTable.pairs (t : IdTable) : List (SymbolId × Nat) :=
  t.entries.entries.map fun x => (x.2.symbol, x.2.number)

namespace Session

/-- **Does a step concern a mangler?** The steps about symbols concern all manglers, the others only
the one that they name. -/
def Step.concerns (name : String) : Step → Bool
  | .symbol _ => true
  | .make other _ | .use other _ => other = name

namespace State

/-! ### The same symbols -/

/-- **The same symbols under the same names**, whatever their addresses are. -/
structure SameSymbols (st st' : State) : Prop where
  references : st.references = st'.references
  symbols : st.cells.map Cell.symbol = st'.cells.map Cell.symbol

section SameSymbols

variable {st st' : State}

theorem SameSymbols.length_cells (h : SameSymbols st st') : st.cells.length = st'.cells.length := by
  simpa using congrArg List.length h.symbols

theorem SameSymbols.getElem? (h : SameSymbols st st') (id : SymbolId) :
    st.cells[id]?.map Cell.symbol = st'.cells[id]?.map Cell.symbol := by
  rw [← List.getElem?_map, ← List.getElem?_map, h.symbols]

/-- A name refers to the same symbol in both states, or to none in both. -/
theorem SameSymbols.symbol? (h : SameSymbols st st') (name : String) :
    Fault.Match (fun x y => x.1 = y.1 ∧ x.2.symbol = y.2.symbol) (st.symbol? name)
      (st'.symbol? name) := by
  unfold State.symbol?
  rw [← h.references]
  -- first the reference is looked up, then the cell
  cases st.references.get? name with
  | none => exact .error _
  | some id =>
    have hcell := h.getElem? id
    cases hc : st.cells[id]? with
    | none =>
      rw [hc, Option.map_none, eq_comm, Option.map_eq_none_iff] at hcell
      simp only [hc, hcell]
      exact .error _
    | some c =>
      rw [hc, Option.map_some, eq_comm, Option.map_eq_some_iff] at hcell
      obtain ⟨c', hc', hsym⟩ := hcell
      simp only [hc, hc']
      exact .ok ⟨rfl, hsym.symm⟩

theorem SameSymbols.symbol?_cases (h : SameSymbols st st') (name : String) :
    (∃ f, st.symbol? name = .error f ∧ st'.symbol? name = .error f) ∨
      ∃ id c c', st.symbol? name = .ok (id, c) ∧ st'.symbol? name = .ok (id, c') ∧
        c'.symbol = c.symbol := by
  obtain hfail | ⟨⟨id, c⟩, ⟨id', c'⟩, hx, hy, hid, hc⟩ := (h.symbol? name).error_or_ok
  · exact .inl hfail
  · obtain rfl : id = id' := hid
    exact .inr ⟨id, c, c', hx, hy, hc.symm⟩

theorem SameSymbols.isReferenced (h : SameSymbols st st') (id : SymbolId) :
    st.isReferenced id = st'.isReferenced id := by
  rw [State.isReferenced, h.references, State.isReferenced]

theorem SameSymbols.isPinned (h : SameSymbols st st') (id : SymbolId) :
    st.isPinned id = st'.isPinned id := by
  -- that a symbol is pinned does not depend on the address in its cell
  have hpin : ∀ cells : List Cell,
      cells[id]?.any (·.symbol.isPinned) = (cells[id]?.map Cell.symbol).any Symbol.isPinned := by
    intro cells
    cases cells[id]? <;> rfl
  rw [State.isPinned, State.isPinned, hpin, hpin, h.getElem?]

theorem SameSymbols.withReferences (h : SameSymbols st st') (name : String)
    (refs : Bindings String SymbolId) :
    SameSymbols (st.withReferences name refs) (st'.withReferences name refs) where
  references := by rw [references_withReferences, references_withReferences]
  symbols := by rw [cells_withReferences, cells_withReferences, h.symbols]

theorem SameSymbols.refer (h : SameSymbols st st') (name : String) (id : SymbolId) :
    SameSymbols (st.refer name id) (st'.refer name id) := by
  rw [State.refer, State.refer, h.references]
  exact h.withReferences name _

theorem SameSymbols.release (h : SameSymbols st st') (name : String) :
    SameSymbols (st.release name) (st'.release name) := by
  rw [State.release, State.release, h.references]
  exact h.withReferences name _

/-- A new symbol is the same in both states, although its addresses may differ. -/
theorem SameSymbols.declare (h : SameSymbols st st') (name : String) (s : Symbol) :
    SameSymbols (st.declare name s) (st'.declare name s) := by
  let c : Cell := ⟨s, st.allocator.choose st.cells.length st.taken⟩
  let c' : Cell := ⟨s, st'.allocator.choose st'.cells.length st'.taken⟩
  -- the new cells hold one symbol, and each may stand at an address of its own
  have hextend : SameSymbols (st.extend c) (st'.extend c') := by
    refine ⟨h.references, ?_⟩
    simp only [State.extend, List.map_append, h.symbols, List.map_cons, List.map_nil, c, c']
  show SameSymbols ((st.extend c).refer name st.cells.length)
    ((st'.extend c').refer name st'.cells.length)
  rw [← h.length_cells]
  exact hextend.refer name st.cells.length

theorem SameSymbols.change (h : SameSymbols st st') (id : SymbolId) (c : Symbol.Change) :
    SameSymbols (st.change id c) (st'.change id c) where
  references := h.references
  symbols := by
    -- to change a cell and to change its symbol is the same
    have hmodify : ∀ cells : List Cell,
        (cells.modify id fun cell => { cell with symbol := cell.symbol.apply c }).map Cell.symbol =
          (cells.map Cell.symbol).modify id (·.apply c) := by
      intro cells
      refine List.ext_getElem? fun i => ?_
      rw [List.getElem?_map, List.getElem?_modify, List.getElem?_modify, List.getElem?_map]
      cases cells[i]? with
      | none => rfl
      | some cell => by_cases hi : id = i <;> simp [hi]
    rw [State.change, State.change, hmodify, hmodify, h.symbols]

/-- **A step about symbols says the same in both states**, and the same symbols are there after
it. -/
theorem SameSymbols.symbolStep (h : SameSymbols st st') (s : SymbolStep) :
    Fault.Match (fun x y => x.1 = y.1 ∧ SameSymbols x.2 y.2) (st.symbolStep s)
      (st'.symbolStep s) := by
  -- all that may fail gives the same in both states, and then both go on with the same symbol
  cases s with
  | make name source =>
    refine (Fault.Match.refl source.symbol?).bind fun s s' hs => ?_
    exact .ok ⟨rfl, hs ▸ h.declare name s⟩
  | share name other =>
    refine (h.symbol? other).bind fun x y hxy => ?_
    exact .ok ⟨rfl, hxy.1 ▸ h.refer name x.1⟩
  | drop name =>
    refine (h.symbol? name).bind fun x y _ => ?_
    exact .ok ⟨rfl, h.release name⟩
  | change name c =>
    refine (h.symbol? name).bind fun x y hxy => ?_
    exact .ok ⟨rfl, hxy.1 ▸ h.change x.1 c⟩
  | facts name =>
    refine (h.symbol? name).bind fun x y hxy => ?_
    -- what is answered is read from the symbol, not from its cell
    show Fault.Match _ (x.2.symbol.facts? >>= _) (y.2.symbol.facts? >>= _)
    rw [← hxy.2]
    refine (Fault.Match.refl x.2.symbol.facts?).bind fun f f' hf => ?_
    exact .ok ⟨hf ▸ rfl, h⟩

end SameSymbols

/-! ### What a table shows -/

section Fits

variable {st st' : State} {t t' : IdTable}

/-- No symbol stands twice in a table, let alone with the same number. -/
theorem Fits.nodup_pairs (hf : st.Fits t) : t.pairs.Nodup := by
  refine List.Nodup.of_map Prod.fst ?_
  rw [IdTable.pairs, List.map_map]
  exact hf.nodup_symbols

theorem Fits.mem_pairs_iff (hf : st.Fits t) {s : SymbolId} {n : Nat} :
    (s, n) ∈ t.pairs ↔ t.find? s = some n := by
  rw [hf.find?_eq_some_iff, IdTable.pairs, List.mem_map]
  refine ⟨?_, ?_⟩
  · rintro ⟨⟨key, e⟩, he, hsn⟩
    obtain ⟨hs, hn⟩ := Prod.mk.inj hsn
    exact ⟨key, e, Bindings.get?_eq_some_iff.2 he, hs, hn⟩
  · rintro ⟨key, e, he, hs, hn⟩
    exact ⟨(key, e), Bindings.get?_eq_some_iff.1 he, Prod.ext hs hn⟩

/-- **Tables show the same numbers** if all symbols have the same numbers in them, in whatever order
the entries stand. -/
theorem Fits.ids_eq (hf : st.Fits t) (hf' : st'.Fits t') (h : ∀ s, t.find? s = t'.find? s) :
    t.ids = t'.ids := by
  have hpairs : t.pairs.Perm t'.pairs := by
    refine (List.perm_ext_iff_of_nodup hf.nodup_pairs hf'.nodup_pairs).2 fun x => ?_
    rw [hf.mem_pairs_iff, hf'.mem_pairs_iff, h]
  have hnumbers := hpairs.map Prod.snd
  simp only [IdTable.pairs, List.map_map] at hnumbers
  have hids : t.ids.Perm t'.ids :=
    (List.mergeSort_perm _ _).trans (hnumbers.trans (List.mergeSort_perm _ _).symm)
  -- permutations of each other that are both in ascending order are equal
  exact hids.eq_of_pairwise (fun a b _ _ => Nat.le_antisymm) (List.pairwise_mergeSort' _ _)
    (List.pairwise_mergeSort' _ _)

end Fits

/-! ### Two sessions side by side -/

/-- **Two sessions side by side**: in both, the same symbols are there, and a mangler has the same
scheme and the same past. -/
structure Twins (name : String) (past : List Event) (st st' : State) : Prop where
  same : SameSymbols st st'
  scheme : (st.manglers.get? name).map Mangler.scheme = (st'.manglers.get? name).map Mangler.scheme
  sound : st.Sound
  sound' : st'.Sound
  account : st.Account name past
  account' : st'.Account name past

section Twins

variable {name : String} {past : List Event} {st st' : State} {m m' : Mangler}

theorem Twins.initial (a b : Allocator) (name : String) :
    Twins name [] (State.initial a) (State.initial b) where
  same := ⟨rfl, rfl⟩
  scheme := rfl
  sound := .initial a
  sound' := .initial b
  account := .initial a
  account' := .initial b

/-- The mangler looks alike in both sessions: its history says all about its numbers. -/
theorem Twins.looksLike (h : Twins name past st st') (hm : st.manglers.get? name = some m)
    (hm' : st'.manglers.get? name = some m') : m.LooksLike m' where
  scheme := by
    have hscheme := h.scheme
    rw [hm, hm'] at hscheme
    exact Option.some.inj hscheme
  next := by rw [h.account.next hm, h.account'.next hm']
  find? s := by
    refine Option.ext fun n => ?_
    -- what has a number in a table is told by the past and the symbols, which are the same
    rw [h.account.entry hm, h.account'.entry hm', h.same.isReferenced, h.same.isPinned]

/-- Its table shows the same. -/
theorem Twins.view_eq (h : Twins name past st st') (hm : st.manglers.get? name = some m)
    (hm' : st'.manglers.get? name = some m') :
    TableView.ofMangler m = TableView.ofMangler m' := by
  have hlike := h.looksLike hm hm'
  have hids := (h.sound.fits hm).ids_eq (h.sound'.fits hm') hlike.find?
  rw [TableView.ofMangler, TableView.ofMangler, hlike.next, hids]

/-- A request for the same symbol has the same result. -/
theorem Twins.request_fst (h : Twins name past st st') (hm : st.manglers.get? name = some m)
    (hm' : st'.manglers.get? name = some m') {sym : String} {id : SymbolId} {c c' : Cell}
    (hsym : st.symbol? sym = .ok (id, c)) (hsym' : st'.symbol? sym = .ok (id, c')) :
    (m.table.request (c.handle id)).1 = (m'.table.request (c'.handle id)).1 := by
  have hlike := h.looksLike hm hm'
  rw [(h.sound.fits hm).request_fst h.sound.apart (symbol?_eq_ok_iff.1 hsym).2
      (isAlive_of_isReferenced (isReferenced_of_symbol? hsym)),
    (h.sound'.fits hm').request_fst h.sound'.apart (symbol?_eq_ok_iff.1 hsym').2
      (isAlive_of_isReferenced (isReferenced_of_symbol? hsym')),
    hlike.find?, hlike.next]

/-- **A use of the mangler says the same in both sessions.** -/
theorem Twins.use_fst (h : Twins name past st st') (hm : st.manglers.get? name = some m)
    (hm' : st'.manglers.get? name = some m') (u : ManglerUse) :
    (st.use m u).1 = (st'.use m' u).1 := by
  have hscheme : m.scheme = m'.scheme := (h.looksLike hm hm').scheme
  cases u with
  | change c => rfl
  | look => rfl
  | mangleName n kind => simp only [State.use, hscheme]
  | number sym =>
    -- the name refers to the same symbol in both sessions, or to none in both
    obtain ⟨f, hx, hy⟩ | ⟨id, c, c', hx, hy, hc⟩ := h.same.symbol?_cases sym
    · simp only [State.use, hx, hy]
    · simp only [State.use, hx, hy, h.request_fst hm hm' hx hy]
  | forget sym isOwnEntry =>
    obtain ⟨f, hx, hy⟩ | ⟨id, c, c', hx, hy, hc⟩ := h.same.symbol?_cases sym
    · simp only [State.use, hx, hy]
    · -- what is forgotten may be found at another address, but is not answered
      simp only [State.use, hx, hy]
  | mangleSymbol sym suffix forcePrivate =>
    obtain ⟨f, hx, hy⟩ | ⟨id, c, c', hx, hy, hc⟩ := h.same.symbol?_cases sym
    · simp only [State.use, hx, hy]
    · -- the scheme and the number are all that a made-up name depends on
      have hn := h.request_fst hm hm' hx hy
      simp only [Cell.handle, hc] at hn
      simp only [State.use, hx, hy, hc, Mangler.mangleSymbol_fst_congr hscheme hn]

/-- A use of the mangler is the same event in both sessions. -/
theorem Twins.event?_eq (h : Twins name past st st') (hm : st.manglers.get? name = some m)
    (hm' : st'.manglers.get? name = some m') (u : ManglerUse) :
    st.event? m u = st'.event? m' u := by
  have hlike := h.looksLike hm hm'
  -- an event holds symbols and numbers, and no addresses
  cases u with
  | change c => rfl
  | look => rfl
  | mangleName n kind => rfl
  | number sym =>
    obtain ⟨f, hx, hy⟩ | ⟨id, c, c', hx, hy, hc⟩ := h.same.symbol?_cases sym
    · simp only [event?, hx, hy]
    · simp only [event?, hx, hy, handOut, h.request_fst hm hm' hx hy, hlike.find?]
  | forget sym isOwnEntry =>
    obtain ⟨f, hx, hy⟩ | ⟨id, c, c', hx, hy, hc⟩ := h.same.symbol?_cases sym
    · simp only [event?, hx, hy]
    · simp only [event?, hx, hy, hlike.find?]
  | mangleSymbol sym suffix forcePrivate =>
    obtain ⟨f, hx, hy⟩ | ⟨id, c, c', hx, hy, hc⟩ := h.same.symbol?_cases sym
    · simp only [event?, hx, hy]
    · simp only [event?, hx, hy, handOut, hc, h.request_fst hm hm' hx hy, hlike.find?]

/-- The scheme of the mangler is the same after a use. -/
theorem Twins.scheme_use_eq (h : Twins name past st st') (hm : st.manglers.get? name = some m)
    (hm' : st'.manglers.get? name = some m') (u : ManglerUse) :
    (st.use m u).2.scheme = (st'.use m' u).2.scheme := by
  have hscheme : m.scheme = m'.scheme := (h.looksLike hm hm').scheme
  by_cases hchange : ∃ c, u = .change c
  · obtain ⟨c, rfl⟩ := hchange
    -- a change replaces one part of two equal schemes
    cases c <;> simp only [State.use, Mangler.apply, hscheme]
  · have hno : ∀ c, u ≠ .change c := fun c hc => hchange ⟨c, hc⟩
    rw [scheme_use st m hno, scheme_use st' m' hno, hscheme]

/-! ### Steps -/

theorem record_of_not_concerns {s : Step} (hs : s.concerns name = false) :
    st.record name past s = past := by
  cases s with
  | symbol s => rfl
  | make other settings =>
    have hne : ¬ other = name := by simpa [Step.concerns] using hs
    simp only [record, if_neg hne]
    split <;> rfl
  | use other u =>
    have hne : ¬ other = name := by simpa [Step.concerns] using hs
    simp only [record, if_neg hne]
    split <;> rfl

/-- A step that names another mangler touches neither symbols nor this mangler. -/
theorem step_of_not_concerns (st : State) {s : Step} (hs : s.concerns name = false) :
    (st.step s).1 = st ∨ ∃ other m, other ≠ name ∧ (st.step s).1 = st.bind other m := by
  cases s with
  | symbol s => cases hs
  | make other settings =>
    have hne : other ≠ name := by simpa [Step.concerns] using hs
    simp only [State.step]
    split
    · exact .inl rfl
    · exact .inr ⟨_, _, hne, rfl⟩
  | use other u =>
    have hne : other ≠ name := by simpa [Step.concerns] using hs
    simp only [State.step]
    split
    · exact .inl rfl
    · exact .inr ⟨_, _, hne, rfl⟩

/-- **A step that does not concern the mangler can be left out.** -/
theorem Twins.step_of_not_concerns (h : Twins name past st st') {s : Step}
    (hs : s.concerns name = false) : Twins name past (st.step s).1 st' := by
  have haccount := h.account.step h.sound s
  rw [record_of_not_concerns hs] at haccount
  have hsound := h.sound.step s
  -- the first session may bind another name, the second one stands still
  rcases State.step_of_not_concerns st hs with heq | ⟨other, m, hne, heq⟩
  · rw [heq]
    exact h
  · rw [heq] at haccount hsound ⊢
    refine ⟨⟨h.same.references, h.same.symbols⟩, ?_, hsound, h.sound', haccount, h.account'⟩
    rw [get?_bind_of_ne st hne]
    exact h.scheme

/-- What has to be said about a step in order to go on side by side. -/
theorem Twins.goOn (h : Twins name past st st') {s : Step}
    (hsame : SameSymbols (st.step s).1 (st'.step s).1)
    (hscheme : ((st.step s).1.manglers.get? name).map Mangler.scheme =
      ((st'.step s).1.manglers.get? name).map Mangler.scheme)
    (hrecord : st'.record name past s = st.record name past s) :
    Twins name (st.record name past s) (st.step s).1 (st'.step s).1 where
  same := hsame
  scheme := hscheme
  sound := h.sound.step s
  sound' := h.sound'.step s
  account := h.account.step h.sound s
  account' := hrecord ▸ h.account'.step h.sound' s

theorem Twins.step_symbol (h : Twins name past st st') (s : SymbolStep) :
    (st.step (.symbol s)).2 = (st'.step (.symbol s)).2 ∧
      Twins name (st.record name past (.symbol s)) (st.step (.symbol s)).1
        (st'.step (.symbol s)).1 := by
  obtain ⟨f, hx, hy⟩ | ⟨⟨o, t⟩, ⟨o', t'⟩, hx, hy, ho, hsame⟩ := (h.same.symbolStep s).error_or_ok
  · simp only [State.step, State.record, hx, hy]
    exact ⟨trivial, h⟩
  · -- the answer is the same, and no symbol step changes a scheme
    obtain rfl : o = o' := ho
    have hstep : st.step (.symbol s) = (t, ⟨.ok o, none⟩) := by simp only [State.step, hx]
    have hstep' : st'.step (.symbol s) = (t', ⟨.ok o, none⟩) := by simp only [State.step, hy]
    refine ⟨by rw [hstep, hstep'], h.goOn ?_ ?_ rfl⟩
    · rw [hstep, hstep']
      exact hsame
    · rw [hstep, hstep', (symbolMove_of_symbolStep hx).map_scheme_eq,
        (symbolMove_of_symbolStep hy).map_scheme_eq, h.scheme]

theorem Twins.step_make (h : Twins name past st st') (settings : Scheme.Settings) :
    (st.step (.make name settings)).2 = (st'.step (.make name settings)).2 ∧
      Twins name (st.record name past (.make name settings)) (st.step (.make name settings)).1
        (st'.step (.make name settings)).1 := by
  cases hset : Scheme.ofSettings? settings with
  | error f =>
    simp only [State.step, State.record, hset]
    exact ⟨trivial, h⟩
  | ok scheme =>
    -- both sessions bind the same new mangler, whose past is empty
    refine ⟨by simp only [State.step, hset], h.goOn ?_ ?_ rfl⟩
    · simp only [State.step, hset]
      exact ⟨h.same.references, h.same.symbols⟩
    · simp only [State.step, hset, get?_bind_self]

theorem Twins.step_use (h : Twins name past st st') (u : ManglerUse) :
    (st.step (.use name u)).2 = (st'.step (.use name u)).2 ∧
      Twins name (st.record name past (.use name u)) (st.step (.use name u)).1
        (st'.step (.use name u)).1 := by
  have hscheme := h.scheme
  cases hm : st.manglers.get? name with
  -- a name without a mangler fails in both sessions
  | none =>
    rw [hm, Option.map_none, eq_comm, Option.map_eq_none_iff] at hscheme
    simp only [State.step, State.record, hm, hscheme]
    exact ⟨trivial, h⟩
  | some m =>
    rw [hm, Option.map_some, eq_comm, Option.map_eq_some_iff] at hscheme
    obtain ⟨m', hm', -⟩ := hscheme
    have hstep : st.step (.use name u) = (st.bind name (st.use m u).2,
        ⟨(st.use m u).1, some (.ofMangler (st.use m u).2)⟩) := by simp only [State.step, hm]
    have hstep' : st'.step (.use name u) = (st'.bind name (st'.use m' u).2,
        ⟨(st'.use m' u).1, some (.ofMangler (st'.use m' u).2)⟩) := by simp only [State.step, hm']
    have htwins : Twins name (st.record name past (.use name u)) (st.step (.use name u)).1
        (st'.step (.use name u)).1 := by
      refine h.goOn ?_ ?_ ?_
      · rw [hstep, hstep']
        exact ⟨h.same.references, h.same.symbols⟩
      · rw [hstep, hstep', get?_bind_self, get?_bind_self, Option.map_some, Option.map_some,
          h.scheme_use_eq hm hm']
      · simp only [State.record, hm, hm', h.event?_eq hm hm' u]
    -- what the tables show afterwards is told from the history that goes on
    refine ⟨?_, htwins⟩
    rw [hstep, hstep'] at htwins ⊢
    rw [h.use_fst hm hm', htwins.view_eq (get?_bind_self ..) (get?_bind_self ..)]

/-- **A step that concerns the mangler is answered alike in both sessions**, which stay side by
side. -/
theorem Twins.step (h : Twins name past st st') {s : Step} (hs : s.concerns name = true) :
    (st.step s).2 = (st'.step s).2 ∧
      Twins name (st.record name past s) (st.step s).1 (st'.step s).1 := by
  cases s with
  | symbol s => exact h.step_symbol s
  | make other settings =>
    obtain rfl : other = name := by simpa [Step.concerns] using hs
    exact h.step_make settings
  | use other u =>
    obtain rfl : other = name := by simpa [Step.concerns] using hs
    exact h.step_use u

/-- **The sessions answer alike** if the second one leaves out the steps that do not concern the
mangler. -/
theorem Twins.answers (h : Twins name past st st') (steps : List Step) :
    ((steps.zip (st.answers steps)).filter fun x => x.1.concerns name).map Prod.snd =
      st'.answers (steps.filter (Step.concerns name)) := by
  -- the past is that of the steps that are left, so it goes on only with these
  induction steps generalizing past st st' with
  | nil => rfl
  | cons s rest ih =>
    rw [State.answers, List.zip_cons_cons, List.filter_cons, List.filter_cons]
    cases hs : s.concerns name with
    | false =>
      simp only [Bool.false_eq_true, if_false]
      -- the step is left out on the other side
      exact ih (h.step_of_not_concerns hs)
    | true =>
      obtain ⟨hanswer, htwins⟩ := h.step hs
      simp only [if_true, List.map_cons, State.answers]
      rw [hanswer, ih htwins]

end Twins

end State

/-- **Manglers do not interfere.** Delete from a session all steps that name other manglers than a
given one. The steps that are left, those that name it and those about symbols, have the same
answers as before, whatever addresses are given out in the two sessions. -/
theorem manglers_do_not_interfere (a b : Allocator) (name : String) (steps : List Step) :
    let answered := steps.zip ((State.initial a).answers steps)
    (answered.filter fun x => x.1.concerns name).map Prod.snd =
      (State.initial b).answers (steps.filter (Step.concerns name)) :=
  (State.Twins.initial a b name).answers steps

end Session

end NameMangling
