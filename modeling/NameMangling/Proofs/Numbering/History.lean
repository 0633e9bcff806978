import NameMangling.Proofs.Numbering.Lifetimes

/-!
# Histories of manglers

What has happened to the numbers of a mangler since it was made, as a list of `Event`s, oldest
first. An event is recorded when a use asks for the number of a symbol (`Event.handOut`), and when
the entry of a symbol is forgotten (`Event.forget`). Nothing is recorded when a symbol ends. The
history of a name is that of the mangler to which the name is bound, so it starts anew when the name
is bound to a new one.

A number counts as *assigned* when it is handed out to a symbol that has no entry at the time. It is
*standing* (`Standing`) if it is the one assigned to its symbol last and the symbol has not been
forgotten since.

* `standing_concat` — how an event changes what is standing;
* `State.Sound.tableMove` — what a use does to a table, event by event;
* `State.event?_eq_handOut_iff`, `State.outcome_of_event?` — a number is handed out exactly if it is
  asked for, and it is the one that is answered.
-/

namespace NameMangling.Session

/-- **An event in the history of a mangler.** -/
inductive Event where
  /-- The number of a symbol is handed out, be it assigned just then or before. -/
  | handOut (s : SymbolId) (n : Nat) (isNew : Bool)
  /-- The entry of a symbol is forgotten. -/
  | forget (s : SymbolId)
  deriving DecidableEq

/-- The assignment that an event is, if it is one. -/
def Event.assignment? : Event → Option (SymbolId × Nat)
  | handOut s n true => some (s, n)
  | _ => none

/-- **The assignments of a history**, in order. -/
def assignments (past : List Event) : List (SymbolId × Nat) := past.filterMap Event.assignment?

/-- **A standing number**: the one of the latest assignment to a symbol, which has not been
forgotten since. -/
def Standing (past : List Event) (s : SymbolId) (n : Nat) : Prop :=
  ∃ before since, past = before ++ .handOut s n true :: since ∧
    (∀ n', .handOut s n' true ∉ since) ∧ .forget s ∉ since

namespace State

/-- **A use asks for the number of a symbol**, directly or to make up a name for it. -/
inductive Requests (st : State) : ManglerUse → SymbolId → Cell → Prop where
  | number {name : String} {id : SymbolId} {c : Cell} (h : st.symbol? name = .ok (id, c)) :
      Requests st (.number name) id c
  | mangleSymbol {name : String} {id : SymbolId} {c : Cell} {suffix : Value} {forcePrivate : Bool}
      (h : st.symbol? name = .ok (id, c)) (hi : c.symbol.isIntrinsic = false)
      (hn : c.symbol.isNamed = false) : Requests st (.mangleSymbol name suffix forcePrivate) id c

/-- The event of handing out the number of a symbol. -/
def handOut (t : IdTable) (id : SymbolId) (c : Cell) : Event :=
  .handOut id (t.request (c.handle id)).1 (t.find? id).isNone

/-- **The event that a use of a mangler is**, if it is one. -/
def event? (st : State) (m : Mangler) : ManglerUse → Option Event
  | .number name =>
    match st.symbol? name with
    | .error _ => none
    | .ok (id, c) => some (handOut m.table id c)
  | .mangleSymbol name _ _ =>
    match st.symbol? name with
    | .error _ => none
    -- Only a made-up name needs a number.
    | .ok (id, c) =>
      if c.symbol.isIntrinsic || c.symbol.isNamed then none else some (handOut m.table id c)
  | .forget name isOwnEntry =>
    match st.symbol? name with
    | .error _ => none
    | .ok (id, _) => if isOwnEntry && (m.table.find? id).isSome then some (.forget id) else none
  | .change _ | .mangleName _ _ | .look => none

/-- The answer to a use that hands out a number: the number itself, or a name made up from it. -/
def answerWith (st : State) (m : Mangler) (n : Nat) : ManglerUse → Except Fault Outcome
  | .mangleSymbol name suffix forcePrivate =>
    match st.symbol? name with
    | .error f => .error f
    | .ok (_, c) =>
      Mangler.unnamed n suffix >>= fun made =>
        (m.scheme.mangle (.text made) (.text (c.symbol.kind forcePrivate).name)).map fun t =>
          .value (.text t)
  | _ => .ok (.number n)

/-- The history of a name after a step, given the history before. -/
def record (st : State) (name : String) (past : List Event) : Step → List Event
  | .symbol _ => past
  | .make other settings =>
    match Scheme.ofSettings? settings with
    | .error _ => past
    | .ok _ => if other = name then [] else past
  | .use other u =>
    match st.manglers.get? other with
    | none => past
    | some m => if other = name then past ++ (st.event? m u).toList else past

/-- The history of a name after some steps, given the history before. -/
def recordAll (st : State) (name : String) (past : List Event) : List Step → List Event
  | [] => past
  | s :: rest => (st.step s).1.recordAll name (st.record name past s) rest

end State

/-- **The history of a name** in a session: what has happened to the numbers of the mangler to which
the name is bound at the end. -/
def history (a : Allocator) (name : String) (steps : List Step) : List Event :=
  (State.initial a).recordAll name [] steps

/-! ### One more event -/

theorem mem_assignments_iff {past : List Event} {s : SymbolId} {n : Nat} :
    (s, n) ∈ assignments past ↔ .handOut s n true ∈ past := by
  rw [assignments, List.mem_filterMap]
  refine ⟨?_, ?_⟩
  · rintro ⟨e, he, h⟩
    cases e with
    | forget r => cases h
    | handOut r k isNew =>
      cases isNew with
      | false => cases h
      | true =>
        obtain ⟨rfl, rfl⟩ := Prod.mk.inj (Option.some.inj h)
        exact he
  · intro h
    exact ⟨_, h, rfl⟩

/-- How the assignments of a history go on. -/
theorem assignments_concat (past : List Event) (e : Event) :
    assignments (past ++ [e]) = assignments past ++ e.assignment?.toList := by
  rw [assignments, List.filterMap_append, assignments]
  cases h : e.assignment? <;> simp [h]

/-- An event of a longer history is the new one, or one of the old ones with one more after it. -/
theorem concat_eq_append_cons_iff {past before since : List Event} {e x : Event} :
    past ++ [e] = before ++ x :: since ↔
      (before = past ∧ x = e ∧ since = []) ∨
        ∃ between, since = between ++ [e] ∧ past = before ++ x :: between := by
  refine ⟨?_, ?_⟩
  · intro h
    rcases since.eq_nil_or_concat with rfl | ⟨between, y, rfl⟩
    · obtain ⟨rfl, hx⟩ := List.append_inj' h rfl
      exact .inl ⟨rfl, (List.cons.inj hx).1.symm, rfl⟩
    · rw [List.concat_eq_append, ← List.cons_append, ← List.append_assoc] at h
      obtain ⟨rfl, hy⟩ := List.append_inj' h rfl
      obtain rfl := (List.cons.inj hy).1
      exact .inr ⟨between, List.concat_eq_append, rfl⟩
  · rintro (⟨rfl, rfl, rfl⟩ | ⟨between, rfl, rfl⟩)
    · rfl
    · simp

/-- **How an event changes what is standing.** It assigns a number, or else leaves standing what it
neither replaces nor forgets. -/
theorem standing_concat {past : List Event} {e : Event} {s : SymbolId} {n : Nat} :
    Standing (past ++ [e]) s n ↔ e = .handOut s n true ∨
      Standing past s n ∧ (∀ n', e ≠ .handOut s n' true) ∧ e ≠ .forget s := by
  refine ⟨?_, ?_⟩
  · rintro ⟨before, since, h, hnew, hforget⟩
    -- the assignment that stands is the last event, or it came before with less after it
    rcases concat_eq_append_cons_iff.1 h with ⟨-, rfl, -⟩ | ⟨between, rfl, rfl⟩
    · exact .inl rfl
    · refine .inr ⟨⟨before, between, rfl, fun n' hm => ?_, fun hm => ?_⟩,
        fun n' he => ?_, fun he => ?_⟩
      · exact hnew n' (List.mem_append_left _ hm)
      · exact hforget (List.mem_append_left _ hm)
      · exact hnew n' (List.mem_append_right _ (he ▸ List.mem_cons_self))
      · exact hforget (List.mem_append_right _ (he ▸ List.mem_cons_self))
  · -- the last event is one more that comes after the assignment
    rintro (rfl | ⟨⟨before, since, rfl, hnew, hforget⟩, hne, hne'⟩)
    · exact ⟨past, [], rfl, fun _ => List.not_mem_nil, List.not_mem_nil⟩
    · refine ⟨before, since ++ [e], by simp, ?_, ?_⟩
      · intro n' hm
        rcases List.mem_append.1 hm with hm | hm
        · exact hnew n' hm
        · exact hne n' (List.mem_singleton.1 hm).symm
      · intro hm
        rcases List.mem_append.1 hm with hm | hm
        · exact hforget hm
        · exact hne' (List.mem_singleton.1 hm).symm

theorem Standing.mem {past : List Event} {s : SymbolId} {n : Nat} (h : Standing past s n) :
    .handOut s n true ∈ past := by
  obtain ⟨before, since, rfl, -⟩ := h
  exact List.mem_append_right _ List.mem_cons_self

/-! ### What a use does to a table -/

namespace State

variable {st : State} {t : IdTable} {id : SymbolId} {c : Cell} {name : String}

/-- **The moves of a table.** -/
inductive TableMove (st : State) (t : IdTable) : Option Event → IdTable → Prop where
  | stay : TableMove st t none t
  | again {id : SymbolId} {n : Nat} (hr : st.isReferenced id = true) (hn : t.find? id = some n) :
      TableMove st t (some (.handOut id n false)) t
  | assign {id : SymbolId} {c : Cell} (hc : st.cells[id]? = some c)
      (hr : st.isReferenced id = true) (hn : t.find? id = none) :
      TableMove st t (some (.handOut id t.next true)) (t.assign (c.handle id))
  | forget {c : Cell} {e : Entry} (hc : st.cells[e.symbol]? = some c)
      (he : t.entries.get? c.address = some e) :
      TableMove st t (some (.forget e.symbol)) (t.forget c.address e)

/-- Whoever is handed a number has a reference. -/
theorem TableMove.isReferenced {t' : IdTable} {s : SymbolId} {n : Nat} {b : Bool}
    (h : TableMove st t (some (.handOut s n b)) t') : st.isReferenced s = true := by
  cases h with
  | again hr hn => exact hr
  | assign hc hr hn => exact hr

theorem Sound.tableMove_request (hs : st.Sound) (hf : st.Fits t)
    (hsym : st.symbol? name = .ok (id, c)) :
    TableMove st t (some (handOut t id c)) (t.request (c.handle id)).2 := by
  have hc := (symbol?_eq_ok_iff.1 hsym).2
  have hr := isReferenced_of_symbol? hsym
  have hl := isAlive_of_isReferenced hr
  -- the table answers with the number of the symbol, or assigns the next one
  cases hn : t.find? id with
  | some n =>
    rw [handOut, hf.request_of_find? hs.apart hc hl hn, hn]
    exact .again hr hn
  | none =>
    rw [handOut, (hf.request_of_find?_eq_none hs.apart hc hl hn).2, hn]
    exact .assign hc hr hn

/-- An entry that no table made is in none. -/
theorem forget_foreign (t : IdTable) (key : Address) (s : SymbolId) :
    t.forget key (.foreign s) = t := by
  refine if_neg fun h => ?_
  exact absurd (t.bounded h).1 (Nat.lt_irrefl 0)

theorem Sound.tableMove_forget (hs : st.Sound) (hf : st.Fits t)
    (hsym : st.symbol? name = .ok (id, c)) (isOwnEntry : Bool) :
    TableMove st t (if isOwnEntry && (t.find? id).isSome then some (.forget id) else none)
      (t.forget c.address ((if isOwnEntry then t.entries.get? c.address else none).getD
        (.foreign id))) := by
  have hc := (symbol?_eq_ok_iff.1 hsym).2
  have hl := isAlive_of_isReferenced (isReferenced_of_symbol? hsym)
  cases isOwnEntry with
  | false =>
    -- a foreign entry is in no table
    simp only [Bool.false_and, Bool.false_eq_true, if_false, Option.getD_none, forget_foreign]
    exact .stay
  | true =>
    rw [← hf.get?_address hs.apart hc hl]
    cases he : t.entries.get? c.address with
    | none =>
      simp only [Option.map_none, Option.isSome_none, Bool.and_false, Bool.false_eq_true, if_false,
        if_true, Option.getD_none, forget_foreign]
      exact .stay
    | some e =>
      -- the entry at the address is that of the symbol
      obtain rfl := hf.symbol_eq hs.apart hc hl he
      simp only [Option.map_some, Option.isSome_some, Bool.and_true, if_true, Option.getD_some]
      exact .forget hc he

/-- **Every use of a mangler moves its table as the event says.** -/
theorem Sound.tableMove (hs : st.Sound) {m : Mangler} (hm : st.manglers.get? name = some m)
    (u : ManglerUse) : TableMove st m.table (st.event? m u) (st.use m u).2.table := by
  have hf := hs.fits hm
  -- a use that names no known symbol fails before it touches the table
  cases u with
  | change c => cases c <;> exact .stay
  | mangleName n kind => exact .stay
  | look => exact .stay
  | number sym =>
    cases hsym : st.symbol? sym with
    | error f =>
      simp only [State.use, State.event?, hsym]
      exact .stay
    | ok x =>
      simp only [State.use, State.event?, hsym]
      exact hs.tableMove_request hf hsym
  | mangleSymbol sym suffix forcePrivate =>
    cases hsym : st.symbol? sym with
    | error f =>
      simp only [State.use, State.event?, hsym]
      exact .stay
    | ok x =>
      simp only [State.use, State.event?, hsym, Mangler.mangleSymbol_snd]
      -- an intrinsic or a named symbol needs no number
      split
      · exact .stay
      · exact hs.tableMove_request hf hsym
  | forget sym isOwnEntry =>
    cases hsym : st.symbol? sym with
    | error f =>
      simp only [State.use, State.event?, hsym]
      exact .stay
    | ok x =>
      simp only [State.use, State.event?, hsym]
      exact hs.tableMove_forget hf hsym isOwnEntry

/-- **A number is handed out exactly if it is asked for.** -/
theorem event?_eq_handOut_iff {m : Mangler} {u : ManglerUse} {s : SymbolId} {n : Nat} {b : Bool} :
    st.event? m u = some (.handOut s n b) ↔
      ∃ c, st.Requests u s c ∧ handOut m.table s c = .handOut s n b := by
  refine ⟨?_, ?_⟩
  · intro h
    -- only two uses ask for a number, each for a symbol that its name refers to
    cases u with
    | change c => cases h
    | mangleName n kind => cases h
    | look => cases h
    -- the event names the symbol, so it is the one that the number is for
    | number sym =>
      cases hsym : st.symbol? sym with
      | error f => simp [event?, hsym] at h
      | ok x =>
        simp only [event?, hsym, Option.some.injEq] at h
        obtain ⟨rfl, -⟩ := Event.handOut.inj h
        exact ⟨x.2, .number hsym, h⟩
    | mangleSymbol sym suffix forcePrivate =>
      cases hsym : st.symbol? sym with
      | error f => simp [event?, hsym] at h
      | ok x =>
        simp only [event?, hsym] at h
        -- no event where a name is there already; the guard gives both halves of the request
        split at h
        · cases h
        · next hplain =>
          obtain ⟨hi, hn⟩ := Bool.or_eq_false_iff.1 (Bool.eq_false_iff.2 hplain)
          have hout := Option.some.inj h
          obtain ⟨rfl, -⟩ := Event.handOut.inj hout
          exact ⟨x.2, .mangleSymbol hsym hi hn, hout⟩
    -- a forgotten entry is an event of the other kind
    | forget sym isOwnEntry =>
      cases hsym : st.symbol? sym with
      | error f => simp [event?, hsym] at h
      | ok x =>
        simp only [event?, hsym] at h
        split at h
        · cases Option.some.inj h
        · cases h
  · rintro ⟨c, hreq, hout⟩
    cases hreq with
    | number h => simp only [event?, h, hout]
    | mangleSymbol h hi hn =>
      simp only [event?, h, hi, hn, hout, Bool.or_self, Bool.false_eq_true, if_false]

/-- **The number that is handed out is the one that is answered**, whether the use asks for it or
for a made-up name. It is new exactly if the symbol has no entry. -/
theorem use_of_event? {m : Mangler} {u : ManglerUse} {s : SymbolId} {n : Nat} {b : Bool}
    (h : st.event? m u = some (.handOut s n b)) :
    (b = true ↔ m.table.find? s = none) ∧ (st.use m u).1 = st.answerWith m n u := by
  obtain ⟨c, hreq, hout⟩ := event?_eq_handOut_iff.1 h
  obtain ⟨-, rfl, rfl⟩ := Event.handOut.inj hout
  refine ⟨Option.isNone_iff_eq_none, ?_⟩
  cases hreq with
  | number hsym => simp only [State.use, answerWith, hsym]
  | mangleSymbol hsym hi hn =>
    simp only [State.use, answerWith, hsym, Mangler.mangleSymbol_fst m _ _ _ _ hi hn]
    -- the answer wraps the mangled form once for the symbol and once for the step
    rw [Cell.handle]
    cases Mangler.unnamed (m.table.request ⟨s, c.address, c.symbol.isPinned⟩).1 _ with
    | error f => rfl
    | ok made => exact Functor.map_map (f := Except Fault) Value.text Outcome.value _

/-- The step that such a use is answers with the number. -/
theorem outcome_of_event? {m : Mangler} {u : ManglerUse} {s : SymbolId} {n : Nat} {b : Bool}
    (hm : st.manglers.get? name = some m) (h : st.event? m u = some (.handOut s n b)) :
    (st.step (.use name u)).2.outcome = st.answerWith m n u := by
  simp only [State.step, hm]
  exact (use_of_event? h).2

/-- A use of a mangler adds its event to the history. -/
theorem record_use {m : Mangler} (hm : st.manglers.get? name = some m) (past : List Event)
    (u : ManglerUse) : st.record name past (.use name u) = past ++ (st.event? m u).toList := by
  simp only [record, hm, if_true]

end State

end NameMangling.Session
