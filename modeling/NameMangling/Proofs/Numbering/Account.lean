import NameMangling.Proofs.Numbering.History

/-!
# What a history says about a table

The id table of a mangler is a function of its history and of which symbols are still there.

The argument has two halves. The first is about histories alone. The history of a mangler is
`Orderly`: a number is assigned only to a symbol for which none is standing, and it is the next one;
a number handed out again is the standing one. From this alone it follows that

* `Orderly.numbers` — the numbers are assigned in the order 1, 2, 3, ...;
* `Orderly.eq_of_handOut` — no number is ever handed out for two symbols;
* `Orderly.steady` — a symbol keeps its number until it is forgotten.

The second half is the history-aware invariant `Account`: the counter of the table is one more than
the number of assignments, and a symbol has an entry with a number exactly if that number is
standing for it and the symbol still has a reference or is pinned (`Account.entry`). What makes it
go through when a symbol ends is `Account.known`: the history mentions only symbols that have been
made, so that a new symbol has no past, whatever its address.
-/

namespace NameMangling.Session

/-! ### Orderly histories -/

/-- **An orderly history.** -/
inductive Orderly : List Event → Prop where
  | nil : Orderly []
  | assign {past : List Event} {s : SymbolId} (h : Orderly past) (hn : ∀ n, ¬ Standing past s n) :
      Orderly (past ++ [.handOut s ((assignments past).length + 1) true])
  | again {past : List Event} {s : SymbolId} {n : Nat} (h : Orderly past)
      (hn : Standing past s n) : Orderly (past ++ [.handOut s n false])
  | forget {past : List Event} {s : SymbolId} (h : Orderly past) : Orderly (past ++ [.forget s])

namespace Orderly

variable {past : List Event} {s s' : SymbolId} {n n' : Nat} {b b' : Bool}

/-- **The numbers are assigned in order**, without a gap and without repetition. -/
theorem numbers (h : Orderly past) :
    (assignments past).map Prod.snd = List.range' 1 (assignments past).length := by
  induction h with
  | nil => rfl
  | @assign past s h hn ih =>
    rw [assignments_concat, List.map_append, ih, List.length_append]
    simp [Event.assignment?, List.range'_1_concat, Nat.add_comm 1]
  | again h hn ih =>
    rw [assignments_concat]
    -- no other event assigns a number
    simpa only [Event.assignment?, Option.toList_none, List.append_nil] using ih
  | forget h ih =>
    rw [assignments_concat]
    simpa only [Event.assignment?, Option.toList_none, List.append_nil] using ih

/-- A number that is handed out has been assigned to the same symbol. -/
theorem mem_of_handOut (h : Orderly past) (hm : .handOut s n b ∈ past) :
    .handOut s n true ∈ past := by
  induction h with
  | nil => exact absurd hm List.not_mem_nil
  | assign h hn ih =>
    rcases List.mem_append.1 hm with hm | hm
    · exact List.mem_append_left _ (ih hm)
    · obtain ⟨rfl, rfl, -⟩ := Event.handOut.inj (List.mem_singleton.1 hm)
      exact List.mem_append_right _ List.mem_cons_self
  -- only the numbers of `again` have to be looked up: they are standing, so they were assigned
  | again h hn ih =>
    refine List.mem_append_left _ ?_
    rcases List.mem_append.1 hm with hm | hm
    · exact ih hm
    · obtain ⟨rfl, rfl, -⟩ := Event.handOut.inj (List.mem_singleton.1 hm)
      exact hn.mem
  | forget h ih =>
    rcases List.mem_append.1 hm with hm | hm
    · exact List.mem_append_left _ (ih hm)
    · cases List.mem_singleton.1 hm

/-- **No number is handed out for two symbols.** -/
theorem eq_of_handOut (h : Orderly past) (hs : .handOut s n b ∈ past)
    (hs' : .handOut s' n b' ∈ past) : s = s' := by
  have hm := mem_assignments_iff.2 (h.mem_of_handOut hs)
  have hm' := mem_assignments_iff.2 (h.mem_of_handOut hs')
  -- the numbers are 1, 2, 3, ..., so none of them is assigned twice
  have hnodup : ((assignments past).map Prod.snd).Nodup := h.numbers ▸ List.nodup_range'
  exact (Prod.mk.inj (List.inj_on_of_nodup_map hnodup hm hm' rfl)).1

/-- At most one number is standing for a symbol. -/
theorem standing_unique (h : Orderly past) (hn : Standing past s n) (hn' : Standing past s n') :
    n = n' := by
  -- of two numbers one is the newest, and it takes the place of all others
  induction h with
  | nil => exact absurd hn.mem List.not_mem_nil
  | assign h hnone ih =>
    rcases standing_concat.1 hn with he | ⟨hp, hne, -⟩ <;>
      rcases standing_concat.1 hn' with he' | ⟨hp', hne', -⟩
    · exact (Event.handOut.inj (he.symm.trans he')).2.1
    · exact absurd he (hne' _)
    · exact absurd he' (hne _)
    · exact ih hp hp'
  | again h hs ih =>
    -- no new assignment, so both were standing before
    rcases standing_concat.1 hn with he | ⟨hp, -⟩
    · cases he
    rcases standing_concat.1 hn' with he' | ⟨hp', -⟩
    · cases he'
    exact ih hp hp'
  | forget h ih =>
    rcases standing_concat.1 hn with he | ⟨hp, -⟩
    · cases he
    rcases standing_concat.1 hn' with he' | ⟨hp', -⟩
    · cases he'
    exact ih hp hp'

/-- A number that has been handed out is standing until its symbol is forgotten. -/
theorem standing (h : Orderly past) {before since : List Event}
    (hp : past = before ++ .handOut s n b :: since) (hf : .forget s ∉ since) :
    Standing past s n := by
  induction h generalizing since with
  | nil => exact absurd hp (by simp)
  | assign h hnone ih =>
    rcases concat_eq_append_cons_iff.1 hp with ⟨-, he, -⟩ | ⟨between, rfl, hq⟩
    · obtain ⟨rfl, rfl, -⟩ := Event.handOut.inj he
      exact standing_concat.2 (.inl rfl)
    · have hst := ih hq fun hm => hf (List.mem_append_left _ hm)
      refine standing_concat.2 (.inr ⟨hst, fun k he => ?_, Event.noConfusion⟩)
      -- a symbol with a standing number is not assigned another one
      obtain ⟨rfl, -⟩ := Event.handOut.inj he
      exact hnone _ hst
  | again h hs ih =>
    rcases concat_eq_append_cons_iff.1 hp with ⟨-, he, -⟩ | ⟨between, rfl, hq⟩
    · obtain ⟨rfl, rfl, -⟩ := Event.handOut.inj he
      exact standing_concat.2 (.inr ⟨hs, fun k he => (by cases he), Event.noConfusion⟩)
    · have hst := ih hq fun hm => hf (List.mem_append_left _ hm)
      exact standing_concat.2 (.inr ⟨hst, fun k he => (by cases he), Event.noConfusion⟩)
  | forget h ih =>
    rcases concat_eq_append_cons_iff.1 hp with ⟨-, he, -⟩ | ⟨between, rfl, hq⟩
    · cases he
    · have hst := ih hq fun hm => hf (List.mem_append_left _ hm)
      refine standing_concat.2 (.inr ⟨hst, fun k => Event.noConfusion, fun he => ?_⟩)
      exact hf (List.mem_append_right _ (he ▸ List.mem_cons_self))

/-- **A symbol keeps its number until it is forgotten.** -/
theorem steady (h : Orderly past) {before between since : List Event}
    (hp : past = (before ++ .handOut s n b :: between) ++ .handOut s n' b' :: since)
    (hf : .forget s ∉ between) : n' = n := by
  -- on the history up to the second number; only its last event can be that number
  induction h generalizing since with
  | nil => exact absurd hp (by simp)
  | assign h hnone ih =>
    rcases concat_eq_append_cons_iff.1 hp with ⟨hb, he, -⟩ | ⟨rest, -, hp⟩
    · -- the first number is still standing, so there is nothing to assign
      obtain ⟨rfl, -⟩ := Event.handOut.inj he
      have hst : Standing _ s n := h.standing hb.symm hf
      exact absurd hst (hnone n)
    · exact ih hp
  | again h hs ih =>
    rcases concat_eq_append_cons_iff.1 hp with ⟨hb, he, -⟩ | ⟨rest, -, hp⟩
    · -- the first number is standing, and so is the one handed out again
      obtain ⟨rfl, rfl, -⟩ := Event.handOut.inj he
      have hst : Standing _ s n := h.standing hb.symm hf
      exact h.standing_unique hs hst
    · exact ih hp
  | forget h ih =>
    rcases concat_eq_append_cons_iff.1 hp with ⟨-, he, -⟩ | ⟨rest, -, hp⟩
    · cases he
    · exact ih hp

end Orderly

/-! ### The invariant -/

namespace State

variable {st : State} {name : String} {past : List Event}

/-- **The account of a table**: the history of a name says all about the table of its mangler. -/
structure Account (st : State) (name : String) (past : List Event) : Prop where
  orderly : Orderly past
  known : ∀ {s n b}, .handOut s n b ∈ past → s < st.cells.length
  next : ∀ {m}, st.manglers.get? name = some m → m.table.next = (assignments past).length + 1
  entry : ∀ {m s n}, st.manglers.get? name = some m → (m.table.find? s = some n ↔
    Standing past s n ∧ (st.isReferenced s = true ∨ st.isPinned s = true))

theorem Account.initial (a : Allocator) : (State.initial a).Account name [] where
  orderly := .nil
  known h := absurd h List.not_mem_nil
  -- no name is bound to a mangler yet
  next h := absurd h (by simp [State.initial])
  entry h := absurd h (by simp [State.initial])

/-- What has to be said about a mangler when a name is bound to it. -/
theorem Account.bind {m : Mangler} (ho : Orderly past)
    (hk : ∀ {s n b}, .handOut s n b ∈ past → s < st.cells.length)
    (hn : m.table.next = (assignments past).length + 1)
    (he : ∀ {s n}, m.table.find? s = some n ↔
      Standing past s n ∧ (st.isReferenced s = true ∨ st.isPinned s = true)) :
    (st.bind name m).Account name past := by
  have hget : ∀ {m'}, (st.bind name m).manglers.get? name = some m' → m' = m := by
    intro m' h
    rw [get?_bind_self] at h
    exact (Option.some.inj h).symm
  refine ⟨ho, hk, ?_, ?_⟩
  · intro m' h
    rw [hget h, hn]
  · intro m' s n h
    rw [hget h]
    exact he

/-- The account of a mangler is not touched when another name is bound. -/
theorem Account.bind_of_ne (h : st.Account name past) {other : String} (hne : other ≠ name)
    (m : Mangler) : (st.bind other m).Account name past := by
  refine ⟨h.orderly, h.known, ?_, ?_⟩
  · intro m' hm
    rw [get?_bind_of_ne st hne] at hm
    exact h.next hm
  · intro m' s n hm
    rw [get?_bind_of_ne st hne] at hm
    exact h.entry hm

/-- A new mangler has no past. -/
theorem Account.ofScheme (scheme : Scheme) : (st.bind name (.ofScheme scheme)).Account name [] := by
  refine .bind .nil (fun hmem => absurd hmem List.not_mem_nil) rfl fun {s n} => ?_
  have hnone : (Mangler.ofScheme scheme).table.find? s = none := rfl
  refine ⟨?_, fun hst => absurd hst.1.mem List.not_mem_nil⟩
  intro hn
  rw [hnone] at hn
  cases hn

/-- **The account goes on with every use of the mangler.** -/
theorem Account.use (h : st.Account name past) (hs : st.Sound) {m m' : Mangler} {e : Option Event}
    (hm : st.manglers.get? name = some m) (hmove : TableMove st m.table e m'.table) :
    (st.bind name m').Account name (past ++ e.toList) := by
  have hf := hs.fits hm
  -- a symbol must have a reference to be handed a number, so it has been made
  have hknown : ∀ {s n b}, .handOut s n b ∈ past ++ e.toList → s < st.cells.length := by
    intro s n b hmem
    rcases List.mem_append.1 hmem with hmem | hmem
    · exact h.known hmem
    · obtain rfl := Option.mem_toList.1 hmem
      exact hs.isReferenced_lt hmove.isReferenced
  generalize ht : m'.table = t at hmove
  cases hmove with
  | stay =>
    rw [Option.toList_none, List.append_nil]
    exact .bind h.orderly h.known (ht ▸ h.next hm) (ht ▸ h.entry hm)
  | @again s n hr hn =>
    -- the number comes from an entry, so it is standing, and handing it out changes nothing
    have hst : Standing past s n := ((h.entry hm).1 hn).1
    refine .bind (h.orderly.again hst) hknown ?_ fun {s' n'} => ?_
    · rw [ht, h.next hm, Option.toList_some, assignments_concat]
      simp [Event.assignment?]
    · rw [ht, h.entry hm, Option.toList_some, standing_concat]
      simp
  | @assign s c hc hr hn =>
    -- a standing number of a symbol that is still there would be in the table
    have hnone : ∀ n, ¬ Standing past s n := by
      intro n hst
      have hfind : m.table.find? s = some n := (h.entry hm).2 ⟨hst, .inl hr⟩
      rw [hn] at hfind
      cases hfind
    have ho := h.orderly.assign hnone
    -- the next number is one ahead of the assignments, so it is the one that is due
    rw [← h.next hm] at ho
    refine .bind ho hknown ?_ fun {s' n'} => ?_
    · rw [ht, IdTable.next_assign, h.next hm, Option.toList_some, assignments_concat,
        List.length_append]
      rfl
    · have hl := isAlive_of_isReferenced hr
      have hfree := (hf.request_of_find?_eq_none hs.apart hc hl hn).1
      rw [ht, hf.find?_assign hc hr hfree, h.entry hm, Option.toList_some, standing_concat]
      refine ⟨?_, ?_⟩
      · rintro (⟨rfl, rfl⟩ | ⟨hst, hk⟩)
        · exact ⟨.inl rfl, .inl hr⟩
        · refine ⟨.inr ⟨hst, fun k he => ?_, Event.noConfusion⟩, hk⟩
          obtain ⟨rfl, -⟩ := Event.handOut.inj he
          exact hnone _ hst
      · rintro ⟨he | ⟨hst, -⟩, hk⟩
        · obtain ⟨rfl, rfl, -⟩ := Event.handOut.inj he
          exact .inl ⟨rfl, rfl⟩
        · exact .inr ⟨hst, hk⟩
  | @forget c e hc he =>
    -- what goes is the entry of the symbol, and with it what is standing for it
    refine .bind h.orderly.forget hknown ?_ fun {s' n'} => ?_
    · rw [ht, IdTable.next_forget, h.next hm, Option.toList_some, assignments_concat]
      simp [Event.assignment?]
    · rw [ht, hf.find?_forget he, h.entry hm, Option.toList_some, standing_concat]
      simp only [reduceCtorEq, ne_eq, Event.forget.injEq, not_false_eq_true, implies_true, true_and,
        false_or, eq_comm (a := e.symbol)]
      tauto

/-- **The account goes on with every symbol step.** A new symbol has no past, and one whose last
reference goes has no entry unless it is pinned. -/
theorem Account.effect (h : st.Account name past) (hs : st.Sound) {st' : State} (hs' : st'.Sound)
    (heff : Effect st st') : st'.Account name past where
  orderly := h.orderly
  known hmem := Nat.lt_of_lt_of_le (h.known hmem) heff.length_le
  next hm' := by
    obtain ⟨m, hm, hnext, -⟩ := heff.find? hs hs' hm'
    rw [hnext, h.next hm]
  entry {m' s n} hm' := by
    obtain ⟨m, hm, -, hiff⟩ := heff.find? hs hs' hm'
    rw [hiff, h.entry hm, and_assoc]
    refine and_congr_right fun hst => and_iff_right_of_imp fun hk => ?_
    -- the symbol of a standing number is no new one, so no reference to it is new
    have hlt := h.known hst.mem
    exact hk.imp (heff.isReferenced_of hlt) fun hp => heff.isPinned_eq hlt ▸ hp

/-- **The invariant is preserved by every step**, and the history goes on. -/
theorem Account.step (h : st.Account name past) (hs : st.Sound) (s : Step) :
    (st.step s).1.Account name (st.record name past s) := by
  cases s with
  | symbol s =>
    simp only [State.step, State.record]
    split
    · exact h
    · next o st' hstep =>
      -- a symbol step adds no event: the account must bear what it does to the tables
      have hmove := symbolMove_of_symbolStep hstep
      exact h.effect hs (hmove.sound hs) (hmove.effect hs)
  | make other settings =>
    cases hset : Scheme.ofSettings? settings with
    | error f =>
      simp only [State.step, State.record, hset]
      exact h
    | ok scheme =>
      simp only [State.step, State.record, hset]
      by_cases heq : other = name
      · -- the name begins a new history with its new mangler
        subst heq
        rw [if_pos rfl]
        exact .ofScheme scheme
      · rw [if_neg heq]
        exact h.bind_of_ne heq _
  | use other u =>
    cases hm : st.manglers.get? other with
    | none =>
      simp only [State.step, State.record, hm]
      exact h
    | some m =>
      simp only [State.step, State.record, hm]
      by_cases heq : other = name
      · subst heq
        rw [if_pos rfl]
        exact h.use hs hm (hs.tableMove hm u)
      · -- uses of other manglers are no part of the history of this one
        rw [if_neg heq]
        exact h.bind_of_ne heq _

/-- **The invariant holds in every reachable state**, with the history that led there. -/
theorem Account.after (h : st.Account name past) (hs : st.Sound) (steps : List Step) :
    (st.after steps).Account name (st.recordAll name past steps) := by
  induction steps generalizing st past with
  | nil => exact h
  | cons s rest ih => exact ih (h.step hs s) (hs.step s)

end State

/-- The history of a name accounts for its mangler, whichever addresses are given out. -/
theorem account_history (a : Allocator) (name : String) (steps : List Step) :
    ((State.initial a).after steps).Account name (history a name steps) :=
  (State.Account.initial a).after (.initial a) steps

/-! ### Numbers -/

/-- **Numbers are assigned in the order 1, 2, 3, ...** A mangler assigns one exactly if it is asked
for the number of a symbol that has no entry, and its counter is one ahead. So no number is ever
answered for two symbols, whatever becomes of the first one before the second is made. -/
theorem numbers_assigned_in_order (a : Allocator) (name : String) (steps : List Step) :
    let st := (State.initial a).after steps
    let past := history a name steps
    (assignments past).map Prod.snd = List.range' 1 (assignments past).length ∧
    (∀ m, st.manglers.get? name = some m → m.table.next = (assignments past).length + 1) ∧
    (∀ s s' n b b', .handOut s n b ∈ past → .handOut s' n b' ∈ past → s = s') ∧
    ∀ m u s, st.manglers.get? name = some m →
      ((∃ c, st.Requests u s c) ↔ ∃ n b, st.event? m u = some (.handOut s n b)) ∧
      ∀ n b, st.event? m u = some (.handOut s n b) →
        (b = true ↔ m.table.find? s = none) ∧
        (st.step (.use name u)).2.outcome = st.answerWith m n u := by
  intro st past
  have h : st.Account name past := account_history a name steps
  refine ⟨h.orderly.numbers, fun m hm => h.next hm, ?_, ?_⟩
  · intro s s' n b b' hs hs'
    exact h.orderly.eq_of_handOut hs hs'
  · intro m u s hm
    refine ⟨⟨?_, ?_⟩, ?_⟩
    · rintro ⟨c, hreq⟩
      -- what is handed out is what the table says of the symbol
      exact ⟨_, _, State.event?_eq_handOut_iff.2 ⟨c, hreq, rfl⟩⟩
    · rintro ⟨n, b, hu⟩
      obtain ⟨c, hreq, -⟩ := State.event?_eq_handOut_iff.1 hu
      exact ⟨c, hreq⟩
    · intro n b hu
      exact ⟨(State.use_of_event? hu).1, State.outcome_of_event? hm hu⟩

/-- **The table is determined by the history.** It has one entry for each symbol for which a number
is standing and which still has a reference or is pinned, with that number. So a symbol keeps its
number until it is forgotten, whatever else happens: every later number in the history is the same
one, and so is every number that is answered, by itself or in a made-up name. -/
theorem table_determined_by_history (a : Allocator) (name : String) (steps : List Step) :
    let st := (State.initial a).after steps
    let past := history a name steps
    (∀ m, st.manglers.get? name = some m →
      (m.table.entries.entries.map fun x => x.2.symbol).Nodup ∧
      ∀ s n, (∃ x ∈ m.table.entries.entries, x.2.symbol = s ∧ x.2.number = n) ↔
        Standing past s n ∧ (st.isReferenced s = true ∨ st.isPinned s = true)) ∧
    (∀ before between since s n n' b b',
      past = (before ++ .handOut s n b :: between) ++ .handOut s n' b' :: since →
      .forget s ∉ between → n' = n) ∧
    ∀ m u s, st.manglers.get? name = some m →
      (∀ n b, st.event? m u = some (.handOut s n b) →
        (st.step (.use name u)).2.outcome = st.answerWith m n u) ∧
      ∀ c before between n b, st.Requests u s c → past = before ++ .handOut s n b :: between →
        .forget s ∉ between → (st.step (.use name u)).2.outcome = st.answerWith m n u := by
  intro st past
  have h : st.Account name past := account_history a name steps
  have hs : st.Sound := (State.Sound.initial a).after steps
  refine ⟨fun m hm => ⟨(hs.fits hm).nodup_symbols, fun s n => ?_⟩, ?_, ?_⟩
  · rw [← h.entry hm, (hs.fits hm).find?_eq_some_iff]
    refine ⟨?_, ?_⟩
    · rintro ⟨⟨key, e⟩, hx, hsym, hnum⟩
      exact ⟨key, e, Bindings.get?_eq_some_iff.2 hx, hsym, hnum⟩
    · rintro ⟨key, e, he, hsym, hnum⟩
      exact ⟨(key, e), Bindings.get?_eq_some_iff.1 he, hsym, hnum⟩
  · intro before between since s n n' b b' hp hf
    exact h.orderly.steady hp hf
  · intro m u s hm
    refine ⟨fun n b hu => State.outcome_of_event? hm hu, ?_⟩
    intro c before between n b hreq hp hf
    -- the answer shows the number that is handed out now, and that is still the old one
    have hu := State.event?_eq_handOut_iff.2 ⟨c, hreq, (rfl : State.handOut m.table s c = _)⟩
    have horderly := (h.step hs (.use name u)).orderly
    rw [State.record_use hm, hu, hp] at horderly
    rw [State.outcome_of_event? hm hu, horderly.steady rfl hf]

end NameMangling.Session
