/-!
# Bindings

What keys are bound to. A key is bound to one thing at a time, and binding it again puts the new
thing in the place of the old one, so that binding a key to what it is bound to changes nothing
(`Bindings.set_of_get?`).

* `Bindings.get?_eq_some_iff` — looking a key up finds the entry with that key;
* `Bindings.any_eq_true_iff` — something is bound exactly if some key is bound to it.
-/

namespace NameMangling

/-- **What keys are bound to**, in the order in which the keys were first bound. No key stands
twice. -/
structure Bindings (κ α : Type) where
  entries : List (κ × α)
  nodup : (entries.map Prod.fst).Nodup
  deriving DecidableEq

namespace Bindings

variable {κ α : Type} [DecidableEq κ]

/-- No key is bound. -/
def empty : Bindings κ α := ⟨[], List.nodup_nil⟩

/-- What a key is bound to. -/
def get? (b : Bindings κ α) (key : κ) : Option α := b.entries.lookup key

/-- Entries with a key bound to something. -/
def setEntry (key : κ) (a : α) : List (κ × α) → List (κ × α)
  | [] => [(key, a)]
  | e :: rest => if e.1 = key then (key, a) :: rest else e :: setEntry key a rest

private theorem mem_keys_setEntry {key other : κ} {a : α} {es : List (κ × α)}
    (h : other ∈ (setEntry key a es).map Prod.fst) : other = key ∨ other ∈ es.map Prod.fst := by
  induction es with
  | nil => exact .inl (List.mem_singleton.1 h)
  | cons e rest ih =>
    rw [setEntry] at h
    split at h
    · exact (List.mem_cons.1 h).imp_right (List.mem_cons_of_mem _)
    · rcases List.mem_cons.1 h with h | h
      · exact .inr (List.mem_cons.2 (.inl h))
      · exact (ih h).imp_right (List.mem_cons_of_mem _)

private theorem nodup_setEntry (key : κ) (a : α) {es : List (κ × α)}
    (h : (es.map Prod.fst).Nodup) : ((setEntry key a es).map Prod.fst).Nodup := by
  induction es with
  | nil => exact List.nodup_cons.2 ⟨List.not_mem_nil, List.nodup_nil⟩
  | cons e rest ih =>
    obtain ⟨he, hrest⟩ := List.nodup_cons.1 h
    rw [setEntry]
    split
    · next hk => exact List.nodup_cons.2 ⟨hk ▸ he, hrest⟩
    · next hk =>
      refine List.nodup_cons.2 ⟨fun hm => ?_, ih hrest⟩
      rcases mem_keys_setEntry hm with hm | hm
      · exact hk hm
      · exact he hm

/-- The bindings with a key bound to something. -/
def set (b : Bindings κ α) (key : κ) (a : α) : Bindings κ α where
  entries := setEntry key a b.entries
  nodup := nodup_setEntry key a b.nodup

/-- The bindings without a key. -/
def erase (b : Bindings κ α) (key : κ) : Bindings κ α where
  entries := b.entries.filter fun e => e.1 != key
  nodup := b.nodup.sublist (List.filter_sublist.map _)

/-- The bindings with everything in them changed. -/
def map (f : α → α) (b : Bindings κ α) : Bindings κ α where
  entries := b.entries.map fun e => (e.1, f e.2)
  nodup := by
    rw [List.map_map]
    exact b.nodup

/-- Is any key bound to something of a kind? -/
def any (b : Bindings κ α) (p : α → Bool) : Bool := b.entries.any fun e => p e.2

/-! ### Looking up -/

@[simp] theorem get?_empty (key : κ) : (empty : Bindings κ α).get? key = none := rfl

/-- A key is bound to something exactly if the two are an entry. -/
theorem get?_eq_some_iff {b : Bindings κ α} {key : κ} {a : α} :
    b.get? key = some a ↔ (key, a) ∈ b.entries := by
  rw [get?, List.lookup_eq_some_iff]
  constructor
  · rintro ⟨front, back, he, -⟩
    rw [he]
    exact List.mem_append_right _ List.mem_cons_self
  · intro hm
    obtain ⟨front, back, he⟩ := List.append_of_mem hm
    refine ⟨front, back, he, fun p hp => ?_⟩
    -- an entry further in front with the same key would make the key stand twice
    have hn := b.nodup
    rw [he, List.map_append, List.nodup_append] at hn
    have hne := hn.2.2 p.1 (List.mem_map_of_mem hp) key (List.mem_map_of_mem List.mem_cons_self)
    simpa using hne.symm

private theorem lookup_cons_eq_ite (key other : κ) (a : α) (rest : List (κ × α)) :
    ((other, a) :: rest).lookup key = if key = other then some a else rest.lookup key := by
  rw [List.lookup_cons]
  by_cases h : key = other
  · rw [if_pos h, h, beq_self_eq_true]
  · rw [if_neg h, beq_false_of_ne h]

/-- Binding a key binds that key and no other. -/
@[simp] theorem get?_set (b : Bindings κ α) (key other : κ) (a : α) :
    (b.set key a).get? other = if other = key then some a else b.get? other := by
  change (setEntry key a b.entries).lookup other = if other = key then some a
    else b.entries.lookup other
  induction b.entries with
  | nil => rw [setEntry, lookup_cons_eq_ite]
  | cons e rest ih =>
    obtain ⟨k, c⟩ := e
    rw [setEntry, lookup_cons_eq_ite]
    -- Is this the entry that is replaced?
    by_cases hk : k = key
    · rw [if_pos hk, lookup_cons_eq_ite, hk]
      by_cases h : other = key
      · rw [if_pos h, if_pos h]
      · rw [if_neg h, if_neg h, if_neg h]
    · rw [if_neg hk, lookup_cons_eq_ite, ih]
      by_cases h : other = k
      · rw [if_pos h, if_pos h, if_neg (h ▸ hk)]
      · rw [if_neg h, if_neg h]

/-- Erasing a key erases that key and no other. -/
@[simp] theorem get?_erase (b : Bindings κ α) (key other : κ) :
    (b.erase key).get? other = if other = key then none else b.get? other := by
  change (b.entries.filter fun e => e.1 != key).lookup other = if other = key then none
    else b.entries.lookup other
  induction b.entries with
  | nil => by_cases h : other = key <;> simp [h]
  | cons e rest ih =>
    obtain ⟨k, c⟩ := e
    rw [List.filter_cons, lookup_cons_eq_ite]
    -- Is this the entry that goes?
    by_cases hk : k = key
    · rw [if_neg (by simpa using hk), ih, hk]
      by_cases h : other = key
      · rw [if_pos h, if_pos h]
      · rw [if_neg h, if_neg h, if_neg h]
    · rw [if_pos (by simpa using hk), lookup_cons_eq_ite, ih]
      by_cases h : other = k
      · rw [if_pos h, if_pos h, if_neg (h ▸ hk)]
      · rw [if_neg h, if_neg h]

/-- What is bound after binding a key is the new thing or was bound before. -/
theorem eq_or_of_get?_set {b : Bindings κ α} {key other : κ} {a c : α}
    (h : (b.set key a).get? other = some c) : c = a ∨ b.get? other = some c := by
  rw [get?_set] at h
  split at h
  · exact .inl (Option.some.inj h).symm
  · exact .inr h

/-- What is bound after erasing a key was bound before. -/
theorem get?_of_get?_erase {b : Bindings κ α} {key other : κ} {c : α}
    (h : (b.erase key).get? other = some c) : b.get? other = some c := by
  rw [get?_erase] at h
  split at h
  · cases h
  · exact h

/-- A change to everything changes what a key is bound to, and binds no key. -/
@[simp] theorem get?_map (f : α → α) (b : Bindings κ α) (key : κ) :
    (b.map f).get? key = (b.get? key).map f := by
  change (b.entries.map fun e => (e.1, f e.2)).lookup key = (b.entries.lookup key).map f
  induction b.entries with
  | nil => rfl
  | cons e rest ih =>
    rw [List.map_cons, lookup_cons_eq_ite, lookup_cons_eq_ite, ih]
    split <;> rfl

/-- Something is bound exactly if a key is bound to it. -/
theorem any_eq_true_iff {b : Bindings κ α} {p : α → Bool} :
    b.any p = true ↔ ∃ key a, b.get? key = some a ∧ p a = true := by
  rw [any, List.any_eq_true]
  constructor
  · rintro ⟨⟨key, a⟩, hm, hp⟩
    exact ⟨key, a, get?_eq_some_iff.2 hm, hp⟩
  · rintro ⟨key, a, hg, hp⟩
    exact ⟨(key, a), get?_eq_some_iff.1 hg, hp⟩

end Bindings

end NameMangling
