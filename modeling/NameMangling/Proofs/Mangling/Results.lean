import NameMangling.Mangler

/-!
# What results are made of

When mangling gives a result, and which. A name is taken apart first (`Scheme.parts?`): into the
prefix that is put in front, and a body that is never empty. What is left is to encode the body, and
only this depends on whether odd names are quoted or escaped.

* `Scheme.mangle_eq_bind` — mangling is taking apart and encoding;
* `Scheme.parts?_eq_ok_iff` — the prefix and the body of a name;
* `Scheme.mangle_eq_encode` — the same behind a prefix that is a text, where the parts are known;
* `Scheme.encode_eq_ok_iff`, `Scheme.encode_text_eq_ok_iff` — the encoding in quoted mode, and what
  it comes to behind a text;
* `Mangler.mangleSymbol_eq_ok_iff` — the name under which a symbol is mangled.
-/

namespace NameMangling

theorem Value.before_eq_ok_iff {v : Value} {t out : Text} :
    v.before t = .ok out ↔ ∃ front, v = .text front ∧ front ++ t = out := by
  cases v <;> simp [Value.before]

/-- A name needs no quotes if it is all acceptable and does not begin with a digit. -/
theorem Policy.needsQuotes_eq_ok_false_iff {p : Policy} {bs : Bytes} :
    p.needsQuotes bs = .ok false ↔
      ∃ b rest, bs = b :: rest ∧ isDigit b = false ∧ ∀ c ∈ bs, p.accepts c = true := by
  cases bs with
  | nil => simp [Policy.needsQuotes]
  | cons b rest => simp [Policy.needsQuotes]

/-- The question is answered for bodies with bytes only. -/
theorem Policy.ne_nil_of_needsQuotes {p : Policy} {bs : Bytes} {needed : Bool}
    (h : p.needsQuotes bs = .ok needed) : bs ≠ [] := by
  rintro rfl
  cases h

namespace Scheme

variable {s : Scheme} {name kind front : Value} {body bs : Bytes} {full out : Text}

theorem prefixFor_name (s : Scheme) (k : PrefixKind) :
    s.prefixFor (.text k.name) = s.fullPrefix k := by
  rw [prefixFor, PrefixKind.ofValue?_name]

/-- **The parts of a name**: the prefix that is put in front and the body that is encoded. -/
def parts? (s : Scheme) (name kind : Value) : Except Fault (Value × Bytes) := do
  match ← name.toBytes with
  | [] => .error (.emptyName name)
  | b :: rest =>
    let front ← s.prefixFor kind
    if b = marker then
      if rest = [] then .error (.bareMarker name) else .ok (.text [], rest)
    else .ok (front, b :: rest)

/-- **Mangling is taking apart and encoding.** -/
theorem mangle_eq_bind (s : Scheme) (name kind : Value) :
    s.mangle name kind = s.parts? name kind >>= fun x => s.encode x.1 x.2 := by
  unfold mangle parts?
  cases name.toBytes with
  | error f => rfl
  | ok bs =>
    cases bs with
    | nil => rfl
    | cons b rest =>
      cases s.prefixFor kind with
      | error f => rfl
      | ok front =>
        -- both ask for the marker in the same place
        simp only [bind, Except.bind]
        split
        · split <;> rfl
        · rfl

/-- The marker takes away the prefix, and itself. -/
theorem parts?_eq_ok_iff :
    s.parts? name kind = .ok (front, body) ↔
      ∃ b rest full, name.toBytes = .ok (b :: rest) ∧ s.prefixFor kind = .ok full ∧
        (b = marker ∧ rest ≠ [] ∧ front = .text [] ∧ body = rest ∨
          b ≠ marker ∧ front = full ∧ body = b :: rest) := by
  refine ⟨?_, ?_⟩
  · intro h
    obtain ⟨bs, hbs, h⟩ := Fault.bind_eq_ok_iff.1 h
    cases bs with
    | nil => cases h
    | cons b rest =>
      -- the prefix must be there even if the marker takes it away
      obtain ⟨full, hfull, h⟩ := Fault.bind_eq_ok_iff.1 h
      refine ⟨b, rest, full, hbs, hfull, ?_⟩
      split at h
      · next hb =>
        split at h
        · cases h
        · next hr =>
          obtain ⟨rfl, rfl⟩ := Prod.mk.inj (Except.ok.inj h)
          exact .inl ⟨hb, hr, rfl, rfl⟩
      · next hb =>
        obtain ⟨rfl, rfl⟩ := Prod.mk.inj (Except.ok.inj h)
        exact .inr ⟨hb, rfl, rfl⟩
  · rintro ⟨b, rest, full, hbs, hfull, h⟩
    refine Fault.bind_eq_ok_iff.2 ⟨_, hbs, Fault.bind_eq_ok_iff.2 ⟨full, hfull, ?_⟩⟩
    rcases h with ⟨hb, hr, rfl, rfl⟩ | ⟨hb, rfl, rfl⟩
    · rw [if_pos hb, if_neg hr]
    · rw [if_neg hb]

theorem body_ne_nil (h : s.parts? name kind = .ok (front, body)) : body ≠ [] := by
  obtain ⟨b, rest, full, -, -, ⟨-, hr, -, rfl⟩ | ⟨-, -, rfl⟩⟩ := parts?_eq_ok_iff.1 h
  · exact hr
  · exact List.cons_ne_nil _ _

/-- The prefix that is put in front is that of the kind, or there is none. -/
theorem front_eq_or (h : s.parts? name kind = .ok (front, body)) :
    front = .text [] ∨ s.prefixFor kind = .ok front := by
  obtain ⟨b, rest, full, -, hfull, ⟨-, -, rfl, -⟩ | ⟨-, rfl, -⟩⟩ := parts?_eq_ok_iff.1 h
  · exact .inl rfl
  · exact .inr hfull

/-! ### Bodies and what is put in front of them -/

/-- **The body of a name** with given bytes: all of them, but for a marker at the beginning. -/
def bodyOf (bs : Bytes) : Bytes := if bs.head? = some marker then bs.tail else bs

/-- **What is put in front of the body** of a name with given bytes, if the full prefix is a text:
the prefix, or nothing behind a marker. -/
def frontOf (bs : Bytes) (full : Text) : Text := if bs.head? = some marker then [] else full

/-- The part of a name that is encoded is its body, whatever the prefix is. -/
theorem parts?_snd_eq (h : s.parts? name kind = .ok (front, body)) (hn : name.toBytes = .ok bs) :
    body = bodyOf bs := by
  obtain ⟨b, rest, full, hbs, -, hparts⟩ := parts?_eq_ok_iff.1 h
  obtain rfl : bs = b :: rest := Except.ok.inj (hn.symm.trans hbs)
  rw [bodyOf, List.head?_cons, List.tail_cons]
  rcases hparts with ⟨rfl, -, -, rfl⟩ | ⟨hb, -, rfl⟩
  · rw [if_pos rfl]
  · rw [if_neg fun h => hb (Option.some.inj h)]

/-- A name with a body is taken apart. -/
theorem parts?_eq_ok (hn : name.toBytes = .ok bs) (hp : s.prefixFor kind = .ok (.text full))
    (hb : bodyOf bs ≠ []) :
    s.parts? name kind = .ok (.text (frontOf bs full), bodyOf bs) := by
  cases bs with
  | nil => exact absurd rfl hb
  | cons b rest =>
    rw [bodyOf, List.head?_cons, List.tail_cons] at hb
    rw [bodyOf, frontOf, List.head?_cons, List.tail_cons]
    refine parts?_eq_ok_iff.2 ⟨b, rest, _, hn, hp, ?_⟩
    -- bodies and fronts are split at the marker just like the parts
    by_cases hm : b = marker
    · have hm' : some b = some marker := congrArg some hm
      rw [if_pos hm'] at hb
      rw [if_pos hm', if_pos hm']
      exact .inl ⟨hm, hb, rfl, rfl⟩
    · have hm' : ¬ some b = some marker := fun h => hm (Option.some.inj h)
      rw [if_neg hm', if_neg hm']
      exact .inr ⟨hm, rfl, rfl⟩

/-- **A name with a body is mangled** by encoding the body, behind a prefix that is a text. -/
theorem mangle_eq_encode (hn : name.toBytes = .ok bs) (hp : s.prefixFor kind = .ok (.text full))
    (hb : bodyOf bs ≠ []) :
    s.mangle name kind = s.encode (.text (frontOf bs full)) (bodyOf bs) := by
  rw [mangle_eq_bind, parts?_eq_ok hn hp hb]
  rfl

/-- A name that does not begin with the marker is encoded as it is, behind the prefix. -/
theorem mangle_of_unmarked (hn : name.toBytes = .ok bs)
    (hp : s.prefixFor kind = .ok (.text full)) (hne : bs ≠ []) (hmarker : bs.head? ≠ some marker) :
    s.mangle name kind = s.encode (.text full) bs := by
  have hbody : bodyOf bs = bs := if_neg hmarker
  have hfront : frontOf bs full = full := if_neg hmarker
  rw [mangle_eq_encode hn hp (hbody.symm ▸ hne), hbody, hfront]

/-! ### Encoding -/

/-- **The encoding in unquoted mode.** -/
theorem encode_of_not_useQuotes (hq : s.useQuotes = false) (front : Value) (body : Bytes) :
    s.encode front body = front.before (s.policy.escape body) :=
  if_neg (Bool.eq_false_iff.1 hq)

/-- **The encoding in quoted mode.** -/
theorem encode_eq_ok_iff (hq : s.useQuotes = true) :
    s.encode front body = .ok out ↔
      s.policy.needsQuotes body = .ok true ∧
          (∃ shown, front.shown = .ok shown ∧ Quote.enclose (shown ++ Quote.body body) = out) ∨
        s.policy.needsQuotes body = .ok false ∧ front.before (Text.ofBytes body) = .ok out := by
  rw [encode, if_pos hq, Fault.bind_eq_ok_iff]
  refine ⟨?_, ?_⟩
  · rintro ⟨needed, hn, h⟩
    cases needed with
    -- between quotes the prefix is shown, and only that may fail
    | true =>
      obtain ⟨shown, hshown, h⟩ := Fault.bind_eq_ok_iff.1 h
      exact .inl ⟨hn, shown, hshown, Except.ok.inj h⟩
    | false => exact .inr ⟨hn, h⟩
  · rintro (⟨hn, shown, hshown, rfl⟩ | ⟨hn, h⟩)
    · exact ⟨true, hn, Fault.bind_eq_ok_iff.2 ⟨shown, hshown, rfl⟩⟩
    · exact ⟨false, hn, h⟩

/-- The same behind a text, which is shown as it is. -/
theorem encode_text_eq_ok_iff (hq : s.useQuotes = true) {t : Text} :
    s.encode (.text t) body = .ok out ↔
      s.policy.needsQuotes body = .ok true ∧ Quote.enclose (t ++ Quote.body body) = out ∨
        s.policy.needsQuotes body = .ok false ∧ t ++ Text.ofBytes body = out := by
  rw [encode_eq_ok_iff hq, Value.shown_text, Value.before_text]
  simp only [Except.ok.injEq, exists_eq_left']

end Scheme

namespace Mangler

/-- **The name under which a symbol is mangled**: the one that it claims, with the suffix, or one
made up from its number. -/
theorem mangleSymbol_eq_ok_iff {m : Mangler} {id : SymbolId} {s : Symbol} {suffix out : Value}
    {forcePrivate : Bool} {address : Address} (hi : s.isIntrinsic = false) :
    (m.mangleSymbol id s suffix forcePrivate address).1 = .ok out ↔
      ∃ name t, out = .text t ∧
        m.scheme.mangle name (.text (s.kind forcePrivate).name) = .ok t ∧
        (s.isNamed = true ∧ s.name.append suffix = .ok name ∨
          s.isNamed = false ∧ ∃ madeUp, name = .text madeUp ∧
            unnamed (m.table.request ⟨id, address, s.isPinned⟩).1 suffix = .ok madeUp) := by
  -- a result is always a text
  have hmap : ∀ {x : Except Fault Text}, x.map Value.text = .ok out ↔
      ∃ t, out = .text t ∧ x = .ok t := by
    intro x
    cases x with
    | error f => simp [Except.map]
    | ok t => simp [Except.map, eq_comm]
  cases hn : s.isNamed with
  | true =>
    simp only [mangleSymbol, hi, hn, if_true, Bool.false_eq_true, if_false, Fault.bind_eq_ok_iff,
      hmap]
    -- the symbol has a name, to which the suffix is joined before it is mangled
    simp only [true_and, reduceCtorEq, false_and, or_false]
    refine ⟨?_, ?_⟩
    · rintro ⟨name, hname, t, ht, h⟩
      exact ⟨name, t, ht, h, hname⟩
    · rintro ⟨name, t, ht, h, hname⟩
      exact ⟨name, hname, t, ht, h⟩
  | false =>
    simp only [mangleSymbol_fst m id suffix forcePrivate address hi hn, Fault.bind_eq_ok_iff, hmap]
    -- the name is made up, and that may fail as well
    simp only [true_and, reduceCtorEq, false_and, false_or]
    refine ⟨?_, ?_⟩
    · rintro ⟨madeUp, hmadeUp, t, ht, h⟩
      exact ⟨_, t, ht, h, madeUp, rfl, hmadeUp⟩
    · rintro ⟨name, t, ht, h, madeUp, rfl, hmadeUp⟩
      exact ⟨madeUp, hmadeUp, t, ht, h⟩

end Mangler

end NameMangling
