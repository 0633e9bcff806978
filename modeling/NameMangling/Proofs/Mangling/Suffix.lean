import NameMangling.Proofs.Mangling.MadeUp
import NameMangling.Proofs.Numbering.Lifetimes
import NameMangling.Proofs.Text.Joining

/-!
# Suffixes

Without quotes, a suffix is seen in the mangled name of a symbol as what is written for its own
bytes, behind the mangled name without a suffix. There is nothing in the name that the suffix could
change: the rule for digits and the marker concern its first byte, and a name that has a mangled
form has a first byte already (`Scheme.mangle_append`). And there is nothing in the suffix that
depends on the name, but for the rule by which the encoder writes them both. So none of the two may
overrule the other (`Text.Overrules`). A made-up name is ASCII and has no part in this.

An unnamed symbol is given its number by the first of two manglings, and the second one finds it
(`IdTable.request_request`).

* `Mangler.mangleSymbol_append` — a symbol mangled without a suffix, and then with one;
* `Session.suffix_only_appends` — the same as two steps of a session.
-/

namespace NameMangling

/-! ### More bytes behind a name -/

/-- What is written for more bytes behind a body does not depend on the body. -/
theorem Policy.escape_append {p : Policy} {bs : Bytes} (hne : bs ≠ []) (rest : Bytes) :
    p.escape (bs ++ rest) = p.escape bs ++ rest.flatMap p.write := by
  obtain ⟨b, bs, rfl⟩ := List.exists_cons_of_ne_nil hne
  rw [List.cons_append, escape_cons, escape_cons, List.flatMap_append, List.append_assoc]

namespace Scheme

variable {s : Scheme} {name longer kind front : Value} {bs rest body : Bytes} {out : Text}

/-- More bytes behind a name are more bytes behind its body. -/
theorem parts?_append (hn : name.toBytes = .ok bs) (hl : longer.toBytes = .ok (bs ++ rest))
    (h : s.parts? name kind = .ok (front, body)) :
    s.parts? longer kind = .ok (front, body ++ rest) := by
  obtain ⟨b, more, full, hbs, hp, hparts⟩ := parts?_eq_ok_iff.1 h
  obtain rfl : bs = b :: more := Except.ok.inj (hn.symm.trans hbs)
  refine parts?_eq_ok_iff.2 ⟨b, more ++ rest, full, hl, hp, ?_⟩
  -- the first byte is there already, so more bytes make no marker and take none away
  rcases hparts with ⟨hb, hmore, hfront, rfl⟩ | ⟨hb, hfront, rfl⟩
  · exact .inl ⟨hb, List.append_ne_nil_of_left_ne_nil hmore rest, hfront, rfl⟩
  · exact .inr ⟨hb, hfront, rfl⟩

/-- **More bytes behind a name** that has a mangled form are written behind that. -/
theorem mangle_append (hq : s.useQuotes = false) (hn : name.toBytes = .ok bs)
    (hl : longer.toBytes = .ok (bs ++ rest)) (h : s.mangle name kind = .ok out) :
    s.mangle longer kind = .ok (out ++ rest.flatMap s.policy.write) := by
  rw [mangle_eq_bind] at h
  obtain ⟨⟨front, body⟩, hparts, h⟩ := Fault.bind_eq_ok_iff.1 h
  rw [encode_of_not_useQuotes hq] at h
  -- a result without quotes is the front, a text, before the escaped body
  obtain ⟨t, rfl, rfl⟩ := Value.before_eq_ok_iff.1 h
  rw [mangle_eq_bind, parts?_append hn hl hparts]
  calc s.encode (.text t) (body ++ rest)
      = .ok (t ++ s.policy.escape (body ++ rest)) := by
        rw [encode_of_not_useQuotes hq, Value.before_text]
    _ = .ok (t ++ s.policy.escape body ++ rest.flatMap s.policy.write) := by
        rw [Policy.escape_append (body_ne_nil hparts), List.append_assoc]

end Scheme

/-! ### A symbol mangled twice -/

/-- **A number that has been given out is found**: to ask for it again changes nothing. -/
theorem IdTable.request_request (t : IdTable) (h : Handle) :
    (t.request h).2.request h = t.request h := by
  have hassign : (t.assign h).request h = (t.next, t.assign h) := by
    rw [request, get?_assign, if_pos rfl]
    exact if_pos rfl
  -- an entry for the symbol is there before or is made now, and if there is one nothing is changed
  have hkept : t.request h = (t.next, t.assign h) ∨ (t.request h).2 = t := by
    unfold request
    split
    · split
      · exact .inr rfl
      · exact .inl rfl
    · exact .inl rfl
  rcases hkept with heq | heq
  · rw [heq, hassign]
  · rw [heq]

namespace Mangler

/-- The bytes of a made-up name with a suffix end with those of the suffix. -/
theorem toBytes_stem_append (n : Nat) (suffix : Text) :
    (stem n ++ suffix).toBytes = (stem n).toBytes ++ suffix.toBytes := by
  rw [Text.toBytes_append_of_isAscii (isAscii_stem n), Text.toBytes_of_isAscii (isAscii_stem n)]

/-- **A suffix is written behind the mangled form of a symbol**, if the symbol has no name or one
that is a text, and neither the name nor the suffix overrules the other. -/
theorem mangleSymbol_append {m : Mangler} {id : SymbolId} {s : Symbol} {suffix : Text}
    {forcePrivate : Bool} {address : Address} {out : Value} (hq : m.scheme.useQuotes = false)
    (hi : s.isIntrinsic = false)
    (hname : s.isNamed = true →
      ∃ t, s.name = .text t ∧ ¬ t.Overrules suffix ∧ ¬ suffix.Overrules t)
    (h : (m.mangleSymbol id s (.text []) forcePrivate address).1 = .ok out) :
    ∃ t, out = .text t ∧
      ((m.mangleSymbol id s (.text []) forcePrivate address).2.mangleSymbol id s (.text suffix)
          forcePrivate address).1 =
        .ok (.text (t ++ suffix.toBytes.flatMap m.scheme.policy.write)) := by
  obtain ⟨name, t, rfl, ht, hmade⟩ := (mangleSymbol_eq_ok_iff hi).1 h
  refine ⟨t, rfl, (mangleSymbol_eq_ok_iff hi).2 ?_⟩
  -- the second mangling begins with the mangler that the first one leaves
  rw [mangleSymbol_snd, hi, Bool.false_or]
  rcases hmade with ⟨hn, hjoin⟩ | ⟨hn, madeUp, rfl, hmadeUp⟩
  · -- the name is the text that the symbol has, and the mangler is still the same
    obtain ⟨u, hu, hover, hover'⟩ := hname hn
    rw [hu, Value.append_text, List.append_nil] at hjoin
    obtain rfl := Except.ok.inj hjoin
    have hbytes : (Value.text (u ++ suffix)).toBytes = .ok (u.toBytes ++ suffix.toBytes) :=
      congrArg Except.ok (Text.toBytes_append_of_not_overrules hover hover')
    rw [hn, if_pos rfl]
    exact ⟨.text (u ++ suffix), _, rfl, Scheme.mangle_append hq rfl hbytes ht,
      .inl ⟨rfl, by rw [hu, Value.append_text]⟩⟩
  · -- both names are made up from one number: it is given for the first, and found for the second
    generalize hnumber : (m.table.request ⟨id, address, s.isPinned⟩).1 = n at hmadeUp
    obtain rfl : stem n ++ [] = madeUp := Except.ok.inj hmadeUp
    have hplain : (Value.text (stem n ++ [])).toBytes = .ok (stem n).toBytes :=
      congrArg (fun t => Except.ok (Text.toBytes t)) (List.append_nil _)
    have hbytes : (Value.text (stem n ++ suffix)).toBytes =
        .ok ((stem n).toBytes ++ suffix.toBytes) := congrArg Except.ok (toBytes_stem_append n _)
    rw [hn, if_neg Bool.false_ne_true]
    refine ⟨_, _, rfl, Scheme.mangle_append hq hplain hbytes ht, .inr ⟨rfl, _, rfl, ?_⟩⟩
    rw [IdTable.request_request, hnumber, unnamed_text]

end Mangler

namespace Session

variable {st : State} {name sym : String} {m : Mangler} {id : SymbolId} {c : Cell}

theorem State.step_use (hm : st.manglers.get? name = some m) (u : ManglerUse) :
    st.step (.use name u) =
      (st.bind name (st.use m u).2,
        ⟨(st.use m u).1, some (.ofMangler (st.use m u).2)⟩) := by
  simp only [State.step, hm]

theorem State.use_mangleSymbol (hsym : st.symbol? sym = .ok (id, c)) (m : Mangler) (suffix : Value)
    (forcePrivate : Bool) :
    st.use m (.mangleSymbol sym suffix forcePrivate) =
      ((m.mangleSymbol id c.symbol suffix forcePrivate c.address).1.map Outcome.value,
        (m.mangleSymbol id c.symbol suffix forcePrivate c.address).2) := by
  simp only [State.use, hsym]

/-- **A suffix only appends.** In any state of a session, let a mangler without quotes mangle a
symbol that is no intrinsic and has no name or a text for one, first without a suffix and right
after that with a text for a suffix. If the first step has a result, then the second one has the
same with what is written for the bytes of the suffix behind it: the character of an acceptable
byte, digits included, and the escape of any other byte. Only where the name or the suffix overrules
the other it may be different. -/
theorem suffix_only_appends (st : State) (name sym : String) (suffix : Text) (forcePrivate : Bool)
    (m : Mangler) (id : SymbolId) (c : Cell) (out : Value) :
    let plain := Step.use name (.mangleSymbol sym (.text []) forcePrivate)
    let suffixed := Step.use name (.mangleSymbol sym (.text suffix) forcePrivate)
    st.manglers.get? name = some m → m.scheme.useQuotes = false →
    st.symbol? sym = .ok (id, c) → c.symbol.isIntrinsic = false →
    (c.symbol.isNamed = true →
      ∃ t, c.symbol.name = .text t ∧ ¬ t.Overrules suffix ∧ ¬ suffix.Overrules t) →
    (st.step plain).2.outcome = .ok (.value out) →
    ∃ t, out = .text t ∧
      ((st.step plain).1.step suffixed).2.outcome =
        .ok (.value (.text (t ++ suffix.toBytes.flatMap m.scheme.policy.write))) := by
  intro plain suffixed hm hq hsym hi hname h
  let m' := (m.mangleSymbol id c.symbol (.text []) forcePrivate c.address).2
  have hstep : (st.step plain).1 = st.bind name m' := by
    rw [State.step_use hm, State.use_mangleSymbol hsym]
  -- that the step has an outcome means that the symbol has a mangled form
  have hfirst : (m.mangleSymbol id c.symbol (.text []) forcePrivate c.address).1 = .ok out := by
    rw [State.step_use hm, State.use_mangleSymbol hsym] at h
    cases hmangled : (m.mangleSymbol id c.symbol (.text []) forcePrivate c.address).1 with
    | error f =>
      rw [hmangled] at h
      cases h
    | ok v =>
      rw [hmangled] at h
      exact congrArg Except.ok (Outcome.value.inj (Except.ok.inj h))
  obtain ⟨t, rfl, hsecond⟩ := Mangler.mangleSymbol_append hq hi hname hfirst
  refine ⟨t, rfl, ?_⟩
  -- the second step finds the mangler that the first one has left, and the same symbol
  have hm' : (st.bind name m').manglers.get? name = some m' := State.get?_bind_self st name m'
  have hsym' : (st.bind name m').symbol? sym = .ok (id, c) := hsym
  rw [hstep, State.step_use hm', State.use_mangleSymbol hsym']
  exact congrArg (Except.map Outcome.value) hsecond

/-- A marked name that begins with a digit and ends with a stand-in, and a suffix that begins with a
digit and holds a character beyond ASCII. -/
theorem suffix_only_appends_marked_digit :
    let t : Text := [.ofByte Scheme.marker, .ofByte 0x39, .standIn 0xFF]
    let suffix := Text.ofString "0 é"
    let st := (State.initial .next).after
      [.make "m" { defaultPrefix := .text (Text.ofString "_") },
        .symbol (.make "f" (.declared { role := .function, name := .text t }))]
    let plain := Step.use "m" (.mangleSymbol "f" (.text []) true)
    let suffixed := Step.use "m" (.mangleSymbol "f" (.text suffix) true)
    (¬ t.Overrules suffix ∧ ¬ suffix.Overrules t ∧
      (st.step plain).2.outcome = .ok (.value (.text (Text.ofString "_39__FF_")))) ∧
    ((st.step plain).1.step suffixed).2.outcome =
      .ok (.value (.text (Text.ofString "_39__FF_0_20__C3__A9_"))) := by
  intro t suffix st plain suffixed
  have hover : ¬ t.Overrules suffix ∧ ¬ suffix.Overrules t := by decide
  have hplain : (st.step plain).2.outcome = .ok (.value (.text (Text.ofString "_39__FF_"))) := rfl
  have happend := suffix_only_appends st "m" "f" suffix true _ 0 _ _ rfl rfl rfl rfl
    (fun _ => ⟨t, rfl, hover⟩) hplain
  obtain ⟨_, hout, hsuffixed⟩ := happend
  obtain rfl := Value.text.inj hout
  exact ⟨⟨hover.1, hover.2, hplain⟩, hsuffixed⟩

end Session

end NameMangling
