import NameMangling.Proofs.Mangling.Modes

/-!
# Prefixes are only inserted

What prefixes do to a mangled name is said by comparison with the scheme that has none
(`Scheme.withoutPrefixes`): the prefix of the kind is put in front of the name or, if that is
between quotes, behind the opening quote. Nothing else depends on it. Whether there is something
wrong with a name (`Scheme.nameFault?`), whether it is put between quotes (`Scheme.PutsInQuotes`)
and what is written for its body is decided by its bytes alone, so it does no harm if a prefix is
empty, begins with a digit or holds quotes itself.

* `Scheme.mangle_eq_match` — mangling behind a text: a fault of the name, or the encoding of its
  body;
* `Scheme.encode_eq_insert` — where a text stands behind which a body is encoded;
* `Scheme.prefixes_only_inserted` — a scheme against the same one without prefixes.
-/

namespace NameMangling.Scheme

variable {s : Scheme} {name kind : Value} {body bs : Bytes} {full out : Text} {f : Fault}

/-! ### What is wrong with a name -/

/-- **What is wrong with a name** with given bytes: it is empty, or the marker is all there is. -/
def nameFault? (name : Value) (bs : Bytes) : Option Fault :=
  if bs = [] then some (.emptyName name)
  else if bs = [marker] then some (.bareMarker name)
  else none

theorem blamedName?_of_nameFault? (h : nameFault? name bs = some f) :
    f.blamedName? = some name := by
  unfold nameFault? at h
  split at h
  · exact Option.some.inj h ▸ rfl
  split at h
  · exact Option.some.inj h ▸ rfl
  · cases h

/-- A name with which nothing is wrong has a body. -/
theorem bodyOf_ne_nil_of_nameFault? (h : nameFault? name bs = none) : bodyOf bs ≠ [] := by
  cases bs with
  | nil => cases h
  | cons b rest =>
    rw [bodyOf, List.head?_cons, List.tail_cons]
    split
    · next hb =>
      rintro rfl
      obtain rfl := Option.some.inj hb
      cases h
    · exact List.cons_ne_nil b rest

/-- **Mangling behind a text**: a fault of the name, or the encoding of its body. -/
theorem mangle_eq_match (hp : s.prefixFor kind = .ok (.text full)) (hn : name.toBytes = .ok bs) :
    s.mangle name kind =
      match nameFault? name bs with
      | some f => .error f
      | none => s.encode (.text (frontOf bs full)) (bodyOf bs) := by
  cases hf : nameFault? name bs with
  | none => exact mangle_eq_encode hn hp (bodyOf_ne_nil_of_nameFault? hf)
  | some f =>
    unfold nameFault? at hf
    -- the two faults of a name are the two cases in which there is no body
    rcases mangle_cases hp hn with ⟨rfl, h⟩ | ⟨rfl, h⟩ | ⟨hne, hmarker, -⟩
    · rw [h, ← Option.some.inj hf]
    · rw [h, ← Option.some.inj hf]
    · rw [if_neg hne, if_neg hmarker] at hf
      cases hf

/-- **A fault of the name is all that goes wrong** behind a text. -/
theorem mangle_eq_error_iff (hp : s.prefixFor kind = .ok (.text full))
    (hn : name.toBytes = .ok bs) : s.mangle name kind = .error f ↔ nameFault? name bs = some f := by
  rw [mangle_eq_match hp hn]
  cases hf : nameFault? name bs with
  | some f' => simp
  | none =>
    obtain ⟨out, hout⟩ := exists_encode_eq_ok (s := s) (t := frontOf bs full)
      (bodyOf_ne_nil_of_nameFault? hf)
    simp [hout]

/-! ### Where a prefix stands -/

/-- **A body is put between quotes** in quoted mode, if it needs them. -/
def PutsInQuotes (s : Scheme) (body : Bytes) : Prop :=
  s.useQuotes = true ∧ s.policy.needsQuotes body = .ok true

/-- Between quotes a text stands behind the opening quote. -/
theorem encode_of_putsInQuotes (h : s.PutsInQuotes body) (front : Text) :
    s.encode (.text front) body = .ok (Quote.enclose (front ++ Quote.body body)) :=
  (encode_text_eq_ok_iff h.1).2 (.inl ⟨h.2, rfl⟩)

/-- Without quotes a text stands in front of the escaped body, in either mode. -/
theorem encode_of_not_putsInQuotes (hb : body ≠ []) (h : ¬ s.PutsInQuotes body) (front : Text) :
    s.encode (.text front) body = .ok (front ++ s.policy.escape body) := by
  cases hq : s.useQuotes with
  | false => rw [encode_of_not_useQuotes hq, Value.before_text]
  | true =>
    -- in quoted mode the question for quotes has an answer, since there is a body, and it is no
    obtain ⟨b, rest, rfl⟩ := List.exists_cons_of_ne_nil hb
    have hneeds : s.policy.needsQuotes (b :: rest) = .ok false :=
      congrArg Except.ok (Bool.eq_false_iff.2 fun hn => h ⟨hq, congrArg Except.ok hn⟩)
    rw [encode_of_needsQuotes_eq_false hneeds, Value.before_text]

/-- **What is encoded behind a text** is enclosed in quotes, or begins with the text and goes on with
the escaped body. -/
theorem eq_or_eq_of_encode {t : Text} (hb : body ≠ []) (h : s.encode (.text t) body = .ok out) :
    out = Quote.enclose (t ++ Quote.body body) ∨ out = t ++ s.policy.escape body := by
  by_cases hputs : s.PutsInQuotes body
  · rw [encode_of_putsInQuotes hputs] at h
    exact .inl (Except.ok.inj h).symm
  · rw [encode_of_not_putsInQuotes hb hputs] at h
    exact .inr (Except.ok.inj h).symm

/-- **Encoding behind a text inserts the text** in what is encoded behind nothing. -/
theorem encode_eq_insert (hb : body ≠ []) (h : s.encode (.text []) body = .ok out)
    (front : Text) :
    (s.PutsInQuotes body → ∃ inner, out = Quote.enclose inner ∧
      s.encode (.text front) body = .ok (Quote.enclose (front ++ inner))) ∧
    (¬ s.PutsInQuotes body → s.encode (.text front) body = .ok (front ++ out)) := by
  refine ⟨?_, ?_⟩
  · intro hputs
    have hout := h.symm.trans (encode_of_putsInQuotes hputs [])
    exact ⟨_, Except.ok.inj hout, encode_of_putsInQuotes hputs front⟩
  · intro hputs
    have hout := h.symm.trans (encode_of_not_putsInQuotes hb hputs [])
    obtain rfl : out = s.policy.escape body := Except.ok.inj hout
    exact encode_of_not_putsInQuotes hb hputs front

/-! ### With and without prefixes -/

/-- **A scheme without prefixes**, in the same mode and with the same acceptable bytes. -/
def withoutPrefixes (s : Scheme) : Scheme :=
  { s with defaultPrefix := .text [], privatePrefix := .text [], linkerPrivatePrefix := .text [] }

theorem prefixFor_withoutPrefixes (s : Scheme) (k : PrefixKind) :
    s.withoutPrefixes.prefixFor (.text k.name) = .ok (.text []) := by
  rw [prefixFor_name]
  cases k <;> rfl

/-- Without prefixes a name is encoded behind nothing, whatever its kind is. -/
theorem mangle_withoutPrefixes (s : Scheme) (k : PrefixKind) (hn : name.toBytes = .ok bs) :
    s.withoutPrefixes.mangle name (.text k.name) =
      match nameFault? name bs with
      | some f => .error f
      | none => s.encode (.text []) (bodyOf bs) := by
  have hfront : frontOf bs [] = [] := ite_self _
  rw [mangle_eq_match (s.prefixFor_withoutPrefixes k) hn, hfront]
  rfl

/-- **Prefixes are only inserted.** Compare a scheme whose prefixes are texts with the same scheme
without prefixes. Either both find the same fault in a name, which blames the name, or both give a
result. If the name begins with the marker, it is the same one. Otherwise the prefix of the kind is
put directly behind the opening quote of a name between quotes, and in front of any other. The
scheme without prefixes makes no difference between kinds. -/
theorem prefixes_only_inserted (htext : s.HasTextPrefixes) (k : PrefixKind)
    (hn : name.toBytes = .ok bs) :
    let result := s.mangle name (.text k.name)
    let plain := s.withoutPrefixes.mangle name (.text k.name)
    ∃ full, s.prefixFor (.text k.name) = .ok (.text full) ∧
      (∀ f, result = .error f ↔ plain = .error f) ∧
      (∀ f, result = .error f → f.blamedName? = some name) ∧
      (∀ out, plain = .ok out →
        (bs.head? = some marker → result = .ok out) ∧
        (bs.head? ≠ some marker → s.PutsInQuotes bs →
          ∃ inner, out = Quote.enclose inner ∧ result = .ok (Quote.enclose (full ++ inner))) ∧
        (bs.head? ≠ some marker → ¬ s.PutsInQuotes bs → result = .ok (full ++ out))) ∧
      ∀ k' : PrefixKind, s.withoutPrefixes.mangle name (.text k'.name) = plain := by
  intro result plain
  obtain ⟨full, hp⟩ := htext.prefixFor k
  -- behind a text the faults of a name are the only ones, so both schemes fail alike
  have hplain (k' : PrefixKind) := s.mangle_withoutPrefixes k' hn
  have hfault {f : Fault} : result = .error f ↔ nameFault? name bs = some f :=
    mangle_eq_error_iff hp hn
  have hfault' {f : Fault} : plain = .error f ↔ nameFault? name bs = some f :=
    mangle_eq_error_iff (s.prefixFor_withoutPrefixes k) hn
  refine ⟨full, hp, fun f => hfault.trans hfault'.symm,
    fun f h => blamedName?_of_nameFault? (hfault.1 h), ?_,
    fun k' => (hplain k').trans (hplain k).symm⟩
  intro out hout
  -- there is a result, so nothing is wrong with the name and it has a body
  have hnone : nameFault? name bs = none := by
    refine Option.eq_none_iff_forall_ne_some.2 fun f hf => ?_
    rw [hfault'.2 hf] at hout
    cases hout
  have hbody : bodyOf bs ≠ [] := bodyOf_ne_nil_of_nameFault? hnone
  have hresult : result = _ := mangle_eq_encode hn hp hbody
  -- what is to be compared is one body, encoded behind the prefix and behind nothing
  have hencode : s.encode (.text []) (bodyOf bs) = .ok out := by
    rw [hnone] at hplain
    exact (hplain k).symm.trans hout
  refine ⟨?_, ?_⟩
  · -- the marker keeps the prefix away, so both encode behind nothing
    intro hm
    rw [hresult, frontOf, if_pos hm, hencode]
  · -- without the marker the body is the whole name, so it decides about quotes
    rw [← imp_and]
    intro hm
    rw [hresult, frontOf, if_neg hm]
    rw [bodyOf, if_neg hm] at hbody hencode ⊢
    exact encode_eq_insert hbody hencode full

/-- A prefix that begins with a digit and ends with a double quote, and a name that needs quotes.
The marker is its last byte. -/
theorem prefixes_only_inserted_odd_prefix :
    let s : Scheme := ⟨.text (Text.ofString "\""), .text (Text.ofString "1"), .text [], true, .safe⟩
    let name := Value.buffer [0x61, 0x22, 0x01]
    let kind := Value.text PrefixKind.assemblerPrivate.name
    (s.HasTextPrefixes ∧ s.PutsInQuotes [0x61, 0x22, 0x01] ∧
      s.withoutPrefixes.mangle name kind = .ok (Text.ofString "\"a_QQ_\x01\"")) ∧
    s.mangle name kind = .ok (Text.ofString "\"1\"a_QQ_\x01\"") := by
  intro s name kind
  have htext : s.HasTextPrefixes := ⟨⟨_, rfl⟩, ⟨_, rfl⟩, ⟨_, rfl⟩⟩
  have hputs : s.PutsInQuotes [0x61, 0x22, 0x01] := ⟨rfl, rfl⟩
  have hplain : s.withoutPrefixes.mangle name kind = .ok (Text.ofString "\"a_QQ_\x01\"") := rfl
  have hbytes : name.toBytes = .ok [0x61, 0x22, 0x01] := rfl
  obtain ⟨full, hfull, -, -, hinsert, -⟩ := prefixes_only_inserted htext .assemblerPrivate hbytes
  obtain rfl : Text.ofString "1\"" = full := Value.text.inj (Except.ok.inj hfull)
  -- the quote in the prefix is none of those around the name
  obtain ⟨inner, hinner, hresult⟩ := (hinsert _ hplain).2.1 (by decide) hputs
  obtain rfl : Text.ofString "a_QQ_\x01" = inner :=
    List.append_cancel_right (List.cons.inj hinner).2
  exact ⟨⟨htext, hputs, hplain⟩, hresult⟩

end NameMangling.Scheme
