import NameMangling.Proofs.Text.Encoding

/-!
# Which texts survive as bytes

A text that is written as bytes and decoded again does not always come back. Two things go wrong,
and no others. A stray surrogate never comes out of the decoder. And stand-ins side by side may hold
the bytes of a code point between them (`Text.Hides`): apart they stood for undecodable bytes, but
their bytes in a row are a sequence, and the decoder finds it.

Nothing else fuses, because encodings can be told apart at any byte. An encoding is a lead byte and
continuation bytes (`Utf8.exists_encode_eq_cons`), so what continues a sequence cannot be the
beginning of another code point, and must be held by stand-ins
(`Text.exists_standIns_of_isPrefix`).

* `Text.not_hides_of_isInfix_ofBytes` — a decoded text hides nothing;
* `Text.ofBytes_flatMap_rawBytes` — a text without stray surrogates that hides nothing comes back;
* `Text.ofBytes_toBytes_eq_iff` — the two together.
-/

namespace NameMangling

/-! ### Hidden code points -/

namespace Text

variable {t group : Text} {bs : Bytes} {c : CodePoint}

/-- **A hidden code point**: all of a group are stand-ins, and the bytes that they hold are the
encoding of a code point that is no surrogate. -/
def Hides (group : Text) (c : CodePoint) : Prop :=
  c.isSurrogate = false ∧ group.map CodePoint.heldByte? = (Utf8.encode c).map some

theorem Hides.ne_nil (h : group.Hides c) : group ≠ [] := by
  rintro rfl
  have hnil : Utf8.encode c = [] := List.map_eq_nil_iff.1 h.2.symm
  have hpos : 0 < (Utf8.encode c).length := Utf8.length_encode_pos c
  rw [hnil] at hpos
  exact absurd hpos (Nat.lt_irrefl 0)

theorem Hides.heldByte?_ne_none {d : CodePoint} (h : group.Hides c) (hd : d ∈ group) :
    d.heldByte? ≠ none := by
  have hmem : d.heldByte? ∈ (Utf8.encode c).map some := h.2 ▸ List.mem_map_of_mem hd
  obtain ⟨b, -, hb⟩ := List.mem_map.1 hmem
  exact hb ▸ Option.some_ne_none b

/-- The bytes of a group of stand-ins are those that they hold. -/
theorem flatMap_rawBytes_of_map_heldByte? (h : group.map CodePoint.heldByte? = bs.map some) :
    group.flatMap CodePoint.rawBytes = bs := by
  induction group generalizing bs with
  | nil => exact (List.map_eq_nil_iff.1 h.symm).symm
  | cons d group ih =>
    cases bs with
    | nil => cases h
    | cons b bs =>
      obtain ⟨hd, hgroup⟩ := List.cons.inj h
      rw [List.flatMap_cons, ih hgroup, CodePoint.rawBytes, hd, List.singleton_append]

/-- **Continuation bytes come from stand-ins.** Every other code point would begin with a byte that
continues nothing. -/
theorem exists_standIns_of_isPrefix (hbs : ∀ b ∈ bs, Utf8.IsContinuation b)
    (h : bs <+: t.flatMap CodePoint.rawBytes) :
    ∃ group, group <+: t ∧ group.map CodePoint.heldByte? = bs.map some := by
  -- by induction on the bytes: each of them takes one code point off the text
  induction bs generalizing t with
  | nil => exact ⟨[], List.nil_prefix, rfl⟩
  | cons b bs ih =>
    obtain ⟨hb, hbs⟩ := List.forall_mem_cons.1 hbs
    cases t with
    | nil => exact absurd (List.prefix_nil.1 h) (List.cons_ne_nil _ _)
    | cons c t =>
      rw [List.flatMap_cons] at h
      cases hheld : c.heldByte? with
      | none =>
        obtain ⟨lead, rest, hencode, hlead, -⟩ := Utf8.exists_encode_eq_cons c
        rw [CodePoint.rawBytes, hheld, hencode] at h
        obtain rfl : b = lead := (List.cons_prefix_cons.1 h).1
        -- a lead byte is ASCII or from 0xC0 up, and continues nothing
        rw [Utf8.IsContinuation] at hb
        omega
      | some a =>
        rw [CodePoint.rawBytes, hheld, List.singleton_append] at h
        obtain ⟨rfl, hrest⟩ := List.cons_prefix_cons.1 h
        obtain ⟨group, hgroup, hholds⟩ := ih hbs hrest
        refine ⟨c :: group, List.cons_prefix_cons.2 ⟨rfl, hgroup⟩, ?_⟩
        rw [List.map_cons, List.map_cons, hheld, hholds]

/-! ### Both directions -/

/-- **A decoded text hides nothing**: where the stand-ins would begin, the decoder would have found
the code point. -/
theorem not_hides_of_isInfix_ofBytes (h : group <:+: ofBytes bs) : ¬ group.Hides c := by
  intro hhides
  induction bs using ofBytes_induction with
  | nil => exact hhides.ne_nil (List.infix_nil.1 h)
  | sequence d rest hs ih =>
    rw [ofBytes_encode_append hs] at h
    refine (List.infix_cons_iff.1 h).elim (fun hprefix => ?_) ih
    -- the group would begin with a code point that is no stand-in
    obtain ⟨e, more, rfl⟩ := List.exists_cons_of_ne_nil hhides.ne_nil
    obtain rfl : e = d := (List.cons_prefix_cons.1 hprefix).1
    exact hhides.heldByte?_ne_none List.mem_cons_self
      (CodePoint.heldByte?_eq_none_of_isSurrogate_eq_false hs)
  | undecodable a rest hf ih =>
    rw [ofBytes_cons_of_front?_eq_none hf] at h
    refine (List.infix_cons_iff.1 h).elim (fun hprefix => ?_) ih
    rw [← ofBytes_cons_of_front?_eq_none hf] at hprefix
    obtain ⟨back, hback⟩ := hprefix
    -- written as bytes again, the decoded text begins with what the group holds
    have hencode : Utf8.encode c <+: a :: rest := by
      refine ⟨back.flatMap CodePoint.rawBytes, ?_⟩
      calc Utf8.encode c ++ back.flatMap CodePoint.rawBytes
          = (group ++ back).flatMap CodePoint.rawBytes := by
            rw [List.flatMap_append, flatMap_rawBytes_of_map_heldByte? hhides.2]
        _ = (ofBytes (a :: rest)).toBytes := by
            rw [hback, toBytes_of_any_isStray_eq_false (any_isStray_ofBytes _)]
        _ = a :: rest := toBytes_ofBytes _
    rw [Utf8.front?_eq_some_iff.2 ⟨hhides.1, hencode⟩] at hf
    cases hf

/-- **A text that hides nothing comes back**, if it has no stray surrogates. -/
theorem ofBytes_flatMap_rawBytes (hstray : ∀ c ∈ t, c.isStray = false)
    (hhides : ∀ group, group <:+: t → ∀ c, ¬ Hides group c) :
    ofBytes (t.flatMap CodePoint.rawBytes) = t := by
  induction t with
  | nil => rfl
  | cons c t ih =>
    obtain ⟨hc, hstray⟩ := List.forall_mem_cons.1 hstray
    have hrest : ofBytes (t.flatMap CodePoint.rawBytes) = t :=
      ih hstray fun group hgroup => hhides group (hgroup.trans (List.suffix_cons c t).isInfix)
    rw [List.flatMap_cons]
    cases hs : c.isSurrogate with
    | false =>
      rw [CodePoint.rawBytes_of_isSurrogate_eq_false hs, ofBytes_encode_append hs, hrest]
    | true =>
      obtain ⟨a, ha⟩ : ∃ a, c.heldByte? = some a := by
        rw [CodePoint.isStray, hs, Bool.true_and] at hc
        exact Option.isSome_iff_exists.1 (Option.isNone_eq_false_iff.1 hc)
      -- a code point that begins here would be hidden by this stand-in and some that follow
      have hfront : Utf8.front? (a :: t.flatMap CodePoint.rawBytes) = none := by
        by_contra hsome
        obtain ⟨d, hd⟩ := Option.ne_none_iff_exists'.1 hsome
        obtain ⟨hds, hencode⟩ := Utf8.front?_eq_some_iff.1 hd
        obtain ⟨lead, more, heq, -, hmore⟩ := Utf8.exists_encode_eq_cons d
        rw [heq] at hencode
        obtain ⟨rfl, hcontinue⟩ := List.cons_prefix_cons.1 hencode
        obtain ⟨group, hgroup, hholds⟩ := exists_standIns_of_isPrefix hmore hcontinue
        have hprefix : c :: group <+: c :: t := List.cons_prefix_cons.2 ⟨rfl, hgroup⟩
        refine hhides (c :: group) hprefix.isInfix d ⟨hds, ?_⟩
        rw [heq, List.map_cons, List.map_cons, ha, hholds]
      rw [CodePoint.rawBytes, ha, List.singleton_append, ofBytes_cons_of_front?_eq_none hfront,
        hrest, ← CodePoint.eq_standIn_of_heldByte? ha]

/-- **Which texts survive as bytes**: exactly those whose surrogates are all stand-ins, and in which
no stand-ins side by side hide a code point. -/
theorem ofBytes_toBytes_eq_iff :
    ofBytes t.toBytes = t ↔
      (∀ c ∈ t, c.isSurrogate = true → 0xDC80 ≤ c.val ∧ c.val ≤ 0xDCFF) ∧
        ∀ group, group <:+: t → ∀ c, ¬ Hides group c := by
  rw [← any_isStray_eq_false_iff]
  refine ⟨?_, ?_⟩
  · intro h
    -- a text that comes back is a decoded one
    rw [← h]
    exact ⟨any_isStray_ofBytes _, fun group hgroup c => not_hides_of_isInfix_ofBytes hgroup⟩
  · rintro ⟨hstray, hhides⟩
    rw [toBytes_of_any_isStray_eq_false hstray]
    exact ofBytes_flatMap_rawBytes (fun c hc => by simpa using List.any_eq_false.1 hstray c hc)
      hhides

-- Two stand-ins that hide U+E9, and the same two the other way round.
example : ofBytes (toBytes [.standIn 0xC3, .standIn 0xA9]) = [⟨0xE9, by decide⟩] := by decide

example : ofBytes (toBytes [.standIn 0xA9, .standIn 0xC3]) = [.standIn 0xA9, .standIn 0xC3] := by
  decide

end Text

end NameMangling
