import NameMangling.Proofs.Text.Encoding

/-!
# Writing texts that have been joined

The encoder chooses one rule for a whole text: with a stray surrogate anywhere in it, every stand-in
is written like one, in three bytes instead of the one byte that it holds. So the bytes of two texts
that have been joined need not be the bytes of the one and then those of the other. It goes wrong
where one of the two chooses for the other (`Text.Overrules`): there is a stray surrogate in it, and
in the other one there is none, but there are stand-ins. It goes wrong nowhere else.

That it always goes wrong there can be seen from the lengths alone. No code point gets shorter by
the other rule, and a stand-in gets longer, so no bytes in another place can make up for it.

* `Text.overrules_iff` — a text overrules another one if it makes the encoder write it differently;
* `Text.toBytes_append_eq_iff` — when texts that have been joined are written one after the other.
-/

namespace NameMangling

/-! ### The two rules -/

namespace CodePoint

variable {c : CodePoint}

/-- **A stand-in** is one of U+DC80 to U+DCFF. -/
def IsStandIn (c : CodePoint) : Prop := 0xDC80 ≤ c.val ∧ c.val ≤ 0xDCFF

instance : DecidablePred IsStandIn := fun _ => inferInstanceAs (Decidable (_ ∧ _))

theorem isStray_iff_not_isStandIn :
    c.isStray = true ↔ c.isSurrogate = true ∧ ¬ c.IsStandIn := by
  rw [isStray, Bool.and_eq_true, Option.isNone_iff_eq_none]
  exact and_congr_right fun _ => heldByte?_eq_none_iff

theorem length_rawBytes_le (c : CodePoint) : c.rawBytes.length ≤ (Utf8.encode c).length := by
  unfold rawBytes
  split
  · exact Utf8.length_encode_pos c
  · exact Nat.le_refl _

/-- A stand-in is written in one byte by the one rule and in three by the other. -/
theorem IsStandIn.length_rawBytes_lt (h : c.IsStandIn) :
    c.rawBytes.length < (Utf8.encode c).length := by
  obtain ⟨b, hb⟩ : ∃ b, c.heldByte? = some b :=
    Option.ne_none_iff_exists'.1 fun hnone => heldByte?_eq_none_iff.1 hnone h
  have hraw : c.rawBytes.length = 1 := by
    rw [rawBytes, hb]
    rfl
  have hencode : (Utf8.encode c).length = 3 := by
    rw [IsStandIn] at h
    rw [Utf8.encode, if_neg (by omega), if_neg (by omega), if_pos (by omega)]
    rfl
  omega

end CodePoint

namespace Text

variable {t u : Text}

theorem length_flatMap_rawBytes_le (t : Text) :
    (t.flatMap CodePoint.rawBytes).length ≤ (t.flatMap Utf8.encode).length := by
  induction t with
  | nil => exact Nat.le_refl 0
  | cons c t ih =>
    rw [List.flatMap_cons, List.flatMap_cons, List.length_append, List.length_append]
    exact Nat.add_le_add c.length_rawBytes_le ih

/-- **The two rules agree** on texts without stand-ins only. -/
theorem flatMap_rawBytes_eq_iff :
    t.flatMap CodePoint.rawBytes = t.flatMap Utf8.encode ↔ ∀ c ∈ t, ¬ c.IsStandIn := by
  refine ⟨?_, ?_⟩
  · intro heq c hc hstandIn
    obtain ⟨front, back, rfl⟩ := List.append_of_mem hc
    -- the bytes of the stand-in are fewer, and those around it are not more
    have hfront := length_flatMap_rawBytes_le front
    have hback := length_flatMap_rawBytes_le back
    have hlt := hstandIn.length_rawBytes_lt
    have hlength := congrArg List.length heq
    simp only [List.flatMap_append, List.flatMap_cons, List.length_append] at hlength
    omega
  · intro h
    refine List.flatMap_congr fun c hc => ?_
    rw [CodePoint.rawBytes, CodePoint.heldByte?_eq_none_iff.2 (h c hc)]

/-! ### One rule for two texts -/

/-- **A text overrules another one** if it has a surrogate that is no stand-in, and the other one
has stand-ins and no other surrogates. -/
def Overrules (t u : Text) : Prop :=
  (∃ c ∈ t, c.isSurrogate = true ∧ ¬ c.IsStandIn) ∧
    (∃ c ∈ u, c.IsStandIn) ∧ ∀ c ∈ u, c.isSurrogate = true → c.IsStandIn

instance (t u : Text) : Decidable (Overrules t u) := inferInstanceAs (Decidable (_ ∧ _ ∧ _))

theorem any_isStray_eq_true_iff :
    t.any CodePoint.isStray = true ↔ ∃ c ∈ t, c.isSurrogate = true ∧ ¬ c.IsStandIn := by
  simp only [List.any_eq_true, CodePoint.isStray_iff_not_isStandIn]

/-- **What overruling does**: a stray surrogate makes the other text be written differently. -/
theorem overrules_iff :
    t.Overrules u ↔ t.any CodePoint.isStray = true ∧ u.toBytes ≠ u.flatMap Utf8.encode := by
  rw [Overrules, ← any_isStray_eq_true_iff]
  refine and_congr_right fun _ => ?_
  cases hu : u.any CodePoint.isStray with
  | true =>
    -- such a text has chosen for itself
    refine ⟨?_, fun hne => absurd (toBytes_of_any_isStray hu) hne⟩
    rintro ⟨-, hall⟩
    obtain ⟨c, hc, hs, hnot⟩ := any_isStray_eq_true_iff.1 hu
    exact absurd (hall c hc hs) hnot
  | false =>
    rw [toBytes_of_any_isStray_eq_false hu, ne_eq, flatMap_rawBytes_eq_iff, not_forall₂]
    refine ⟨?_, ?_⟩
    · rintro ⟨⟨c, hc, hstandIn⟩, -⟩
      exact ⟨c, hc, not_not.2 hstandIn⟩
    · rintro ⟨c, hc, hnot⟩
      exact ⟨⟨c, hc, not_not.1 hnot⟩, any_isStray_eq_false_iff.1 hu⟩

/-- A stray surrogate in the first text decides for both. -/
theorem toBytes_append_of_any_isStray_left (h : t.any CodePoint.isStray = true) (u : Text) :
    (t ++ u).toBytes = t.toBytes ++ u.flatMap Utf8.encode := by
  have hany : (t ++ u).any CodePoint.isStray = true := by rw [List.any_append, h, Bool.true_or]
  rw [toBytes_of_any_isStray hany, toBytes_of_any_isStray h, List.flatMap_append]

/-- So does one in the second text. -/
theorem toBytes_append_of_any_isStray_right (h : u.any CodePoint.isStray = true) (t : Text) :
    (t ++ u).toBytes = t.flatMap Utf8.encode ++ u.toBytes := by
  have hany : (t ++ u).any CodePoint.isStray = true := by rw [List.any_append, h, Bool.or_true]
  rw [toBytes_of_any_isStray hany, toBytes_of_any_isStray h, List.flatMap_append]

/-- **Texts of which none overrules the other** are written one after the other. -/
theorem toBytes_append_of_not_overrules (ht : ¬ t.Overrules u) (hu : ¬ u.Overrules t) :
    (t ++ u).toBytes = t.toBytes ++ u.toBytes := by
  rw [overrules_iff, not_and_not_right] at ht hu
  -- where there is a stray surrogate, the other text is written in the same way without it
  cases hst : t.any CodePoint.isStray with
  | true => rw [toBytes_append_of_any_isStray_left hst, ht hst]
  | false =>
    cases hsu : u.any CodePoint.isStray with
    | true => rw [toBytes_append_of_any_isStray_right hsu, hu hsu]
    | false => exact toBytes_append hst hsu

/-- **When texts that have been joined are written one after the other**: exactly if none of the two
overrules the other. -/
theorem toBytes_append_eq_iff (t u : Text) :
    (t ++ u).toBytes = t.toBytes ++ u.toBytes ↔ ¬ (t.Overrules u ∨ u.Overrules t) := by
  refine ⟨?_, ?_⟩
  · rintro h (hover | hover)
    · obtain ⟨hst, hne⟩ := overrules_iff.1 hover
      rw [toBytes_append_of_any_isStray_left hst] at h
      exact hne (List.append_cancel_left h).symm
    · obtain ⟨hsu, hne⟩ := overrules_iff.1 hover
      rw [toBytes_append_of_any_isStray_right hsu] at h
      exact hne (List.append_cancel_right h).symm
  · intro h
    rw [not_or] at h
    exact toBytes_append_of_not_overrules h.1 h.2

-- The other form of this stand-in begins with the very byte that it holds.
example : Overrules [⟨0xD800, by decide⟩] [.standIn 0xED] ∧ toBytes [.standIn 0xED] = [0xED] ∧
    toBytes ([⟨0xD800, by decide⟩] ++ [.standIn 0xED]) = [0xED, 0xA0, 0x80, 0xED, 0xB3, 0xAD] := by
  decide

end Text

end NameMangling
