import NameMangling.Text.Utf8

/-!
# Decoding, by induction

A byte string is empty, or begins with the encoding of a code point that is no surrogate, or with a
byte at which no sequence begins. Decoding goes by these three cases, and so does every proof about
it (`Text.ofBytes_induction`).

* `Text.mem_of_mem_ofBytes`, `Text.head?_of_head?_ofBytes` — no ASCII character is decoded from
  anything but its own byte, whatever is wrong with the bytes around it.
-/

namespace NameMangling.Text

variable {bs : Bytes} {c : CodePoint}

/-- **Induction along the decoder's steps.** -/
theorem ofBytes_induction {motive : Bytes → Prop} (nil : motive [])
    (sequence : ∀ c rest, c.isSurrogate = false → motive rest → motive (Utf8.encode c ++ rest))
    (undecodable : ∀ a rest, Utf8.front? (a :: rest) = none → motive rest → motive (a :: rest))
    (bs : Bytes) : motive bs := by
  induction hn : bs.length using Nat.strongRecOn generalizing bs with
  | ind n ih =>
    subst hn
    cases bs with
    | nil => exact nil
    | cons a rest =>
      -- what the decoder takes from the front is one sequence, or one byte that begins none
      cases hf : Utf8.front? (a :: rest) with
      | none => exact undecodable a rest hf (ih rest.length (Nat.lt_succ_self _) rest rfl)
      | some c =>
        obtain ⟨hs, back, hback⟩ := Utf8.front?_eq_some_iff.1 hf
        -- a sequence has at least one byte, so what is left is shorter
        have hlen : back.length < (a :: rest).length := by
          rw [← hback, List.length_append]
          exact Nat.lt_add_of_pos_left (Utf8.length_encode_pos c)
        rw [← hback]
        exact sequence c back hs (ih back.length hlen back rfl)

/-- Nothing decodes to an empty text but nothing. -/
theorem ofBytes_eq_nil_iff : ofBytes bs = [] ↔ bs = [] := by
  refine ⟨?_, fun h => h ▸ ofBytes_nil⟩
  intro h
  induction bs using ofBytes_induction with
  | nil => rfl
  | sequence c rest hs ih =>
    rw [ofBytes_encode_append hs] at h
    cases h
  | undecodable a rest hf ih =>
    rw [ofBytes_cons_of_front?_eq_none hf] at h
    cases h

/-- **An ASCII character comes from its own byte.** -/
theorem mem_of_mem_ofBytes (h : c ∈ ofBytes bs) (hc : c.val < 0x80) : UInt8.ofNat c.val ∈ bs := by
  induction bs using ofBytes_induction with
  | nil => exact absurd h List.not_mem_nil
  | sequence d rest hs ih =>
    rw [ofBytes_encode_append hs] at h
    rcases List.mem_cons.1 h with rfl | h
    · rw [Utf8.encode, if_pos hc]
      exact List.mem_append_left _ List.mem_cons_self
    · exact List.mem_append_right _ (ih h)
  | undecodable a rest hf ih =>
    rw [ofBytes_cons_of_front?_eq_none hf] at h
    rcases List.mem_cons.1 h with rfl | h
    · -- a stand-in is a surrogate
      rw [CodePoint.val_standIn] at hc
      omega
    · exact List.mem_cons_of_mem _ (ih h)

/-- An ASCII character that a decoded text begins with is what its bytes begin with. -/
theorem head?_of_head?_ofBytes (h : (ofBytes bs).head? = some c) (hc : c.val < 0x80) :
    bs.head? = some (UInt8.ofNat c.val) := by
  induction bs using ofBytes_induction with
  | nil => cases h
  | sequence d rest hs ih =>
    rw [ofBytes_encode_append hs] at h
    obtain rfl : d = c := Option.some.inj h
    rw [Utf8.encode, if_pos hc]
    rfl
  | undecodable a rest hf ih =>
    rw [ofBytes_cons_of_front?_eq_none hf] at h
    obtain rfl := Option.some.inj h
    rw [CodePoint.val_standIn] at hc
    omega

end NameMangling.Text
