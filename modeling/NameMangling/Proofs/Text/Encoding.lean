import NameMangling.Proofs.Text.Decoding
import Mathlib.Data.List.Basic

/-!
# Encoding

The encoder looks at the whole text before it writes: one stray surrogate anywhere, and no surrogate
counts as a stand-in any more. Without stray surrogates it goes code point by code point
(`CodePoint.rawBytes`), and that is how it meets decoded texts, since decoding makes none.

* `Utf8.exists_encode_eq_cons` — the bytes of one code point can be told apart: the first one from
  those that continue it;
* `Text.orElse_encodeBy?` — encoding can be taken for two attempts, of which the second one never
  fails;
* `Text.toBytes_ofBytes` — **decoding loses nothing**: the bytes of a decoded text are those that it
  was decoded from, well-formed or not;
* `Text.toBytes_append_of_isAscii`, `Text.ofBytes_append_of_lt` — ASCII in front of anything is
  written and read by itself;
* `Text.ofBytes_append_cons` — an ASCII byte ends whatever is broken before it.
-/

namespace NameMangling

/-! ### ASCII -/

section Ascii

variable {c : CodePoint} {b : UInt8}

theorem Utf8.encode_of_isAscii (h : c.isAscii = true) :
    Utf8.encode c = [UInt8.ofNat c.val] :=
  if_pos (of_decide_eq_true h)

theorem CodePoint.isSurrogate_of_isAscii (h : c.isAscii = true) : c.isSurrogate = false := by
  have hlt : c.val < 0x80 := of_decide_eq_true h
  simp only [CodePoint.isSurrogate, Bool.and_eq_false_iff, decide_eq_false_iff_not]
  omega

theorem CodePoint.isAscii_ofByte (h : b < 0x80) : (CodePoint.ofByte b).isAscii = true :=
  decide_eq_true (UInt8.lt_iff_toNat_lt.1 h)

theorem CodePoint.ofByte_ofNat (h : c.isAscii = true) :
    CodePoint.ofByte (UInt8.ofNat c.val) = c := by
  have hlt : c.val < 0x80 := of_decide_eq_true h
  refine CodePoint.ext ?_
  rw [val_ofByte, UInt8.toNat_ofNat', Nat.mod_eq_of_lt (by omega)]

/-- An ASCII byte is a sequence by itself. -/
theorem Utf8.encode_ofByte (h : b < 0x80) : Utf8.encode (CodePoint.ofByte b) = [b] := by
  rw [encode_of_isAscii (CodePoint.isAscii_ofByte h), CodePoint.val_ofByte, UInt8.ofNat_toNat]

/-- **A continuation byte**, 0x80 to 0xBF. -/
def Utf8.IsContinuation (b : UInt8) : Prop := 0x80 ≤ b.toNat ∧ b.toNat < 0xC0

/-- **The shape of an encoding**: a lead byte, ASCII or from 0xC0 up, and continuation bytes. -/
theorem Utf8.exists_encode_eq_cons (c : CodePoint) :
    ∃ lead rest, encode c = lead :: rest ∧
      (c.isAscii = true ∧ lead.toNat < 0x80 ∨ 0xC0 ≤ lead.toNat) ∧
      ∀ b ∈ rest, IsContinuation b := by
  have hc := c.isLt
  have toNat : ∀ n < 256, (UInt8.ofNat n).toNat = n := fun n hn => by
    rw [UInt8.toNat_ofNat', Nat.mod_eq_of_lt (by simpa using hn)]
  have hlead : ∀ n, 0xC0 ≤ n → n < 256 → 0xC0 ≤ (UInt8.ofNat n).toNat := by
    intro n hn hlt
    rwa [toNat n hlt]
  have hrest : ∀ n < 64, IsContinuation (UInt8.ofNat (0x80 + n)) := by
    intro n hn
    rw [IsContinuation, toNat _ (by omega)]
    omega
  unfold encode
  -- One byte, and then two, three and four.
  split
  · next h => exact ⟨_, _, rfl, .inl ⟨decide_eq_true h, by rwa [toNat _ (by omega)]⟩, by simp⟩
  split
  · refine ⟨_, _, rfl, .inr (hlead _ (by omega) (by omega)), ?_⟩
    rw [List.forall_mem_singleton]
    exact hrest _ (by omega)
  split
  · refine ⟨_, _, rfl, .inr (hlead _ (by omega) (by omega)), ?_⟩
    rw [List.forall_mem_cons, List.forall_mem_singleton]
    exact ⟨hrest _ (by omega), hrest _ (by omega)⟩
  · refine ⟨_, _, rfl, .inr (hlead _ (by omega) (by omega)), ?_⟩
    rw [List.forall_mem_cons, List.forall_mem_cons, List.forall_mem_singleton]
    exact ⟨hrest _ (by omega), hrest _ (by omega), hrest _ (by omega)⟩

/-- An encoding is all ASCII or has none in it. -/
theorem Utf8.isAscii_of_mem_encode (hm : b ∈ Utf8.encode c) (h : b < 0x80) :
    c.isAscii = true := by
  have hlt : b.toNat < 0x80 := UInt8.lt_iff_toNat_lt.1 h
  obtain ⟨lead, rest, hencode, hlead, hrest⟩ := exists_encode_eq_cons c
  rw [hencode] at hm
  rcases List.mem_cons.1 hm with rfl | hm
  · rcases hlead with ⟨hascii, -⟩ | hlead
    · exact hascii
    · omega
  · have hcont : 0x80 ≤ b.toNat := (hrest b hm).1
    omega

end Ascii

/-! ### Texts without stray surrogates -/

section RawBytes

variable {c : CodePoint} {t : Text}

/-- **The bytes of a code point** in a text without stray surrogates. -/
def CodePoint.rawBytes (c : CodePoint) : Bytes :=
  match c.heldByte? with
  | some b => [b]
  | none => Utf8.encode c

theorem CodePoint.rawBytes_standIn {b : UInt8} (h : 0x80 ≤ b.toNat) :
    (CodePoint.standIn b).rawBytes = [b] := by
  rw [rawBytes, heldByte?_standIn h]

theorem CodePoint.heldByte?_eq_none_of_isSurrogate_eq_false (h : c.isSurrogate = false) :
    c.heldByte? = none := by
  simp only [isSurrogate, Bool.and_eq_false_iff, decide_eq_false_iff_not] at h
  exact heldByte?_eq_none_iff.2 (by omega)

theorem CodePoint.rawBytes_of_isSurrogate_eq_false (h : c.isSurrogate = false) :
    c.rawBytes = Utf8.encode c := by
  rw [rawBytes, heldByte?_eq_none_of_isSurrogate_eq_false h]

theorem CodePoint.isStray_of_isSurrogate_eq_false (h : c.isSurrogate = false) :
    c.isStray = false := by
  rw [isStray, h, Bool.false_and]

/-- A text without stray surrogates has no surrogates but stand-ins. -/
theorem Text.any_isStray_eq_false_iff :
    t.any CodePoint.isStray = false ↔
      ∀ c ∈ t, c.isSurrogate = true → 0xDC80 ≤ c.val ∧ c.val ≤ 0xDCFF := by
  rw [List.any_eq_false]
  refine forall₂_congr fun c _ => ?_
  rw [CodePoint.isStray_iff, CodePoint.isSurrogate, Bool.and_eq_true, decide_eq_true_iff,
    decide_eq_true_iff, not_and, not_not]

theorem Text.toBytes_of_any_isStray (h : t.any CodePoint.isStray = true) :
    t.toBytes = t.flatMap Utf8.encode := if_pos h

theorem Text.toBytes_of_any_isStray_eq_false (h : t.any CodePoint.isStray = false) :
    t.toBytes = t.flatMap CodePoint.rawBytes := if_neg (Bool.eq_false_iff.1 h)

/-- Without stray surrogates texts are written one after the other. -/
theorem Text.toBytes_append {u : Text} (ht : t.any CodePoint.isStray = false)
    (hu : u.any CodePoint.isStray = false) : (t ++ u).toBytes = t.toBytes ++ u.toBytes := by
  have hany : (t ++ u).any CodePoint.isStray = false := by
    rw [List.any_append, ht, hu, Bool.or_false]
  rw [toBytes_of_any_isStray_eq_false hany, toBytes_of_any_isStray_eq_false ht,
    toBytes_of_any_isStray_eq_false hu, List.flatMap_append]

end RawBytes

/-! ### Two attempts -/

section Attempts

variable {rule : CodePoint → Option Bytes} {t : Text}

/-- A surrogate by the byte that it holds, if it holds one. -/
def CodePoint.byHeldByte (c : CodePoint) : Option Bytes := c.heldByte?.map fun b => [b]

/-- A surrogate by its encoding, like any other code point. -/
def CodePoint.byEncoding (c : CodePoint) : Option Bytes := some (Utf8.encode c)

/-- The bytes of a code point by a rule for surrogates. All others have their encoding. -/
def CodePoint.bytesBy? (rule : CodePoint → Option Bytes) (c : CodePoint) : Option Bytes :=
  if c.isSurrogate then rule c else some (Utf8.encode c)

/-- **Encoding by a rule for surrogates.** It fails if there is a surrogate for which the rule has
no bytes. -/
def Text.encodeBy? (rule : CodePoint → Option Bytes) : Text → Option Bytes
  | [] => some []
  | c :: rest => do
    let front ← c.bytesBy? rule
    let back ← encodeBy? rule rest
    return front ++ back

theorem Text.encodeBy?_eq_some {bytes : CodePoint → Bytes}
    (h : ∀ c ∈ t, c.bytesBy? rule = some (bytes c)) :
    t.encodeBy? rule = some (t.flatMap bytes) := by
  induction t with
  | nil => rfl
  | cons c rest ih =>
    have hfront : c.bytesBy? rule = some (bytes c) := h c List.mem_cons_self
    have hback := ih fun d hd => h d (List.mem_cons_of_mem c hd)
    rw [encodeBy?, hfront, hback, List.flatMap_cons]
    rfl

theorem Text.encodeBy?_eq_none {c : CodePoint} (hm : c ∈ t) (h : c.bytesBy? rule = none) :
    t.encodeBy? rule = none := by
  induction t with
  | nil => cases hm
  | cons d rest ih =>
    rw [encodeBy?]
    -- one code point without bytes is enough, wherever it stands
    rcases List.mem_cons.1 hm with rfl | hm
    · rw [h]
      rfl
    · rw [ih hm]
      cases d.bytesBy? rule <;> rfl

/-- **Encoding never fails.** The first attempt takes every surrogate for a stand-in. If it meets a
stray one, there is a second attempt, which takes none for a stand-in and has bytes for all. -/
theorem Text.orElse_encodeBy? (t : Text) :
    (t.encodeBy? CodePoint.byHeldByte <|> t.encodeBy? CodePoint.byEncoding) = some t.toBytes := by
  cases hstray : t.any CodePoint.isStray with
  | true =>
    obtain ⟨c, hm, hc⟩ := List.any_eq_true.1 hstray
    rw [CodePoint.isStray, Bool.and_eq_true, Option.isNone_iff_eq_none] at hc
    have hfirst : t.encodeBy? CodePoint.byHeldByte = none := by
      refine encodeBy?_eq_none hm ?_
      rw [CodePoint.bytesBy?, if_pos hc.1, CodePoint.byHeldByte, hc.2]
      rfl
    -- with bytes for every surrogate the second attempt cannot fail
    have hsecond : t.encodeBy? CodePoint.byEncoding = some (t.flatMap Utf8.encode) :=
      encodeBy?_eq_some fun c _ => ite_self (some (Utf8.encode c))
    rw [hfirst, hsecond, toBytes_of_any_isStray hstray]
    rfl
  | false =>
    have hfirst : t.encodeBy? CodePoint.byHeldByte = some (t.flatMap CodePoint.rawBytes) := by
      refine encodeBy?_eq_some fun c hm => ?_
      rw [CodePoint.bytesBy?]
      cases hs : c.isSurrogate with
      | false => exact congrArg some (CodePoint.rawBytes_of_isSurrogate_eq_false hs).symm
      | true =>
        -- a surrogate that is not stray holds a byte
        have hc := List.any_eq_false.1 hstray c hm
        rw [CodePoint.isStray, hs, Bool.true_and, Option.isNone_iff_eq_none] at hc
        obtain ⟨b, hb⟩ := Option.ne_none_iff_exists'.1 hc
        rw [if_pos rfl, CodePoint.byHeldByte, CodePoint.rawBytes, hb]
        rfl
    rw [hfirst, toBytes_of_any_isStray_eq_false hstray]
    rfl

end Attempts

/-! ### Both ways with ASCII in front -/

namespace Text

variable {t : Text} {bs : Bytes}

/-- **ASCII in front of a text** gives its own bytes, and leaves the other ones as they are. -/
theorem toBytes_append_of_isAscii (h : t.isAscii = true) (u : Text) :
    (t ++ u).toBytes = t.map (fun c => UInt8.ofNat c.val) ++ u.toBytes := by
  have hascii : ∀ c ∈ t, c.isAscii = true := List.all_eq_true.1 h
  have hencode : t.flatMap Utf8.encode = t.map fun c => UInt8.ofNat c.val := by
    rw [List.map_eq_flatMap]
    exact List.flatMap_congr fun c hc => Utf8.encode_of_isAscii (hascii c hc)
  have hraw : t.flatMap CodePoint.rawBytes = t.flatMap Utf8.encode :=
    List.flatMap_congr fun c hc =>
      CodePoint.rawBytes_of_isSurrogate_eq_false (CodePoint.isSurrogate_of_isAscii (hascii c hc))
  have hstray : t.any CodePoint.isStray = false :=
    List.any_eq_false.2 fun c hc => Bool.eq_false_iff.1 <|
      CodePoint.isStray_of_isSurrogate_eq_false (CodePoint.isSurrogate_of_isAscii (hascii c hc))
  -- only what follows decides whether surrogates count as stand-ins
  have hany : (t ++ u).any CodePoint.isStray = u.any CodePoint.isStray := by
    rw [List.any_append, hstray, Bool.false_or]
  cases hu : u.any CodePoint.isStray with
  | true =>
    rw [toBytes_of_any_isStray (hany.trans hu), toBytes_of_any_isStray hu, List.flatMap_append,
      hencode]
  | false =>
    rw [toBytes_of_any_isStray_eq_false (hany.trans hu), toBytes_of_any_isStray_eq_false hu,
      List.flatMap_append, hraw, hencode]

theorem toBytes_cons_of_isAscii {c : CodePoint} (h : c.isAscii = true) (u : Text) :
    toBytes (c :: u) = UInt8.ofNat c.val :: u.toBytes :=
  toBytes_append_of_isAscii (t := [c]) (by rw [isAscii, List.all_cons, h]; rfl) u

/-- The bytes of an ASCII text are its characters. -/
theorem toBytes_of_isAscii (h : t.isAscii = true) :
    t.toBytes = t.map fun c => UInt8.ofNat c.val := by
  simpa using toBytes_append_of_isAscii h []

/-- **ASCII in front of bytes** is decoded byte by byte, whatever follows. -/
theorem ofBytes_append_of_lt (h : ∀ b ∈ bs, b < 0x80) (rest : Bytes) :
    ofBytes (bs ++ rest) = bs.map CodePoint.ofByte ++ ofBytes rest := by
  induction bs with
  | nil => rfl
  | cons b bs ih =>
    have hb : b < 0x80 := h b List.mem_cons_self
    have hs : (CodePoint.ofByte b).isSurrogate = false :=
      CodePoint.isSurrogate_of_isAscii (CodePoint.isAscii_ofByte hb)
    calc ofBytes (b :: bs ++ rest)
        = ofBytes (Utf8.encode (CodePoint.ofByte b) ++ (bs ++ rest)) := by
          rw [Utf8.encode_ofByte hb]
          rfl
      _ = CodePoint.ofByte b :: ofBytes (bs ++ rest) := ofBytes_encode_append hs _
      _ = (b :: bs).map CodePoint.ofByte ++ ofBytes rest := by
          rw [ih fun c hc => h c (List.mem_cons_of_mem b hc)]
          rfl

/-- ASCII bytes decode to their characters. -/
theorem ofBytes_of_lt (h : ∀ b ∈ bs, b < 0x80) : ofBytes bs = bs.map CodePoint.ofByte := by
  simpa using ofBytes_append_of_lt h []

/-- **An ASCII text comes back** from its bytes. -/
theorem ofBytes_toBytes_of_isAscii (h : t.isAscii = true) : ofBytes t.toBytes = t := by
  have hascii : ∀ c ∈ t, c.isAscii = true := List.all_eq_true.1 h
  have hlt : ∀ b ∈ t.toBytes, b < 0x80 := by
    rw [toBytes_of_isAscii h]
    intro b hb
    obtain ⟨c, hc, rfl⟩ := List.mem_map.1 hb
    have hval : c.val < 0x80 := of_decide_eq_true (hascii c hc)
    rw [UInt8.lt_iff_toNat_lt, UInt8.toNat_ofNat', Nat.mod_eq_of_lt (by omega)]
    exact hval
  calc ofBytes t.toBytes
      = (t.map fun c => UInt8.ofNat c.val).map CodePoint.ofByte := by
        rw [ofBytes_of_lt hlt, toBytes_of_isAscii h]
    _ = t.map id := by
        rw [List.map_map]
        exact List.map_congr_left fun c hc => CodePoint.ofByte_ofNat (hascii c hc)
    _ = t := List.map_id t

/-! ### The round trip -/

/-- Only a byte from 0x80 up can fail to begin a sequence. -/
theorem le_of_front?_eq_none {a : UInt8} {rest : Bytes} (h : Utf8.front? (a :: rest) = none) :
    0x80 ≤ a.toNat := by
  by_contra hlt
  have ha : a < 0x80 := UInt8.lt_iff_toNat_lt.2 (Nat.not_le.1 hlt)
  have hs : (CodePoint.ofByte a).isSurrogate = false :=
    CodePoint.isSurrogate_of_isAscii (CodePoint.isAscii_ofByte ha)
  have hprefix : Utf8.encode (CodePoint.ofByte a) <+: a :: rest := by
    rw [Utf8.encode_ofByte ha]
    exact ⟨rest, rfl⟩
  have hsome : Utf8.front? (a :: rest) = some (CodePoint.ofByte a) :=
    Utf8.front?_eq_some_iff.2 ⟨hs, hprefix⟩
  rw [h] at hsome
  cases hsome

/-- An ASCII byte completes no sequence that breaks off before it. -/
theorem front?_append_cons {a b : UInt8} {bs : Bytes} (hb : b < 0x80)
    (h : Utf8.front? (a :: bs) = none) (rest : Bytes) :
    Utf8.front? (a :: (bs ++ b :: rest)) = none := by
  by_contra hsome
  obtain ⟨c, hc⟩ := Option.ne_none_iff_exists'.1 hsome
  obtain ⟨hs, back, hback⟩ := Utf8.front?_eq_some_iff.1 hc
  have hlong : ¬ Utf8.encode c <+: a :: bs := by
    intro hshort
    rw [Utf8.front?_eq_some_iff.2 ⟨hs, hshort⟩] at h
    cases h
  rw [← List.cons_append] at hback
  obtain ⟨front, hfront, -⟩ | ⟨front, hfront, hrest⟩ := List.append_eq_append_iff.1 hback
  · exact hlong ⟨front, hfront.symm⟩
  cases front with
  | nil => exact hlong ⟨[], by rw [hfront, List.append_nil, List.append_nil]⟩
  | cons d front =>
    -- the sequence would take in the ASCII byte, and have others before it
    obtain rfl : b = d := (List.cons.inj hrest).1
    have hmem : b ∈ Utf8.encode c := hfront ▸ List.mem_append_right _ List.mem_cons_self
    have hascii : c.isAscii = true := Utf8.isAscii_of_mem_encode hmem hb
    rw [Utf8.encode_of_isAscii hascii] at hfront
    exact absurd (congrArg List.length hfront) (by simp)

/-- **An ASCII byte ends what is before it**: that is decoded as if nothing followed, even a
sequence that breaks off there. -/
theorem ofBytes_append_cons {b : UInt8} (hb : b < 0x80) (bs rest : Bytes) :
    ofBytes (bs ++ b :: rest) = ofBytes bs ++ CodePoint.ofByte b :: ofBytes rest := by
  have hascii : ∀ c ∈ [b], c < 0x80 := fun c hc => List.mem_singleton.1 hc ▸ hb
  have hsingle : ofBytes (b :: rest) = CodePoint.ofByte b :: ofBytes rest :=
    ofBytes_append_of_lt hascii rest
  induction bs using ofBytes_induction with
  | nil => exact hsingle
  | sequence c more hs ih =>
    rw [List.append_assoc, ofBytes_encode_append hs, ofBytes_encode_append hs, ih, List.cons_append]
  | undecodable a more hf ih =>
    rw [List.cons_append, ofBytes_cons_of_front?_eq_none (front?_append_cons hb hf rest), ih,
      ofBytes_cons_of_front?_eq_none hf, List.cons_append]

/-- Decoding makes no stray surrogates. -/
theorem any_isStray_ofBytes (bs : Bytes) : (ofBytes bs).any CodePoint.isStray = false := by
  induction bs using ofBytes_induction with
  | nil => rfl
  | sequence c rest hs ih =>
    rw [ofBytes_encode_append hs, List.any_cons, ih,
      CodePoint.isStray_of_isSurrogate_eq_false hs, Bool.or_false]
  | undecodable a rest hf ih =>
    have hheld : (CodePoint.standIn a).heldByte? = some a :=
      CodePoint.heldByte?_standIn (le_of_front?_eq_none hf)
    rw [ofBytes_cons_of_front?_eq_none hf, List.any_cons, ih, CodePoint.isStray, hheld,
      Option.isNone_some, Bool.and_false, Bool.or_false]

/-- **Decoding loses nothing.** -/
theorem toBytes_ofBytes (bs : Bytes) : (ofBytes bs).toBytes = bs := by
  rw [toBytes_of_any_isStray_eq_false (any_isStray_ofBytes bs)]
  induction bs using ofBytes_induction with
  | nil => rfl
  | sequence c rest hs ih =>
    rw [ofBytes_encode_append hs, List.flatMap_cons, ih,
      CodePoint.rawBytes_of_isSurrogate_eq_false hs]
  | undecodable a rest hf ih =>
    rw [ofBytes_cons_of_front?_eq_none hf, List.flatMap_cons, ih,
      CodePoint.rawBytes_standIn (le_of_front?_eq_none hf)]
    rfl

/-- So no two byte strings decode to one text. -/
theorem ofBytes_injective : Function.Injective ofBytes :=
  Function.LeftInverse.injective toBytes_ofBytes

end Text

end NameMangling
