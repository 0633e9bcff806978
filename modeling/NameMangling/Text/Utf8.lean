import NameMangling.Text.Basic

/-!
# Bytes of texts, texts of bytes

UTF-8 in both directions, over all texts and all byte strings: neither conversion can fail.

**Decoding** is strict. A sequence counts only if it is the shortest encoding of a code point that
is no surrogate; every byte that belongs to no such sequence becomes its stand-in, each byte by
itself. Which code point comes next is said once, in `Utf8.front?`, and pinned down by
`Utf8.front?_eq_some_iff`: the bytes begin with the encoding of `c`, and `c` is no surrogate.

**Encoding** turns stand-ins back into the bytes they hold, and writes everything else as the one
to four bytes of `Utf8.encode`. A text with a stray surrogate stands for no byte string, so in such
a text *no* surrogate is taken for a stand-in: all of them are written in the three-byte form.

* `Utf8.front?_eq_some_iff` — the decoder's step against the encoder;
* `Text.ofBytes_encode_append`, `Text.ofBytes_cons_of_front?_eq_none` — the two ways in which
  decoding goes on.
-/

namespace NameMangling

namespace Utf8

/-- **The encoding of a code point**: one byte below 0x80, two below 0x800, three below 0x10000,
four above. Surrogates get three bytes like their neighbours. -/
def encode (c : CodePoint) : Bytes :=
  if c.val < 0x80 then
    [UInt8.ofNat c.val]
  else if c.val < 0x800 then
    [UInt8.ofNat (0xC0 + c.val / 64), UInt8.ofNat (0x80 + c.val % 64)]
  else if c.val < 0x10000 then
    [UInt8.ofNat (0xE0 + c.val / 4096), UInt8.ofNat (0x80 + c.val / 64 % 64),
      UInt8.ofNat (0x80 + c.val % 64)]
  else
    [UInt8.ofNat (0xF0 + c.val / 262144), UInt8.ofNat (0x80 + c.val / 4096 % 64),
      UInt8.ofNat (0x80 + c.val / 64 % 64), UInt8.ofNat (0x80 + c.val % 64)]

/-- The number that is read when `n` continuation bytes (0x80 to 0xBF, six bits each) follow a
first byte that carries `v`. -/
def continue? : Nat → Nat → Bytes → Option Nat
  | 0, v, _ => some v
  | _ + 1, _, [] => none
  | n + 1, v, b :: rest =>
    if 0x80 ≤ b.toNat ∧ b.toNat < 0xC0 then continue? n (v * 64 + (b.toNat - 0x80)) rest else none

/-- A number as a code point, if it is at least `least` and no surrogate. The least number of each
length of sequence is the first one that no shorter sequence can write. -/
def scalar? (least v : Nat) : Option CodePoint :=
  if h : v < 0x110000 then
    if least ≤ v ∧ ¬ (0xD800 ≤ v ∧ v ≤ 0xDFFF) then some ⟨v, h⟩ else none
  else none

/-- **The next code point** of a byte string: the one whose encoding the bytes begin with. -/
def front? : Bytes → Option CodePoint
  | [] => none
  | a :: rest =>
    if a.toNat < 0x80 then scalar? 0 a.toNat
    -- No sequence begins with a continuation byte.
    else if a.toNat < 0xC0 then none
    else if a.toNat < 0xE0 then (continue? 1 (a.toNat - 0xC0) rest).bind (scalar? 0x80)
    else if a.toNat < 0xF0 then (continue? 2 (a.toNat - 0xE0) rest).bind (scalar? 0x800)
    else if a.toNat < 0xF8 then (continue? 3 (a.toNat - 0xF0) rest).bind (scalar? 0x10000)
    else none

/-! ### Encodings -/

/-- No encoding is empty. -/
theorem length_encode_pos (c : CodePoint) : 0 < (encode c).length := by
  unfold encode
  repeat' split
  all_goals simp

/-- What `scalar?` accepts is the number itself, in its range and no surrogate. -/
theorem scalar?_eq_some_iff {least v : Nat} {c : CodePoint} :
    scalar? least v = some c ↔ c.val = v ∧ least ≤ v ∧ c.isSurrogate = false := by
  constructor
  · intro h
    unfold scalar? at h
    split at h
    · split at h
      · next hv =>
        -- the guard on the number is the conclusion, but for the spelling of surrogates
        obtain rfl := Option.some.inj h
        refine ⟨rfl, hv.1, ?_⟩
        have := hv.2
        simp only [CodePoint.isSurrogate, Bool.and_eq_false_iff, decide_eq_false_iff_not]
        omega
      · cases h
    · cases h
  · rintro ⟨rfl, hl, hs⟩
    simp only [CodePoint.isSurrogate, Bool.and_eq_false_iff, decide_eq_false_iff_not] at hs
    unfold scalar?
    rw [dif_pos c.isLt, if_pos ⟨hl, by omega⟩]

/-- A further continuation byte adds its six bits. -/
private theorem continue?_succ_eq_some {n v w : Nat} {bs : Bytes} :
    continue? (n + 1) v bs = some w ↔
      ∃ b rest, bs = b :: rest ∧ (0x80 ≤ b.toNat ∧ b.toNat < 0xC0) ∧
        continue? n (v * 64 + (b.toNat - 0x80)) rest = some w := by
  cases bs with
  | nil => simp [continue?]
  | cons b rest =>
    simp only [continue?, List.cons.injEq]
    constructor
    · intro h
      split at h
      · next hb => exact ⟨b, rest, ⟨rfl, rfl⟩, hb, h⟩
      · cases h
    · rintro ⟨b', rest', ⟨rfl, rfl⟩, hb, h⟩
      rw [if_pos hb, h]

private theorem ofNat_eq_iff {b : UInt8} {n : Nat} (h : n < 256) :
    UInt8.ofNat n = b ↔ n = b.toNat := by
  rw [← UInt8.toNat_inj, UInt8.toNat_ofNat', Nat.mod_eq_of_lt (by simpa using h)]

/-- What a decoder's step finds is no surrogate, and the bytes begin with its encoding. -/
private theorem encode_isPrefix_of_front? {bs : Bytes} {c : CodePoint} (h : front? bs = some c) :
    c.isSurrogate = false ∧ encode c <+: bs := by
  cases bs with
  | nil => cases h
  | cons a rest =>
    have ha := a.toNat_lt
    rw [front?] at h
    -- One byte: it is the code point.
    split at h
    · obtain ⟨hv, -, hs⟩ := scalar?_eq_some_iff.1 h
      refine ⟨hs, ?_⟩
      rw [encode, if_pos (by omega), List.cons_prefix_cons]
      exact ⟨(ofNat_eq_iff (by omega)).2 hv, List.nil_prefix⟩
    split at h
    · cases h
    -- Two bytes: the least number is what keeps `encode` from its first branch.
    split at h
    · obtain ⟨v, hw, h⟩ := Option.bind_eq_some_iff.1 h
      obtain ⟨b, rest, rfl, hb, hw⟩ := continue?_succ_eq_some.1 hw
      obtain rfl := Option.some.inj hw
      obtain ⟨hv, hl, hs⟩ := scalar?_eq_some_iff.1 h
      refine ⟨hs, ?_⟩
      rw [encode, if_neg (by omega), if_pos (by omega), List.cons_prefix_cons,
        List.cons_prefix_cons]
      exact ⟨(ofNat_eq_iff (by omega)).2 (by omega), (ofNat_eq_iff (by omega)).2 (by omega),
        List.nil_prefix⟩
    -- Three bytes.
    split at h
    · obtain ⟨v, hw, h⟩ := Option.bind_eq_some_iff.1 h
      obtain ⟨b, rest, rfl, hb, hw⟩ := continue?_succ_eq_some.1 hw
      obtain ⟨d, rest, rfl, hd, hw⟩ := continue?_succ_eq_some.1 hw
      obtain rfl := Option.some.inj hw
      obtain ⟨hv, hl, hs⟩ := scalar?_eq_some_iff.1 h
      refine ⟨hs, ?_⟩
      rw [encode, if_neg (by omega), if_neg (by omega), if_pos (by omega), List.cons_prefix_cons,
        List.cons_prefix_cons, List.cons_prefix_cons]
      exact ⟨(ofNat_eq_iff (by omega)).2 (by omega), (ofNat_eq_iff (by omega)).2 (by omega),
        (ofNat_eq_iff (by omega)).2 (by omega), List.nil_prefix⟩
    -- Four bytes, where the bound on code points comes in.
    split at h
    · obtain ⟨v, hw, h⟩ := Option.bind_eq_some_iff.1 h
      obtain ⟨b, rest, rfl, hb, hw⟩ := continue?_succ_eq_some.1 hw
      obtain ⟨d, rest, rfl, hd, hw⟩ := continue?_succ_eq_some.1 hw
      obtain ⟨e, rest, rfl, he, hw⟩ := continue?_succ_eq_some.1 hw
      obtain rfl := Option.some.inj hw
      obtain ⟨hv, hl, hs⟩ := scalar?_eq_some_iff.1 h
      have hc := c.isLt
      refine ⟨hs, ?_⟩
      rw [encode, if_neg (by omega), if_neg (by omega), if_neg (by omega), List.cons_prefix_cons,
        List.cons_prefix_cons, List.cons_prefix_cons, List.cons_prefix_cons]
      exact ⟨(ofNat_eq_iff (by omega)).2 (by omega), (ofNat_eq_iff (by omega)).2 (by omega),
        (ofNat_eq_iff (by omega)).2 (by omega), (ofNat_eq_iff (by omega)).2 (by omega),
        List.nil_prefix⟩
    · cases h

/-- The decoder's step reads an encoding back, whatever follows it. -/
private theorem front?_encode_append {c : CodePoint} (hs : c.isSurrogate = false) (rest : Bytes) :
    front? (encode c ++ rest) = some c := by
  have hc := c.isLt
  -- Every byte that `encode` writes is below 256, so nothing is cut off.
  have toNat : ∀ n < 256, (UInt8.ofNat n).toNat = n := fun n hn => by
    rw [UInt8.toNat_ofNat', Nat.mod_eq_of_lt (by simpa using hn)]
  unfold encode
  split
  · -- one byte, and then two, three and four: the lead byte tells the branch of the decoder
    rw [List.singleton_append, front?, toNat _ (by omega), if_pos (by omega)]
    exact scalar?_eq_some_iff.2 ⟨rfl, Nat.zero_le _, hs⟩
  split
  · rw [List.cons_append, List.singleton_append, front?, toNat _ (by omega), if_neg (by omega),
      if_neg (by omega), if_pos (by omega)]
    refine Option.bind_eq_some_iff.2 ⟨c.val, continue?_succ_eq_some.2 ⟨_, _, rfl, ?_, ?_⟩,
      scalar?_eq_some_iff.2 ⟨rfl, by omega, hs⟩⟩
    · rw [toNat _ (by omega)]; omega
    · rw [toNat _ (by omega), continue?, Option.some.injEq]; omega
  split
  · rw [List.cons_append, List.cons_append, List.singleton_append, front?, toNat _ (by omega),
      if_neg (by omega), if_neg (by omega), if_neg (by omega), if_pos (by omega)]
    refine Option.bind_eq_some_iff.2 ⟨c.val, continue?_succ_eq_some.2 ⟨_, _, rfl, ?_,
      continue?_succ_eq_some.2 ⟨_, _, rfl, ?_, ?_⟩⟩, scalar?_eq_some_iff.2 ⟨rfl, by omega, hs⟩⟩
    · rw [toNat _ (by omega)]; omega
    · rw [toNat _ (by omega)]; omega
    · rw [toNat _ (by omega), toNat _ (by omega), continue?, Option.some.injEq]; omega
  · rw [List.cons_append, List.cons_append, List.cons_append, List.singleton_append, front?,
      toNat _ (by omega), if_neg (by omega), if_neg (by omega), if_neg (by omega),
      if_neg (by omega), if_pos (by omega)]
    refine Option.bind_eq_some_iff.2 ⟨c.val, continue?_succ_eq_some.2 ⟨_, _, rfl, ?_,
      continue?_succ_eq_some.2 ⟨_, _, rfl, ?_, continue?_succ_eq_some.2 ⟨_, _, rfl, ?_, ?_⟩⟩⟩,
      scalar?_eq_some_iff.2 ⟨rfl, by omega, hs⟩⟩
    · rw [toNat _ (by omega)]; omega
    · rw [toNat _ (by omega)]; omega
    · rw [toNat _ (by omega)]; omega
    · rw [toNat _ (by omega), toNat _ (by omega), toNat _ (by omega), continue?,
        Option.some.injEq]
      omega

/-- **The decoder's step against the encoder.** The next code point of a byte string is `c` exactly
when `c` is no surrogate and the bytes begin with the encoding of `c`. -/
theorem front?_eq_some_iff {bs : Bytes} {c : CodePoint} :
    front? bs = some c ↔ c.isSurrogate = false ∧ encode c <+: bs := by
  refine ⟨encode_isPrefix_of_front?, ?_⟩
  rintro ⟨hs, rest, rfl⟩
  exact front?_encode_append hs rest

/-! ### Decoding -/

/-- Decoding with `skip` bytes left over of a sequence that has been read already. -/
def decodeFrom : Nat → Bytes → Text
  | _, [] => []
  | skip + 1, _ :: rest => decodeFrom skip rest
  | 0, a :: rest =>
    match front? (a :: rest) with
    | some c => c :: decodeFrom ((encode c).length - 1) rest
    | none => CodePoint.standIn a :: decodeFrom 0 rest

/-- Bytes that are left over are passed by. -/
theorem decodeFrom_eq_drop (skip : Nat) (bs : Bytes) :
    decodeFrom skip bs = decodeFrom 0 (bs.drop skip) := by
  induction bs generalizing skip with
  | nil => cases skip <;> rfl
  | cons a rest ih =>
    cases skip with
    | zero => rfl
    | succ skip => rw [decodeFrom, ih, List.drop_succ_cons]

end Utf8

namespace Text

/-- **The text of a byte string**: its UTF-8 sequences decoded, all other bytes by stand-ins. -/
def ofBytes (bs : Bytes) : Text := Utf8.decodeFrom 0 bs

/-- **The bytes of a text**: stand-ins give the byte they hold, all other code points their
encoding. In a text with a stray surrogate no surrogate counts as a stand-in. -/
def toBytes (t : Text) : Bytes :=
  if t.any CodePoint.isStray then t.flatMap Utf8.encode
  else t.flatMap fun c =>
    match c.heldByte? with
    | some b => [b]
    | none => Utf8.encode c

@[simp] theorem ofBytes_nil : ofBytes [] = [] := rfl

@[simp] theorem toBytes_nil : toBytes [] = [] := rfl

/-- Bytes that begin with the encoding of a code point other than a surrogate decode to it. -/
theorem ofBytes_encode_append {c : CodePoint} (hs : c.isSurrogate = false) (rest : Bytes) :
    ofBytes (Utf8.encode c ++ rest) = c :: ofBytes rest := by
  have hf := Utf8.front?_eq_some_iff.2 ⟨hs, List.prefix_append (Utf8.encode c) rest⟩
  cases he : Utf8.encode c with
  | nil => have := Utf8.length_encode_pos c; simp [he] at this
  | cons a more =>
    -- The first byte decodes to `c`, and the rest of its encoding is skipped.
    rw [he, List.cons_append] at hf
    rw [List.cons_append, ofBytes, Utf8.decodeFrom, hf]
    simp [Utf8.decodeFrom_eq_drop, he, ofBytes]

/-- A byte at which no sequence begins decodes to its stand-in. -/
theorem ofBytes_cons_of_front?_eq_none {a : UInt8} {rest : Bytes}
    (h : Utf8.front? (a :: rest) = none) :
    ofBytes (a :: rest) = CodePoint.standIn a :: ofBytes rest := by
  rw [ofBytes, Utf8.decodeFrom, h, ofBytes]

end Text

end NameMangling
