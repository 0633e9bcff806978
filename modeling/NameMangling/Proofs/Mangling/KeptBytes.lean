import NameMangling.Proofs.Mangling.Faults

/-!
# Quoted output keeps the bytes

Between quotes the bytes of a body are edited and then decoded, and a prefix is put in front of the
text. Whoever writes the result to a file turns it into bytes again, and these are the bytes that
went in: those of the prefix, and those of the body with pieces in place of the double quotes and
line feeds (`Scheme.quoted_output_keeps_bytes`).

A decoded body has no stray surrogates, so it is written code point by code point and gives its
bytes back, whatever was wrong with them. One stray surrogate in the prefix would spoil that, for
then the stand-ins of the body would be written like it. Stand-ins in the prefix do no harm: the
last ones and the first of the body may hold a code point between them, but they are written one
by one.

* `Quote.flatMap_substitute_eq_replace` — what stands between the quotes, as two replacements one
  after the other;
* `Quote.toBytes_enclose` — the bytes of a text between quotes.
-/

namespace NameMangling

namespace Quote

/-- **Replacing**: a byte string with a piece in place of every `b`. -/
def replace (b : UInt8) (piece bs : Bytes) : Bytes :=
  bs.flatMap fun c => if c = b then piece else [c]

/-- The double quotes can be replaced first and the line feeds after them, since no piece holds a
line feed. -/
theorem flatMap_substitute_eq_replace (bs : Bytes) :
    bs.flatMap substitute =
      replace 0x0A [0x5F, 0x4E, 0x4C, 0x5F] (replace 0x22 [0x5F, 0x51, 0x51, 0x5F] bs) := by
  rw [replace, replace, List.flatMap_assoc]
  -- both replace byte by byte, so one byte is enough
  refine List.flatMap_congr fun b _ => ?_
  by_cases hb : b = 0x22
  · rw [hb]
    rfl
  · rw [substitute, if_neg hb, if_neg hb, List.flatMap_singleton]

/-- Two double quotes are written around the bytes of a text without stray surrogates. -/
theorem toBytes_enclose {t : Text} (h : t.any CodePoint.isStray = false) :
    Text.toBytes (enclose t) = 0x22 :: t.toBytes ++ [0x22] := by
  have hquote : Text.toBytes [CodePoint.ofChar '"'] = [0x22] := by decide
  calc Text.toBytes (enclose t)
      = 0x22 :: Text.toBytes (t ++ [CodePoint.ofChar '"']) :=
        Text.toBytes_cons_of_isAscii (by decide) _
    _ = 0x22 :: t.toBytes ++ [0x22] := by
        rw [Text.toBytes_append h (by decide), hquote, List.cons_append]

end Quote

namespace Scheme

/-- **Quoted output keeps the bytes** of a name that has a body, behind a prefix without stray
surrogates; the marker takes the prefix away. They stand as they are if the body needs no quotes,
and otherwise between two double quotes, with `_QQ_` for every double quote of the body and `_NL_`
for every line feed. -/
theorem quoted_output_keeps_bytes {s : Scheme} {k : PrefixKind} {full : Text} {name : Value}
    {bs : Bytes} (hq : s.useQuotes = true) (hp : s.fullPrefix k = .ok (.text full))
    (hn : name.toBytes = .ok bs) (hb : bodyOf bs ≠ [])
    (hfront : ∀ c ∈ frontOf bs full, c.isSurrogate = true → 0xDC80 ≤ c.val ∧ c.val ≤ 0xDCFF) :
    ∃ out needed, s.mangle name (.text k.name) = .ok out ∧
      s.policy.needsQuotes (bodyOf bs) = .ok needed ∧
      out.toBytes =
        if needed then
          0x22 :: ((frontOf bs full).toBytes ++
            Quote.replace 0x0A [0x5F, 0x4E, 0x4C, 0x5F]
              (Quote.replace 0x22 [0x5F, 0x51, 0x51, 0x5F] (bodyOf bs))) ++ [0x22]
        else (frontOf bs full).toBytes ++ bodyOf bs := by
  have hstray : (frontOf bs full).any CodePoint.isStray = false :=
    Text.any_isStray_eq_false_iff.2 hfront
  -- behind the prefix any decoded bytes come back, those of the body and those with its pieces
  have hdecoded : ∀ cs, (frontOf bs full ++ Text.ofBytes cs).toBytes =
      (frontOf bs full).toBytes ++ cs := by
    intro cs
    rw [Text.toBytes_append hstray (Text.any_isStray_ofBytes cs), Text.toBytes_ofBytes]
  obtain ⟨out, hout⟩ := exists_encode_eq_ok (s := s) (t := frontOf bs full) hb
  have hmangle : s.mangle name (.text k.name) = .ok out := by
    rw [mangle_eq_encode hn ((s.prefixFor_name k).trans hp) hb, hout]
  rcases (encode_text_eq_ok_iff hq).1 hout with ⟨hneeded, rfl⟩ | ⟨hneeded, rfl⟩
  · refine ⟨_, true, hmangle, hneeded, ?_⟩
    -- the quotes are ASCII, so the encoder treats what stands between them as if it stood alone
    have hinner : (frontOf bs full ++ Quote.body (bodyOf bs)).any CodePoint.isStray = false := by
      rw [List.any_append, hstray, Quote.body, Text.any_isStray_ofBytes, Bool.or_false]
    rw [if_pos rfl, ← Quote.flatMap_substitute_eq_replace, ← hdecoded]
    exact Quote.toBytes_enclose hinner
  · exact ⟨_, false, hmangle, hneeded, hdecoded (bodyOf bs)⟩

/-- A prefix that ends with the stand-in of a first byte, and a name that begins with the second
byte of the same code point; the result is not the text that its bytes decode to. -/
theorem quoted_output_keeps_bytes_split_sequence :
    let s : Scheme := ⟨.text [CodePoint.standIn 0xC3], .text [], .text [], true, .safe⟩
    let name := Value.bytes [0xA9, 0x22, 0x0A]
    let kind := PrefixKind.assemblerPrivate
    let bytes : Bytes :=
      [0x22, 0xC3, 0xA9, 0x5F, 0x51, 0x51, 0x5F, 0x5F, 0x4E, 0x4C, 0x5F, 0x22]
    (s.fullPrefix kind = .ok (.text [CodePoint.standIn 0xC3]) ∧
      bodyOf [0xA9, 0x22, 0x0A] ≠ []) ∧
    ∃ out, s.mangle name (.text kind.name) = .ok out ∧ out.toBytes = bytes ∧
      out ≠ Text.ofBytes bytes := by
  intro s name kind bytes
  have hp : s.fullPrefix kind = .ok (.text [CodePoint.standIn 0xC3]) := rfl
  have hb : bodyOf [0xA9, 0x22, 0x0A] ≠ [] := by decide
  have hn : name.toBytes = .ok [0xA9, 0x22, 0x0A] := rfl
  obtain ⟨out, needed, hout, hneeded, hbytes⟩ :=
    quoted_output_keeps_bytes rfl hp hn hb (by decide)
  obtain rfl : needed = true := (Except.ok.inj hneeded).symm
  obtain rfl := Except.ok.inj hout
  exact ⟨⟨hp, hb⟩, _, hout, hbytes, by decide⟩

end Scheme

end NameMangling
