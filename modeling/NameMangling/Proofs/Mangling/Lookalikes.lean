import NameMangling.Proofs.Mangling.MadeUp
import NameMangling.Proofs.Mangling.Prefixes

/-!
# What clashes with a made-up name

The mangled name of an unnamed symbol is a prefix and a stem. A name of the same kind has the same
prefix, so it clashes if its body is written like the stem, and only the stem itself is. This does
not follow from what is known about escaping in general, which does confuse names. But an escape has
underscores at its ends, three places apart, and no two underscores of a stem are three places apart
(`Mangler.not_isInfix_stem`). So nothing in the stem was escaped, and the body reads like it.

Between quotes no body is written like the stem, however long it is and whatever the prefix looks
like: the last character would be a double quote.

* `Policy.escape_eq_stem_iff` — only the stem is escaped like the stem;
* `Mangler.only_literal_name_clashes` — only the made-up name is mangled like it.
-/

namespace NameMangling

/-! ### Texts in which there is no escape -/

namespace Policy

variable {p : Policy} {first : Bool} {bs : Bytes}

/-- **Where no escape comes out, nothing was escaped.** -/
theorem escapeFrom_eq_map (h : ∀ v, ¬ Escape.ofByte v <:+: p.escapeFrom first bs) :
    p.escapeFrom first bs = bs.map CodePoint.ofByte := by
  induction bs generalizing first with
  | nil => rfl
  | cons b rest ih =>
    rw [escapeFrom] at h ⊢
    cases hb : p.escapes first b with
    -- an escaped byte would leave its escape
    | true =>
      rw [writeAt_of_escapes hb] at h
      exact absurd (List.prefix_append ..).isInfix (h b)
    | false =>
      rw [writeAt_of_not_escapes hb] at h ⊢
      have hrest : ∀ v, ¬ Escape.ofByte v <:+: p.escapeFrom false rest :=
        fun v hv => h v (hv.trans (List.suffix_append ..).isInfix)
      rw [ih hrest]
      rfl

end Policy

/-! ### Stems -/

namespace Mangler

/-- **The underscores of a stem** are those of the word before the number. -/
theorem index_of_getElem?_stem {n i : Nat} (h : (stem n)[i]? = some (CodePoint.ofChar '_')) :
    i = 0 ∨ i = 1 ∨ i = 9 := by
  rcases Nat.lt_or_ge i 10 with hi | hi
  · rw [stem, List.getElem?_append_left hi] at h
    have hword : ∀ i < 10, (Text.ofString "__unnamed_")[i]? = some (CodePoint.ofChar '_') →
        i = 0 ∨ i = 1 ∨ i = 9 := by decide
    exact hword i hi h
  · rw [stem, List.getElem?_append_right hi] at h
    have hdigit := Numeral.isDigit_of_mem_decimal (List.mem_of_getElem? h)
    exact absurd hdigit.2 (by decide)

/-- **No escape stands in a stem**, since two of its underscores would be three places apart. -/
theorem not_isInfix_stem (n : Nat) (v : UInt8) : ¬ Escape.ofByte v <:+: stem n := by
  rintro ⟨front, back, h⟩
  -- the underscores of the escape, as characters of the stem
  have hopen : (stem n)[front.length]? = some (CodePoint.ofChar '_') := by
    rw [← h, List.append_assoc, List.getElem?_append_right (Nat.le_refl _), Nat.sub_self]
    rfl
  have hclose : (stem n)[front.length + 3]? = some (CodePoint.ofChar '_') := by
    rw [← h, List.append_assoc, List.getElem?_append_right (Nat.le_add_right _ _),
      Nat.add_sub_cancel_left]
    rfl
  have hfirst := index_of_getElem?_stem hopen
  have hlast := index_of_getElem?_stem hclose
  omega

/-- A stem is permitted by every target. -/
theorem permits_stem (p : Policy) (n : Nat) : p.Permits (stem n) where
  acceptable c hc :=
    ⟨(isSafe_of_mem_stem hc).1, p.accepts_of_isSafe (isSafe_of_mem_stem hc).2⟩
  noDigit c hc := by
    obtain rfl : CodePoint.ofChar '_' = c := Option.some.inj hc
    rfl

theorem stem_ne_nil (n : Nat) : stem n ≠ [] := List.cons_ne_nil _ _

theorem head?_toBytes_stem (n : Nat) : (stem n).toBytes.head? = some Escape.underscore := by
  rw [Text.toBytes_of_isAscii (isAscii_stem n)]
  rfl

end Mangler

/-- **Only the stem is escaped like the stem.** -/
theorem Policy.escape_eq_stem_iff {p : Policy} {n : Nat} {bs : Bytes} :
    p.escape bs = Mangler.stem n ↔ bs = (Mangler.stem n).toBytes := by
  have hstem := Mangler.permits_stem p n
  refine ⟨?_, ?_⟩
  · intro h
    -- no escape stands in the stem, so every byte was written as itself
    have hno : ∀ v, ¬ Escape.ofByte v <:+: p.escapeFrom true bs := by
      rw [escapeFrom_true, h]
      exact Mangler.not_isInfix_stem n
    have hbytes : bs.map CodePoint.ofByte = Mangler.stem n := by
      rw [← escapeFrom_eq_map hno, escapeFrom_true, h]
    -- so they are acceptable bytes, which means that the decoder reads them as the stem
    have hacc : ∀ b ∈ bs, p.accepts b = true := by
      intro b hb
      have hc := (hstem.acceptable _ (hbytes ▸ List.mem_map_of_mem hb)).2
      rwa [CodePoint.val_ofByte, UInt8.ofNat_toNat] at hc
    rw [← hbytes, ← Text.ofBytes_of_lt fun b hb => p.accepts_lt (hacc b hb), Text.toBytes_ofBytes]
  · rintro rfl
    exact hstem.escape_toBytes

namespace Scheme

variable {s : Scheme} {kind : Value} {front : Text} {bs : Bytes} {n : Nat}

/-- **What is encoded like the stem** behind a prefix is the stem. -/
theorem encode_eq_append_stem_iff (hb : bs ≠ []) :
    s.encode (.text front) bs = .ok (front ++ Mangler.stem n) ↔
      bs = (Mangler.stem n).toBytes := by
  by_cases hputs : s.PutsInQuotes bs
  · rw [encode_of_putsInQuotes hputs]
    refine iff_of_false ?_ ?_
    · intro h
      -- the closing quote would be the last character of the stem
      have hlast := congrArg List.getLast? (Except.ok.inj h)
      rw [Quote.enclose, List.getLast?_concat,
        List.getLast?_append_of_ne_nil _ (Mangler.stem_ne_nil n)] at hlast
      have hmem : CodePoint.ofChar '"' ∈ Mangler.stem n := List.mem_of_getLast? hlast.symm
      exact absurd (Mangler.isSafe_of_mem_stem hmem).2 (by decide)
    · rintro rfl
      have hneeds := (Mangler.permits_stem s.policy n).needsQuotes_toBytes (Mangler.stem_ne_nil n)
      rw [hputs.2] at hneeds
      cases hneeds
  · rw [encode_of_not_putsInQuotes hb hputs, Except.ok.injEq, List.append_cancel_left_eq,
      Policy.escape_eq_stem_iff]

/-- A stem, which is a made-up name without a suffix, is mangled to the prefix and the stem. -/
theorem mangle_stem (hp : s.prefixFor kind = .ok (.text front)) (n : Nat) :
    s.mangle (.text (Mangler.stem n)) kind = .ok (front ++ Mangler.stem n) := by
  have hneeds := (Mangler.permits_stem s.policy n).needsQuotes_toBytes (Mangler.stem_ne_nil n)
  have hne : (Mangler.stem n).toBytes ≠ [] := Policy.ne_nil_of_needsQuotes hneeds
  have hmarker : (Mangler.stem n).toBytes.head? ≠ some marker := by
    rw [Mangler.head?_toBytes_stem]
    decide
  rw [mangle_of_unmarked (Value.toBytes_text _) hp hne hmarker]
  exact (encode_eq_append_stem_iff hne).2 rfl

end Scheme

/-- **Only its literal name clashes with an unnamed symbol.** If the prefixes are texts, an unnamed
symbol is mangled without a suffix, and so is every name of the same kind that is neither empty nor
marked. Both have one mangled form exactly if the bytes of the name are `__unnamed_` and the decimal
digits of the symbol's number. -/
theorem Mangler.only_literal_name_clashes {m : Mangler} (htext : m.scheme.HasTextPrefixes)
    (id : SymbolId) {s : Symbol} (hi : s.isIntrinsic = false) (hn : s.isNamed = false)
    (forcePrivate : Bool) (address : Address) :
    let number := (m.table.request ⟨id, address, s.isPinned⟩).1
    ∃ out, (m.mangleSymbol id s (.text []) forcePrivate address).1 = .ok (.text out) ∧
      ∀ name bs, name.toBytes = .ok bs → bs ≠ [] → bs.head? ≠ some Scheme.marker →
        ∃ t, m.scheme.mangle name (.text (s.kind forcePrivate).name) = .ok t ∧
          (t = out ↔ bs = (Text.ofString "__unnamed_" ++ Numeral.decimal number).toBytes) := by
  intro number
  obtain ⟨front, hp⟩ := htext.prefixFor (s.kind forcePrivate)
  refine ⟨front ++ stem number, ?_, ?_⟩
  · rw [mangleSymbol_fst m id _ forcePrivate address hi hn, unnamed_text, List.append_nil]
    exact congrArg (Except.map Value.text) (Scheme.mangle_stem hp number)
  · intro name bs hbytes hne hmarker
    -- name and stem stand behind the same prefix, so it is up to the encoded body
    rw [Scheme.mangle_of_unmarked hbytes hp hne hmarker]
    obtain ⟨t, ht⟩ := Scheme.exists_encode_eq_ok (s := m.scheme) (t := front) hne
    have hclash : m.scheme.encode (.text front) bs = .ok (front ++ stem number) ↔
        bs = (stem number).toBytes := Scheme.encode_eq_append_stem_iff hne
    rw [ht, Except.ok.injEq] at hclash
    exact ⟨t, ht, hclash⟩

/-- A prefix that ends like an escape begins, and an unnamed symbol with the second number. The
bytes of its made-up name clash with it, and a text with a zero before the number does not. -/
theorem Mangler.only_literal_name_clashes_leading_zero :
    let scheme : Scheme := ⟨.text (Text.ofString "_5"), .text [], .text [], false, .safe⟩
    let m := ((Mangler.ofScheme scheme).mangleSymbol 0 (.foreign {}) (.text []) false).2
    let s : Symbol := .foreign { name := .text (Text.ofString "a"), isPrivate := true }
    let out := Text.ofString "_5__unnamed_2"
    let kind := Value.text PrefixKind.assemblerPrivate.name
    let literal : Bytes := [0x5F, 0x5F, 0x75, 0x6E, 0x6E, 0x61, 0x6D, 0x65, 0x64, 0x5F, 0x32]
    let zero := Text.ofString "__unnamed_02"
    (m.scheme.HasTextPrefixes ∧ s.isIntrinsic = false ∧ s.isNamed = false) ∧
    (m.mangleSymbol 1 s (.text []) false).1 = .ok (.text out) ∧
      m.scheme.mangle (.bytes literal) kind = .ok out ∧
      m.scheme.mangle (.text zero) kind ≠ .ok out := by
  intro scheme m s out kind literal zero
  have htext : m.scheme.HasTextPrefixes := ⟨⟨_, rfl⟩, ⟨_, rfl⟩, ⟨_, rfl⟩⟩
  have hout : (m.mangleSymbol 1 s (.text []) false).1 = .ok (.text out) := by
    simp only [m, scheme, s, out]
    rfl
  obtain ⟨o, ho, hclash⟩ := only_literal_name_clashes htext 1 (s := s) rfl rfl false 1
  -- the form that the theorem speaks of is the one that was computed
  obtain rfl : out = o := Value.text.inj (Except.ok.inj (hout.symm.trans ho))
  refine ⟨⟨htext, rfl, rfl⟩, hout, ?_, ?_⟩
  · obtain ⟨t, ht, hiff⟩ := hclash (.bytes literal) literal rfl (by decide) (by decide)
    obtain rfl := hiff.2 (by decide)
    exact ht
  · obtain ⟨t, ht, hiff⟩ := hclash (.text zero) zero.toBytes rfl (by decide) (by decide)
    intro h
    have hbytes := hiff.1 (Except.ok.inj (ht.symm.trans h))
    exact absurd hbytes (by decide)

end NameMangling
