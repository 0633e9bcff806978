import NameMangling.Proofs.Mangling.Faults
import Mathlib.Data.List.Infix
import Mathlib.Data.Set.Function

/-!
# Which names quoting confuses

Between quotes a double quote becomes `_QQ_` and a line feed `_NL_`, and a name may hold such pieces
itself. A piece of the result can be one of the two without standing for the byte only if the name
holds `_QQ` or `_NL` and then something whose text begins with an underscore: an underscore, a
double quote or a line feed. A byte string in which this happens nowhere is *unambiguous*
(`Quote.IsUnambiguous`), and quoted mode tells all names apart that are.

There are three cases. Names that need no quotes are decoded, and decoding loses nothing. Of two
names between quotes the bytes are read back from the left (`Quote.prefix_flatMap_iff`). And a name
that needs no quotes is never taken for one between quotes, whatever the prefix looks like, because
the last character of the result is a double quote in one case and none in the other.

* `Quote.flatMap_substitute_injOn` — replacing confuses no unambiguous byte strings;
* `Scheme.quoted_names_told_apart` — nor does mangling in quoted mode.
-/

namespace NameMangling

namespace Quote

variable {b r : UInt8} {bs rest x y : Bytes}

/-! ### Unambiguous byte strings -/

/-- The bytes that are replaced: the double quote and the line feed. -/
def replaced : Bytes := [0x22, 0x0A]

/-- What stands for them, up to the last underscore: `_QQ` and `_NL`. -/
def openings : List Bytes := [[0x5F, 0x51, 0x51], [0x5F, 0x4E, 0x4C]]

/-- Does a byte string begin with `_QQ` or `_NL` and, right behind that, with an underscore, a
double quote or a line feed? -/
def looksReplaced : Bytes → Bool
  | a :: c :: d :: b :: _ => openings.contains [a, c, d] && (b == 0x5F || replaced.contains b)
  | _ => false

/-- **An unambiguous byte string** does not look replaced from any of its bytes on. -/
def IsUnambiguous (bs : Bytes) : Prop := ∀ tail, tail <:+ bs → looksReplaced tail = false

instance : DecidablePred IsUnambiguous := fun bs =>
  decidable_of_iff (∀ tail ∈ bs.tails, looksReplaced tail = false) <| by
    simp only [List.mem_tails, IsUnambiguous]

theorem IsUnambiguous.of_cons (h : IsUnambiguous (b :: bs)) : IsUnambiguous bs :=
  fun tail ht => h tail (ht.trans (List.suffix_cons b bs))

theorem IsUnambiguous.looksReplaced_eq_false (h : IsUnambiguous bs) : looksReplaced bs = false :=
  h bs List.suffix_rfl

/-! ### Reading what has been replaced -/

theorem substitute_of_notMem (h : b ∉ replaced) : substitute b = [b] := by
  obtain ⟨hquote, h⟩ := List.ne_and_not_mem_of_not_mem_cons h
  exact substitute_of_ne hquote (List.ne_of_not_mem_cons h)

/-- A byte that is replaced becomes two letters between underscores, and the letters tell which byte
it was. -/
theorem exists_substitute_eq (h : r ∈ replaced) :
    ∃ c d, substitute r = [0x5F, c, d, 0x5F] ∧ c ≠ 0x5F ∧ d ≠ 0x5F ∧
      openings.contains [0x5F, c, d] = true := by
  simp only [replaced, List.mem_cons, List.not_mem_nil, or_false] at h
  rcases h with rfl | rfl
  · exact ⟨0x51, 0x51, rfl, by decide, by decide, by decide⟩
  · exact ⟨0x4E, 0x4C, rfl, by decide, by decide, by decide⟩

theorem substitute_injOn_replaced : ∀ b ∈ replaced, ∀ r ∈ replaced,
    substitute r <+: substitute b → r = b := by
  decide +kernel

/-- Anything but an underscore was itself. -/
theorem exists_of_cons_prefix_flatMap {c : UInt8} {t : Bytes} (hc : c ≠ 0x5F)
    (h : c :: t <+: bs.flatMap substitute) :
    ∃ rest, bs = c :: rest ∧ t <+: rest.flatMap substitute := by
  cases bs with
  | nil => exact absurd (List.prefix_nil.1 h) (List.cons_ne_nil _ _)
  | cons b rest =>
    rw [List.flatMap_cons] at h
    by_cases hb : b ∈ replaced
    · -- what is replaced begins with an underscore
      obtain ⟨_, _, hsub, -⟩ := exists_substitute_eq hb
      rw [hsub] at h
      exact absurd (List.cons_prefix_cons.1 h).1 hc
    · rw [substitute_of_notMem hb] at h
      obtain ⟨rfl, ht⟩ := List.cons_prefix_cons.1 h
      exact ⟨rest, rfl, ht⟩

/-- An underscore was itself or comes from a byte that has been replaced. -/
theorem exists_of_underscore_prefix_flatMap (h : [0x5F] <+: bs.flatMap substitute) :
    ∃ b rest, bs = b :: rest ∧ (b == 0x5F || replaced.contains b) = true := by
  cases bs with
  | nil => exact absurd (List.prefix_nil.1 h) (List.cons_ne_nil _ _)
  | cons b rest =>
    refine ⟨b, rest, rfl, Bool.or_eq_true_iff.2 ?_⟩
    rw [List.flatMap_cons] at h
    by_cases hb : b ∈ replaced
    · exact .inr (List.contains_iff_mem.2 hb)
    · rw [substitute_of_notMem hb] at h
      exact .inl (beq_iff_eq.2 (List.cons_prefix_cons.1 h).1.symm)

/-- **What reads as a replaced byte is one**, unless the byte string looks replaced. -/
theorem prefix_flatMap_iff (hr : r ∈ replaced) (h : looksReplaced bs = false) :
    substitute r <+: bs.flatMap substitute ↔ ∃ rest, bs = r :: rest := by
  refine ⟨?_, ?_⟩
  · intro hprefix
    cases bs with
    -- nothing is written for no bytes, and a replacement is not empty
    | nil =>
      obtain ⟨c, d, hsub, -⟩ := exists_substitute_eq hr
      rw [hsub] at hprefix
      exact absurd (List.prefix_nil.1 hprefix) (List.cons_ne_nil _ _)
    | cons b rest =>
      rw [List.flatMap_cons] at hprefix
      by_cases hb : b ∈ replaced
      · -- two replacements in the same place are the same, since they have one length
        obtain ⟨c, d, hsub, -⟩ := exists_substitute_eq hr
        obtain ⟨c', d', hsub', -⟩ := exists_substitute_eq hb
        have hlength : (substitute r).length ≤ (substitute b).length := by rw [hsub, hsub']; rfl
        have hsame : substitute r <+: substitute b :=
          List.prefix_of_prefix_length_le hprefix (List.prefix_append ..) hlength
        exact ⟨rest, by rw [substitute_injOn_replaced b hb r hr hsame]⟩
      · -- the whole of it stands in the byte string itself, up to the last underscore
        obtain ⟨c, d, hsub, hc, hd, hmark⟩ := exists_substitute_eq hr
        rw [substitute_of_notMem hb, hsub, List.singleton_append] at hprefix
        obtain ⟨rfl, hletters⟩ := List.cons_prefix_cons.1 hprefix
        obtain ⟨rest, rfl, hletter⟩ := exists_of_cons_prefix_flatMap hc hletters
        obtain ⟨rest, rfl, hlast⟩ := exists_of_cons_prefix_flatMap hd hletter
        obtain ⟨e, back, rfl, he⟩ := exists_of_underscore_prefix_flatMap hlast
        rw [looksReplaced, hmark, he] at h
        cases h
  · rintro ⟨rest, rfl⟩
    rw [List.flatMap_cons]
    exact List.prefix_append ..

/-- Two unambiguous byte strings that are written alike begin with the same byte. -/
theorem head_eq_of_flatMap_eq (hx : looksReplaced (b :: x) = false)
    (hy : looksReplaced (r :: y) = false)
    (h : (b :: x).flatMap substitute = (r :: y).flatMap substitute) : b = r := by
  -- a first byte that has been replaced can be read off what is written, on either side
  by_cases hb : b ∈ replaced
  · obtain ⟨rest, hrest⟩ := (prefix_flatMap_iff hb hy).1 <| by
      rw [← h, List.flatMap_cons]
      exact List.prefix_append ..
    exact (List.cons.inj hrest).1.symm
  by_cases hr : r ∈ replaced
  · obtain ⟨rest, hrest⟩ := (prefix_flatMap_iff hr hx).1 <| by
      rw [h, List.flatMap_cons]
      exact List.prefix_append ..
    exact (List.cons.inj hrest).1
  · -- neither has been replaced, so both are written as themselves
    rw [List.flatMap_cons, List.flatMap_cons, substitute_of_notMem hb, substitute_of_notMem hr] at h
    exact (List.cons.inj h).1

/-- **Replacing confuses no unambiguous byte strings.** -/
theorem flatMap_substitute_injOn :
    Set.InjOn (fun bs : Bytes => bs.flatMap substitute) {bs | IsUnambiguous bs} := by
  intro x hx y hy h
  simp only at h
  -- byte for byte: the first bytes are the same, and what is written for them is cut off
  induction x generalizing y with
  | nil =>
    cases y with
    | nil => rfl
    | cons r y =>
      rw [List.flatMap_nil, List.flatMap_cons] at h
      exact absurd (List.append_eq_nil_iff.1 h.symm).1 (substitute_ne_nil r)
  | cons b x ih =>
    cases y with
    | nil =>
      rw [List.flatMap_nil, List.flatMap_cons] at h
      exact absurd (List.append_eq_nil_iff.1 h).1 (substitute_ne_nil b)
    | cons r y =>
      obtain rfl : b = r :=
        head_eq_of_flatMap_eq hx.looksReplaced_eq_false hy.looksReplaced_eq_false h
      rw [List.flatMap_cons, List.flatMap_cons] at h
      rw [ih hx.of_cons hy.of_cons (List.append_cancel_left h)]

theorem body_injOn : Set.InjOn body {bs | IsUnambiguous bs} :=
  fun _ hx _ hy h => flatMap_substitute_injOn hx hy (Text.ofBytes_injective h)

-- Without the condition a double quote could be taken for the piece that stands for it.
example : body [0x22] = body [0x5F, 0x51, 0x51, 0x5F] := by decide

end Quote

namespace Scheme

variable {s : Scheme} {front out : Text} {x y : Bytes}

open Quote

/-! ### Encoded bodies -/

/-- The last character of a body that needs no quotes is no double quote, so it is not taken for one
between quotes. -/
theorem append_ofBytes_ne_enclose (hquote : s.policy.accepts 0x22 = false)
    (hy : s.policy.needsQuotes y = .ok false) (inner : Text) :
    front ++ Text.ofBytes y ≠ Quote.enclose inner := by
  obtain ⟨b, rest, rfl, -, hall⟩ := Policy.needsQuotes_eq_ok_false_iff.1 hy
  have hne : Text.ofBytes (b :: rest) ≠ [] :=
    fun hnil => List.cons_ne_nil _ _ (Text.ofBytes_eq_nil_iff.1 hnil)
  intro h
  -- the last character would be the closing quote, which is then a byte of the body
  have hlast : (Text.ofBytes (b :: rest)).getLast hne = CodePoint.ofChar '"' := by
    have h' := congrArg List.getLast? h
    rw [List.getLast?_append_of_ne_nil _ hne, Quote.enclose, List.getLast?_concat,
      List.getLast?_eq_some_getLast hne] at h'
    exact Option.some.inj h'
  have hmem : CodePoint.ofChar '"' ∈ Text.ofBytes (b :: rest) := hlast ▸ List.getLast_mem hne
  have hbyte : 0x22 ∈ b :: rest := Text.mem_of_mem_ofBytes hmem (by decide)
  have hacc : s.policy.accepts 0x22 = true := hall _ hbyte
  exact Bool.false_ne_true (hquote.symm.trans hacc)

/-- **Encoding in quoted mode confuses no unambiguous bodies** behind one prefix. -/
theorem eq_of_encode_eq (hq : s.useQuotes = true) (hquote : s.policy.accepts 0x22 = false)
    (hx : IsUnambiguous x) (hy : IsUnambiguous y) (hox : s.encode (.text front) x = .ok out)
    (hoy : s.encode (.text front) y = .ok out) : x = y := by
  rcases (encode_text_eq_ok_iff hq).1 hox with ⟨hnx, hox⟩ | ⟨hnx, hox⟩ <;>
    rcases (encode_text_eq_ok_iff hq).1 hoy with ⟨hny, hoy⟩ | ⟨hny, hoy⟩
  · -- both between quotes, where the prefix is the same
    have hinner : front ++ body x = front ++ body y :=
      List.append_cancel_right (List.cons.inj (hox.trans hoy.symm)).2
    exact body_injOn hx hy (List.append_cancel_left hinner)
  · -- one between quotes and one not, which do not end alike
    exact absurd (hoy.trans hox.symm) (append_ofBytes_ne_enclose hquote hny _)
  · exact absurd (hox.trans hoy.symm) (append_ofBytes_ne_enclose hquote hnx _)
  · exact Text.ofBytes_injective (List.append_cancel_left (hox.trans hoy.symm))

/-! ### Mangled names -/

/-- A name that does not begin with the marker is encoded as it is, behind the prefix. -/
theorem mangle_bytes {kind : Value} (hp : s.prefixFor kind = .ok (.text front)) (hx : x ≠ [])
    (hmarker : x.head? ≠ some marker) :
    s.mangle (.bytes x) kind = s.encode (.text front) x :=
  mangle_of_unmarked (Value.toBytes_bytes x) hp hx hmarker

/-- **Quoted mode tells names apart.** If the target does not accept the double quote, every
unambiguous name that is not empty and not marked has a mangled form, and no two of them have the
same, whatever the prefixes are. -/
theorem quoted_names_told_apart (hq : s.useQuotes = true)
    (hquote : s.policy.accepts 0x22 = false) (htext : s.HasTextPrefixes) (k : PrefixKind) :
    let names : Set Bytes := {x | x ≠ [] ∧ x.head? ≠ some marker ∧ IsUnambiguous x}
    (∀ x ∈ names, ∃ out, s.mangle (.bytes x) (.text k.name) = .ok out) ∧
      Set.InjOn (fun x => s.mangle (.bytes x) (.text k.name)) names := by
  intro names
  obtain ⟨front, hp⟩ := htext.prefixFor k
  have hreturns : ∀ x ∈ names, ∃ out, s.mangle (.bytes x) (.text k.name) = .ok out := by
    rintro x ⟨hx, hmarker, -⟩
    rw [mangle_bytes hp hx hmarker]
    exact exists_encode_eq_ok hx
  refine ⟨hreturns, ?_⟩
  intro x hx y hy h
  -- both names have one result, in which the prefix is the same
  obtain ⟨out, hout⟩ := hreturns x hx
  have hout' : s.mangle (.bytes y) (.text k.name) = .ok out := h.symm.trans hout
  rw [mangle_bytes hp hx.1 hx.2.1] at hout
  rw [mangle_bytes hp hy.1 hy.2.1] at hout'
  exact eq_of_encode_eq hq hquote hx.2.2 hy.2.2 hout hout'

/-- Names made of pieces of what stands for a double quote, behind a prefix that looks like such a
piece itself, for a target that accepts the line feed. One of them is put between quotes. -/
theorem quoted_names_told_apart_pieces :
    let s : Scheme :=
      { defaultPrefix := .text (Text.ofString "\"_Q"), privatePrefix := .text [Text.newline]
        linkerPrivatePrefix := .text [], useQuotes := true, policy := ⟨[0x0A], by simp⟩ }
    let x : Bytes := [0x22, 0x51, 0x51, 0x5F]
    let y : Bytes := [0x5F, 0x51, 0x51, 0x51, 0x0A]
    let kind := Value.text PrefixKind.assemblerPrivate.name
    (IsUnambiguous x ∧ IsUnambiguous y) ∧
      s.mangle (.bytes x) kind = .ok (Text.ofString "\"\n\"_Q_QQ_QQ_\"") ∧
      s.mangle (.bytes y) kind = .ok (Text.ofString "\n\"_Q_QQQ\n") ∧
      s.mangle (.bytes x) kind ≠ s.mangle (.bytes y) kind := by
  intro s x y kind
  have hx : IsUnambiguous x := by decide
  have hy : IsUnambiguous y := by decide
  have htext : s.HasTextPrefixes := ⟨⟨_, rfl⟩, ⟨_, rfl⟩, ⟨_, rfl⟩⟩
  have hapart := (quoted_names_told_apart (s := s) rfl (by decide) htext .assemblerPrivate).2
  refine ⟨⟨hx, hy⟩, by decide, by decide, fun h => ?_⟩
  have hxy : x = y := hapart ⟨by decide, by decide, hx⟩ ⟨by decide, by decide, hy⟩ h
  exact absurd hxy (by decide)

end Scheme

end NameMangling
