import NameMangling.Proofs.Mangling.Modes

/-!
# Mangled names behind the marker

A front end that knows the exact form of a symbol puts the marker in front of it. If mangling made
this form, and made it without quotes, then mangling keeps it: it comes out again as it is, for
every kind and in both modes.

Two rules could spoil this, the one for digits and the one for acceptable bytes. Neither has
anything left to do, because a result without quotes is a permitted text
(`Scheme.permits_of_staysBare`) and permitted texts are the fixed points of escaping. The marker is
looked for once, at the beginning of a name. So it does no harm if the result begins with the
marker itself, as it may where the marker is acceptable.

* `Scheme.mangle_marked` — behind the marker a permitted text is its own mangled form;
* `Scheme.marked_output_unchanged` — and so is what mangling made.
-/

namespace NameMangling.Scheme

variable {s : Scheme} {name kind : Value} {full out : Text}

/-- **A name that stays without quotes**: the scheme has none, or the body of the name needs
none. -/
def StaysBare (s : Scheme) (name : Value) : Prop :=
  s.useQuotes = true →
    ∃ bs, name.toBytes = .ok bs ∧ s.policy.needsQuotes (bodyOf bs) = .ok false

/-- What becomes of such a name behind a permitted prefix is permitted, in either mode. -/
theorem permits_of_staysBare (hbare : s.StaysBare name)
    (hp : s.prefixFor kind = .ok (.text full)) (hf : s.policy.Permits full)
    (h : s.mangle name kind = .ok out) : out ≠ [] ∧ s.policy.Permits out := by
  cases hq : s.useQuotes with
  | false => exact permits_mangle hq hp hf h
  | true =>
    -- the result is the one of the mode without quotes
    obtain ⟨bs, hn, hneeds⟩ := hbare hq
    rw [← mangle_withQuotes hn hneeds false kind] at h
    exact permits_mangle (s := s.withQuotes false) rfl hp hf h

/-- **Behind the marker a permitted text stays as it is.** A kind is asked for its prefix all the
same, and mangling fails where it has none. -/
theorem mangle_marked (hout : s.policy.Permits out) (hne : out ≠ []) (kind : Value) :
    s.mangle (.text (CodePoint.ofByte marker :: out)) kind =
      (s.prefixFor kind).map fun _ => out := by
  have hneeds : s.policy.needsQuotes out.toBytes = .ok false := hout.needsQuotes_toBytes hne
  have hrest : out.toBytes ≠ [] := Policy.ne_nil_of_needsQuotes hneeds
  -- the marker is ASCII, so it is the first byte whatever comes behind it
  have hbytes : (Value.text (CodePoint.ofByte marker :: out)).toBytes =
      .ok (marker :: out.toBytes) :=
    congrArg Except.ok (Text.toBytes_cons_of_isAscii (by decide) out)
  cases hp : s.prefixFor kind with
  | error f =>
    rw [mangle, hbytes]
    simp only [bind, Except.bind, hp]
    rfl
  | ok front =>
    -- the prefix is there, and the marker takes it away
    have hparts : s.parts? (.text (CodePoint.ofByte marker :: out)) kind =
        .ok (.text [], out.toBytes) :=
      parts?_eq_ok_iff.2 ⟨marker, _, front, hbytes, hp, .inl ⟨rfl, hrest, rfl, rfl⟩⟩
    rw [mangle_eq_bind, hparts]
    change s.encode (.text []) out.toBytes = .ok out
    -- a body that needs no quotes is escaped in both modes, and a permitted one stays as it is
    rw [encode_of_needsQuotes_eq_false hneeds, hout.escape_toBytes]
    rfl

/-- **Mangled names pass through the marker.** What mangling made without quotes, behind a permitted
prefix, is its own mangled form behind the marker, in both modes and for every kind that has a
prefix; if the prefixes are texts, every kind has one. In particular escaping changes nothing in
what it has made itself. -/
theorem marked_output_unchanged (s : Scheme) :
    (∀ (name kind : Value) (full out : Text), s.prefixFor kind = .ok (.text full) →
      s.policy.Permits full → s.StaysBare name → s.mangle name kind = .ok out →
      ∀ (quotes : Bool) (k : PrefixKind),
        let again := (s.withQuotes quotes).mangle (.text (CodePoint.ofByte marker :: out))
          (.text k.name)
        again = (s.fullPrefix k).map (fun _ => out) ∧ (s.HasTextPrefixes → again = .ok out)) ∧
    ∀ bs : Bytes, s.policy.escape (s.policy.escape bs).toBytes = s.policy.escape bs := by
  refine ⟨?_, fun bs => (s.policy.permits_escape bs).escape_toBytes⟩
  intro name kind full out hp hf hbare h quotes k again
  -- the result is permitted, whichever mode it comes from, and the mode changes no policy
  obtain ⟨hne, hout⟩ := permits_of_staysBare hbare hp hf h
  have hagain : again = (s.fullPrefix k).map fun _ => out := by
    have hmarked := mangle_marked (s := s.withQuotes quotes) hout hne (.text k.name)
    rw [prefixFor_name] at hmarked
    exact hmarked
  refine ⟨hagain, fun htext => ?_⟩
  obtain ⟨t, ht⟩ := htext.prefixFor k
  rw [prefixFor_name] at ht
  rw [hagain, ht]
  rfl

/-- A target that accepts the marker, and a marked name whose body begins with the marker again and
a digit. The result is mangled as a name for the linker, in quoted mode. -/
theorem marked_output_unchanged_marker_again :
    let p : Policy := ⟨[0x01], by simp⟩
    let s : Scheme := ⟨.text (Text.ofString "_"), .text (Text.ofString "L"),
      .text (Text.ofString "1 "), false, p⟩
    let name := Value.bytes [0x01, 0x01, 0x39, 0x20]
    let kind := Value.text PrefixKind.assemblerPrivate.name
    let out := Text.ofString "\x019_20_"
    (s.prefixFor kind = .ok (.text (Text.ofString "L_")) ∧ p.Permits (Text.ofString "L_") ∧
      s.StaysBare name ∧ s.mangle name kind = .ok out ∧ s.HasTextPrefixes) ∧
    (s.withQuotes true).mangle (.text (CodePoint.ofByte marker :: out))
      (.text PrefixKind.linkerPrivate.name) = .ok out := by
  intro p s name kind out
  have hp : s.prefixFor kind = .ok (.text (Text.ofString "L_")) := rfl
  have hf : p.Permits (Text.ofString "L_") := by decide
  have hbare : s.StaysBare name := fun hq => nomatch hq
  have h : s.mangle name kind = .ok out := rfl
  have htext : s.HasTextPrefixes := ⟨⟨_, rfl⟩, ⟨_, rfl⟩, ⟨_, rfl⟩⟩
  exact ⟨⟨hp, hf, hbare, h, htext⟩,
    ((marked_output_unchanged s).1 _ _ _ _ hp hf hbare h true .linkerPrivate).2 htext⟩

end NameMangling.Scheme
