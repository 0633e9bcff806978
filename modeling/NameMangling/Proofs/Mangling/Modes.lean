import NameMangling.Proofs.Mangling.Faults
import NameMangling.Proofs.Mangling.Unquoted

/-!
# Where the two modes agree

The rule for what may stand in a name as it is has been written twice: escaping asks each byte in
turn, and quoting asks the whole body at once. The two agree: a body needs no quotes exactly if
escaping makes nothing of it but its characters (`Policy.needsQuotes_eq_ok_false_iff_escape_eq`).
So a name with such a body has one mangled form, and it makes no difference whether odd names are
quoted or escaped.

What escaping makes of a name is a permitted text, and the bytes of a permitted text need no quotes.
This gives the harder half: where escaping changes nothing, the body is itself the bytes of what
comes out. It also makes permitted texts the fixed points of escaping
(`Policy.Permits.escape_toBytes`).

* `Scheme.encode_of_needsQuotes_eq_false` — a body that needs no quotes is encoded in one way;
* `Scheme.modes_agree` — the quoting decision against escaping, and one mode against the other.
-/

namespace NameMangling

namespace Policy

variable {p : Policy} {t : Text} {bs : Bytes}

/-! ### Bodies that need no quotes -/

/-- Escaping leaves a body that needs no quotes as it is. -/
theorem escape_eq_ofBytes (h : p.needsQuotes bs = .ok false) : p.escape bs = Text.ofBytes bs := by
  obtain ⟨b, rest, rfl, hb, hacc⟩ := needsQuotes_eq_ok_false_iff.1 h
  -- the body is ASCII, and so is decoded byte by byte as well
  calc p.escape (b :: rest)
      = (b :: rest).map CodePoint.ofByte := by simpa using escape_append_of_accepts hb hacc []
    _ = Text.ofBytes (b :: rest) :=
        (Text.ofBytes_of_lt fun c hc => p.accepts_lt (hacc c hc)).symm

theorem Permits.isAscii (h : p.Permits t) : t.isAscii = true :=
  List.all_eq_true.2 fun c hc => (h.acceptable c hc).1

/-- The bytes of a permitted text need no quotes. -/
theorem Permits.needsQuotes_toBytes (h : p.Permits t) (hne : t ≠ []) :
    p.needsQuotes t.toBytes = .ok false := by
  obtain ⟨c, rest, rfl⟩ := List.exists_cons_of_ne_nil hne
  rw [Text.toBytes_of_isAscii h.isAscii]
  -- what is asked of the first byte and of all bytes is what the text says of its characters
  refine needsQuotes_eq_ok_false_iff.2 ⟨_, _, rfl, h.noDigit c rfl, ?_⟩
  intro b hb
  obtain ⟨d, hd, rfl⟩ := List.mem_map.1 hb
  exact (h.acceptable d hd).2

/-- **Permitted texts are fixed points** of escaping. -/
theorem Permits.escape_toBytes (h : p.Permits t) : p.escape t.toBytes = t := by
  cases t with
  | nil => rfl
  | cons c rest =>
    rw [escape_eq_ofBytes (h.needsQuotes_toBytes (List.cons_ne_nil c rest)),
      Text.ofBytes_toBytes_of_isAscii h.isAscii]

/-- **The quoting decision** is whether escaping changes anything. -/
theorem needsQuotes_eq_ok_false_iff_escape_eq (hne : bs ≠ []) :
    p.needsQuotes bs = .ok false ↔ p.escape bs = Text.ofBytes bs := by
  refine ⟨escape_eq_ofBytes, fun h => ?_⟩
  have hescape : p.escape bs ≠ [] := fun hnil => hne (escape_eq_nil_iff.1 hnil)
  -- what comes out needs no quotes, and it is the body
  have hneeds : p.needsQuotes (p.escape bs).toBytes = .ok false :=
    (p.permits_escape bs).needsQuotes_toBytes hescape
  rwa [h, Text.toBytes_ofBytes] at hneeds

end Policy

namespace Scheme

variable {s : Scheme} {name : Value} {body bs : Bytes}

/-! ### One mode and the other -/

/-- **A scheme in another mode**: the same prefixes and acceptable bytes, with quotes or without. -/
def withQuotes (s : Scheme) (quotes : Bool) : Scheme := { s with useQuotes := quotes }

/-- The mode has no part in how a name is taken apart. -/
theorem parts?_withQuotes (s : Scheme) (quotes : Bool) (name kind : Value) :
    (s.withQuotes quotes).parts? name kind = s.parts? name kind := rfl

/-- **A body that needs no quotes is encoded in one way.** -/
theorem encode_of_needsQuotes_eq_false (h : s.policy.needsQuotes body = .ok false)
    (front : Value) : s.encode front body = front.before (s.policy.escape body) := by
  cases hq : s.useQuotes with
  | false => exact encode_of_not_useQuotes hq front body
  | true =>
    rw [encode, if_pos hq, h, Policy.escape_eq_ofBytes h]
    rfl

/-- So is a name with such a body mangled. -/
theorem mangle_withQuotes (hn : name.toBytes = .ok bs)
    (h : s.policy.needsQuotes (bodyOf bs) = .ok false) (quotes : Bool) (kind : Value) :
    (s.withQuotes quotes).mangle name kind = s.mangle name kind := by
  rw [mangle_eq_bind, mangle_eq_bind, parts?_withQuotes]
  -- the name is taken apart in one way, so only the encoding could depend on the mode
  cases hparts : s.parts? name kind with
  | error f => rfl
  | ok parts =>
    obtain ⟨front, body⟩ := parts
    obtain rfl : body = bodyOf bs := parts?_snd_eq hparts hn
    calc (s.withQuotes quotes).encode front (bodyOf bs)
        = front.before (s.policy.escape (bodyOf bs)) :=
          encode_of_needsQuotes_eq_false (s := s.withQuotes quotes) h front
      _ = s.encode front (bodyOf bs) := (encode_of_needsQuotes_eq_false h front).symm

/-- **The two modes agree.** Quoting can say of every body that is not empty whether it needs
quotes, and it needs none exactly if escaping leaves it as it is. A name whose body needs none has
the same result in both modes; behind a text this is the prefix and the decoded body. -/
theorem modes_agree :
    (∀ (p : Policy) (bs : Bytes), bs ≠ [] →
      ∃ needed, p.needsQuotes bs = .ok needed ∧
        (needed = false ↔ p.escape bs = Text.ofBytes bs)) ∧
    ∀ (s : Scheme) (name kind : Value) (bs : Bytes), name.toBytes = .ok bs →
      s.policy.needsQuotes (bodyOf bs) = .ok false →
      (s.withQuotes true).mangle name kind = (s.withQuotes false).mangle name kind ∧
        ∀ full, s.prefixFor kind = .ok (.text full) →
          (s.withQuotes true).mangle name kind =
            .ok (frontOf bs full ++ Text.ofBytes (bodyOf bs)) := by
  refine ⟨?_, ?_⟩
  · intro p bs hne
    -- the question has an answer as soon as there is a first byte
    obtain ⟨needed, hneeded⟩ : ∃ needed, p.needsQuotes bs = .ok needed := by
      cases bs with
      | nil => exact absurd rfl hne
      | cons b rest => exact ⟨_, rfl⟩
    refine ⟨needed, hneeded, ?_⟩
    rw [← Policy.needsQuotes_eq_ok_false_iff_escape_eq hne, hneeded, Except.ok.injEq]
  · intro s name kind bs hn h
    refine ⟨?_, fun full hp => ?_⟩
    · rw [mangle_withQuotes hn h, mangle_withQuotes hn h]
    · -- the answer is no, so there is a body, and behind a text it is encoded as in the other mode
      have hbody : bodyOf bs ≠ [] := Policy.ne_nil_of_needsQuotes h
      rw [mangle_withQuotes hn h, mangle_eq_encode hn hp hbody, encode_of_needsQuotes_eq_false h,
        Policy.escape_eq_ofBytes h, Value.before_text]

/-- A target that accepts the marker and the double quote, and a marked name whose body begins with
both; the prefix would need quotes, but the marker takes it away. -/
theorem modes_agree_marked_quote :
    let p : Policy := ⟨[0x01, 0x22], by simp⟩
    let s : Scheme := ⟨.text (Text.ofString "9 "), .text [], .text [], false, p⟩
    let name := Value.bytes [0x01, 0x22, 0x01, 0x39]
    let kind := Value.text PrefixKind.linkerPrivate.name
    let out := Text.ofString "\"\x019"
    (∃ needed, p.needsQuotes [0x22, 0x01, 0x39] = .ok needed ∧
      (needed = false ↔ p.escape [0x22, 0x01, 0x39] = Text.ofBytes [0x22, 0x01, 0x39])) ∧
    s.policy.needsQuotes (bodyOf [0x01, 0x22, 0x01, 0x39]) = .ok false ∧
      (s.withQuotes true).mangle name kind = .ok out ∧
      (s.withQuotes false).mangle name kind = .ok out := by
  intro p s name kind out
  have hbody : s.policy.needsQuotes (bodyOf [0x01, 0x22, 0x01, 0x39]) = .ok false := by decide
  have h := modes_agree.2 s name kind _ rfl hbody
  have hquoted : (s.withQuotes true).mangle name kind = .ok out := h.2 _ rfl
  exact ⟨modes_agree.1 p _ (by decide), hbody, hquoted, h.1.symm.trans hquoted⟩

end Scheme

end NameMangling
