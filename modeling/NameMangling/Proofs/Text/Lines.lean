import NameMangling.Proofs.Text.Encoding
import NameMangling.Text.Lines

/-!
# Lines, written and read

Byte strings can be written one after the other, each with a line end behind it (`Written`). The
line ends may differ from line to line, and the byte strings may be of any kind, also ones that
break off in the middle of a sequence: a line end is ASCII, and so ends what is before it.

Two things have to be minded by the writer. A carriage return must not come before a line feed that
is to be a line end by itself. And the line end behind the last line can only be left out if there
is anything in the line.

* `Written.lines_ofBytes` — the lines are found again when all of the bytes are decoded and the text
  is divided into lines;
* `written_iff` — any bytes can be taken for written lines, in just one way.
-/

namespace NameMangling

namespace Text

variable {line rest : Text}

/-! ### Line ends -/

/-- It only matters before a line feed whether a carriage return has just been read. -/
theorem unifyLineEnds_true {t : Text} (h : t.head? ≠ some newline) :
    unifyLineEnds true t = unifyLineEnds false t := by
  cases t with
  | nil => rfl
  | cons c t =>
    have hc : c ≠ newline := fun heq => h (congrArg some heq)
    simp only [unifyLineEnds, hc, false_and, if_false]

/-- A text without line ends stays as it is, whatever follows. -/
theorem unifyLineEnds_append (hn : newline ∉ line) (hr : carriageReturn ∉ line) (rest : Text) :
    unifyLineEnds false (line ++ rest) = line ++ unifyLineEnds false rest := by
  induction line with
  | nil => rfl
  | cons c line ih =>
    obtain ⟨hcn, hn⟩ := List.ne_and_not_mem_of_not_mem_cons hn
    obtain ⟨hcr, hr⟩ := List.ne_and_not_mem_of_not_mem_cons hr
    rw [List.cons_append, unifyLineEnds, if_neg (Ne.symm hcr), if_neg fun h => hcn h.1.symm,
      ih hn hr, List.cons_append]

end Text

/-! ### Lines of bytes -/

/-- **A line end.** -/
inductive LineEnd where
  | lineFeed
  | carriageReturn
  /-- A carriage return and a line feed. -/
  | both
  deriving DecidableEq

/-- The bytes of a line end. -/
def LineEnd.bytes : LineEnd → Bytes
  | lineFeed => [0x0A]
  | carriageReturn => [0x0D]
  | both => [0x0D, 0x0A]

/-- Does a byte string hold no byte of a line end? -/
def IsSingleLine (line : Bytes) : Prop := 0x0A ∉ line ∧ 0x0D ∉ line

/-- **Lines are written** as bytes, with any line ends. -/
inductive Written : List Bytes → Bytes → Prop where
  | nil : Written [] []
  /-- The line end behind the last line is left out. -/
  | last {line : Bytes} (h : IsSingleLine line) (hne : line ≠ []) : Written [line] line
  /-- A line is written before others, with a line end that does not run into them. -/
  | cons {line rest : Bytes} {lines : List Bytes} (h : IsSingleLine line) (e : LineEnd)
    (hapart : e = .carriageReturn → rest.head? ≠ some 0x0A) (hrest : Written lines rest) :
    Written (line :: lines) (line ++ e.bytes ++ rest)

section Written

variable {line rest : Bytes} {e : LineEnd}

theorem IsSingleLine.newline_notMem (h : IsSingleLine line) :
    Text.newline ∉ Text.ofBytes line :=
  fun hm => h.1 (Text.mem_of_mem_ofBytes hm (by decide))

theorem IsSingleLine.carriageReturn_notMem (h : IsSingleLine line) :
    Text.carriageReturn ∉ Text.ofBytes line :=
  fun hm => h.2 (Text.mem_of_mem_ofBytes hm (by decide))

/-- **A line end is decoded by itself**, and so is the line before it. -/
theorem LineEnd.ofBytes_append (e : LineEnd) (line rest : Bytes) :
    Text.ofBytes (line ++ e.bytes ++ rest) =
      Text.ofBytes line ++ e.bytes.map CodePoint.ofByte ++ Text.ofBytes rest := by
  have hascii : ∀ b ∈ e.bytes, b < 0x80 := by cases e <;> simp [LineEnd.bytes]
  cases hb : e.bytes with
  | nil => cases e <;> cases hb
  | cons b more =>
    rw [hb] at hascii
    calc Text.ofBytes (line ++ (b :: more) ++ rest)
        = Text.ofBytes line ++ CodePoint.ofByte b :: Text.ofBytes (more ++ rest) := by
          rw [List.append_assoc, List.cons_append,
            Text.ofBytes_append_cons (hascii b List.mem_cons_self)]
      _ = Text.ofBytes line ++ (b :: more).map CodePoint.ofByte ++ Text.ofBytes rest := by
          rw [Text.ofBytes_append_of_lt fun c hc => hascii c (List.mem_cons_of_mem b hc),
            List.append_assoc, List.map_cons, List.cons_append]

/-- **A line end is unified** to a line feed, unless it runs into what follows. -/
theorem LineEnd.unifyLineEnds_append {t : Text}
    (hapart : e = .carriageReturn → t.head? ≠ some Text.newline) :
    Text.unifyLineEnds false (e.bytes.map CodePoint.ofByte ++ t) =
      Text.newline :: Text.unifyLineEnds false t := by
  cases e with
  | lineFeed => rfl
  | both => rfl
  | carriageReturn =>
    show Text.newline :: Text.unifyLineEnds true t = _
    rw [Text.unifyLineEnds_true (hapart rfl)]

/-- **Lines that are written are found again**, each decoded by itself. -/
theorem Written.lines_ofBytes {lines : List Bytes} {input : Bytes} (h : Written lines input) :
    (Text.ofBytes input).lines = lines.map Text.ofBytes := by
  unfold Text.lines
  induction h with
  | nil => rfl
  | @last line h hne =>
    -- the last line has no end that could be unified or split off
    have hunify := Text.unifyLineEnds_append h.newline_notMem h.carriageReturn_notMem []
    rw [List.append_nil, Text.unifyLineEnds, List.append_nil] at hunify
    rw [hunify]
    exact Text.splitLines_of_not_mem h.newline_notMem (mt Text.ofBytes_eq_nil_iff.1 hne)
  | @cons line rest lines h e hapart hrest ih =>
    -- a decoded line feed comes from its own byte, so none runs into the line end
    have happart' : e = .carriageReturn → (Text.ofBytes rest).head? ≠ some Text.newline :=
      fun he hhead => hapart he (Text.head?_of_head?_ofBytes hhead (by decide))
    calc (Text.unifyLineEnds false (Text.ofBytes (line ++ e.bytes ++ rest))).splitLines
        = (Text.ofBytes line ++
            Text.newline :: Text.unifyLineEnds false (Text.ofBytes rest)).splitLines := by
          rw [e.ofBytes_append, List.append_assoc,
            Text.unifyLineEnds_append h.newline_notMem h.carriageReturn_notMem,
            LineEnd.unifyLineEnds_append happart']
      _ = Text.ofBytes line :: (Text.unifyLineEnds false (Text.ofBytes rest)).splitLines :=
          Text.splitLines_append_newline h.newline_notMem _
      _ = (line :: lines).map Text.ofBytes := by rw [ih, List.map_cons]

theorem isSingleLine_nil : IsSingleLine [] := ⟨List.not_mem_nil, List.not_mem_nil⟩

theorem IsSingleLine.cons {b : UInt8} (h : IsSingleLine line) (hn : b ≠ 0x0A) (hr : b ≠ 0x0D) :
    IsSingleLine (b :: line) :=
  ⟨List.not_mem_cons_of_ne_of_not_mem hn.symm h.1, List.not_mem_cons_of_ne_of_not_mem hr.symm h.2⟩

/-- A byte that is none of a line end joins the first line. -/
theorem Written.exists_cons {b : UInt8} {lines : List Bytes} {input : Bytes}
    (h : Written lines input) (hn : b ≠ 0x0A) (hr : b ≠ 0x0D) :
    ∃ lines', Written lines' (b :: input) := by
  cases h with
  | nil => exact ⟨_, .last (isSingleLine_nil.cons hn hr) (List.cons_ne_nil _ _)⟩
  | last hline hne => exact ⟨_, .last (hline.cons hn hr) (List.cons_ne_nil _ _)⟩
  | cons hline e hapart hrest => exact ⟨_, .cons (hline.cons hn hr) e hapart hrest⟩

/-- Any bytes are lines that are written. -/
theorem exists_written (input : Bytes) : ∃ lines, Written lines input := by
  -- behind a carriage return, it may be the bytes after the next one that count
  suffices h : (∃ lines, Written lines input) ∧ ∃ lines, Written lines input.tail from h.1
  induction input with
  | nil => exact ⟨⟨[], .nil⟩, ⟨[], .nil⟩⟩
  | cons b input ih =>
    obtain ⟨⟨lines, h⟩, ⟨more, htail⟩⟩ := ih
    refine ⟨?_, ⟨lines, h⟩⟩
    by_cases hn : b = 0x0A
    · subst hn
      exact ⟨_, .cons isSingleLine_nil .lineFeed (fun he => by cases he) h⟩
    by_cases hr : b = 0x0D
    · subst hr
      cases input with
      -- at the very end, and before anything but a line feed, it is a line end by itself
      | nil => exact ⟨_, .cons isSingleLine_nil .carriageReturn (fun _ => by simp) h⟩
      | cons c input =>
        by_cases hc : c = 0x0A
        · subst hc
          exact ⟨_, .cons isSingleLine_nil .both (fun he => by cases he) htail⟩
        · have hapart : (c :: input).head? ≠ some 0x0A := fun heq => hc (Option.some.inj heq)
          exact ⟨_, .cons isSingleLine_nil .carriageReturn (fun _ => hapart) h⟩
    · exact h.exists_cons hn hr

/-- **Bytes are written lines in just one way**, and the lines are those that are found. -/
theorem written_iff {lines : List Bytes} {input : Bytes} :
    Written lines input ↔ (Text.ofBytes input).lines = lines.map Text.ofBytes := by
  refine ⟨Written.lines_ofBytes, fun h => ?_⟩
  obtain ⟨lines', h'⟩ := exists_written input
  rw [h'.lines_ofBytes] at h
  exact Text.ofBytes_injective.list_map h ▸ h'

end Written

end NameMangling
