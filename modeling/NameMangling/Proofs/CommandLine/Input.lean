import NameMangling.CommandLine.Response
import NameMangling.Proofs.CommandLine.Words
import NameMangling.Proofs.Text.Lines

/-!
# Names from the input

Names can be given on the command line, or as lines of the input if the command line has none. Both
ways come to the same (`names_from_input`): the input is decoded as a whole and then divided into
lines, but that gives the names that the lines are by themselves, whatever is wrong with their bytes
(`Written.lines_ofBytes`).

On the command line, what has to be shown is that names behind the options do not change how the
options are read. An argument is read as one of four things, and what follows it has no part in that
(`Arguments.readAs`). So options leave behind a catalogue with which the reading goes on
(`Arguments.readFrom_append`). The catalogue may have grown by then, but it does not matter for
names (`Arguments.readFrom_names`).
-/

namespace NameMangling.CommandLine

namespace Arguments

variable {cat : Catalogue} {awaiting : Option ProgramOption} {a : Arguments}
  {given : List GivenOption} {opts names : List Text}

/-! ### One argument -/

/-- Arguments with options in front of them. -/
def withOptions (given : List GivenOption) (a : Arguments) : Arguments :=
  { a with options := given ++ a.options }

theorem withOptions_nil : withOptions [] = id := rfl

theorem withOptions_append (given given' : List GivenOption) :
    withOptions given ∘ withOptions given' = withOptions (given ++ given') := by
  funext a
  simp only [Function.comp_apply, withOptions, List.append_assoc]

/-- Each letter of a group gives an option. -/
theorem foldr_withOption (letters : Text) (a : Arguments) :
    letters.foldr (fun l a => a.withOption ⟨.ofLetter l, Option.none⟩) a =
      a.withOptions (letters.map fun l => ⟨.ofLetter l, Option.none⟩) := by
  induction letters with
  | nil => rfl
  | cons l letters ih =>
    rw [List.foldr_cons, ih]
    rfl

/-- **What an argument is read as**, whatever follows it. -/
inductive ReadAs (cat : Catalogue) (awaiting : Option ProgramOption) (argument : Text) : Prop where
  | error (e : UsageError) (h : ∀ rest, readFrom cat awaiting (argument :: rest) = .error e)
  /-- Options, perhaps none yet, since the last one waits for its value. -/
  | options (given : List GivenOption) (cat' : Catalogue) (awaiting' : Option ProgramOption)
      (h : ∀ rest, readFrom cat awaiting (argument :: rest) =
        (readFrom cat' awaiting' rest).map (withOptions given))
  | optionsEnd (h : ∀ rest, readFrom cat awaiting (argument :: rest) = .ok ⟨[], argument :: rest⟩)
  | name (h : ∀ rest, readFrom cat awaiting (argument :: rest) =
      (readFrom cat Option.none rest).map (withName argument))

theorem readAs (cat : Catalogue) (awaiting : Option ProgramOption) (argument : Text) :
    ReadAs cat awaiting argument := by
  cases awaiting with
  -- an option that waits for its value takes whatever comes
  | some o => exact .options [⟨o, some argument⟩] cat Option.none fun rest => rfl
  | none =>
    -- the tests of an argument, in the order in which they are made
    by_cases hend : argument = optionsEnd
    · exact .optionsEnd fun rest => by simp only [readFrom, if_pos hend]
    by_cases hlong : optionsEnd.isPrefixOf argument = true
    · -- a long option
      rcases hread : LongOption.read cat argument with e | o | o | o
      · exact .error e fun rest => by simp only [readFrom, if_neg hend, hlong, if_true, hread]
      · refine .options [o] cat Option.none fun rest => ?_
        simp only [readFrom, if_neg hend, hlong, if_true, hread]
        rfl
      · refine .options [] cat (some o) fun rest => ?_
        simp only [readFrom, if_neg hend, hlong, if_true, hread]
        cases readFrom cat (some o) rest <;> rfl
      · refine .options [o] (cat ++ [o.option]) Option.none fun rest => ?_
        simp only [readFrom, if_neg hend, hlong, if_true, hread]
        rfl
    cases argument with
    | nil => exact .name fun rest => rfl
    | cons c letters =>
      cases letters with
      -- a hyphen by itself, or another character, is a name
      | nil => exact .name fun rest => by simp only [readFrom, if_neg hend, if_neg hlong]
      | cons d letters =>
        by_cases hc : c = hyphen
        · -- a group of letters
          let given : List GivenOption := (d :: letters).map fun l => ⟨.ofLetter l, Option.none⟩
          refine .options given cat Option.none fun rest => ?_
          simp only [readFrom, if_neg hend, if_neg hlong, if_pos hc, foldr_withOption]
          rfl
        · exact .name fun rest => by simp only [readFrom, if_neg hend, if_neg hlong, if_neg hc]

/-! ### Options and then names -/

theorem map_eq_ok_iff {x : Except UsageError Arguments} {f : Arguments → Arguments} :
    x.map f = .ok a ↔ ∃ b, x = .ok b ∧ f b = a := by
  cases x with
  | error e => simp [Except.map]
  | ok b => simp [Except.map]

/-- **Options are read alike with anything behind them**, and leave a catalogue with which the
reading goes on. -/
theorem readFrom_append (h : readFrom cat awaiting opts = .ok a) (hnames : a.names = []) :
    ∃ cat', ∀ rest, readFrom cat awaiting (opts ++ rest) =
      (readFrom cat' Option.none rest).map (withOptions a.options) := by
  induction opts generalizing cat awaiting a with
  | nil =>
    cases awaiting with
    -- options that end before a value that is waited for are no options
    | some o => cases h
    | none =>
      obtain rfl := Except.ok.inj h
      refine ⟨cat, fun rest => ?_⟩
      show readFrom cat Option.none rest = (readFrom cat Option.none rest).map (withOptions [])
      rw [withOptions_nil, Except.map_id]
      rfl
  | cons argument opts ih =>
    cases readAs cat awaiting argument with
    | error e hread =>
      rw [hread] at h
      cases h
    | options given cat' awaiting' hread =>
      rw [hread] at h
      obtain ⟨b, hrest, rfl⟩ := map_eq_ok_iff.1 h
      -- what was read before is put in front, with what the argument has given
      obtain ⟨cat'', hcat⟩ := ih hrest hnames
      refine ⟨cat'', fun rest => ?_⟩
      rw [List.cons_append, hread, hcat]
      show _ = (readFrom cat'' Option.none rest).map (withOptions (given ++ b.options))
      rw [← withOptions_append]
      cases readFrom cat'' Option.none rest <;> rfl
    -- Anything else leaves a name.
    | optionsEnd hread =>
      rw [hread] at h
      obtain rfl := Except.ok.inj h
      cases hnames
    | name hread =>
      rw [hread] at h
      obtain ⟨b, -, rfl⟩ := map_eq_ok_iff.1 h
      cases hnames

/-- Names are read as they are, with any catalogue. -/
theorem readFrom_names (h : ∀ name ∈ names, name = [hyphen] ∨ name.head? ≠ some hyphen)
    (cat : Catalogue) : readFrom cat Option.none names = .ok ⟨[], names⟩ := by
  induction names with
  | nil => rfl
  | cons name names ih =>
    rw [readFrom_name (h name List.mem_cons_self),
      ih fun other hm => h other (List.mem_cons_of_mem name hm)]
    rfl

/-- **Options and then names** are read as just these. -/
theorem read_append (hopts : read opts = .ok ⟨given, []⟩)
    (hnames : ∀ name ∈ names, name = [hyphen] ∨ name.head? ≠ some hyphen) :
    read (opts ++ names) = .ok ⟨given, names⟩ := by
  obtain ⟨cat, hcat⟩ := readFrom_append hopts rfl
  rw [read, hcat, readFrom_names hnames]
  simp [withOptions, Except.map]

end Arguments

/-! ### Responses -/

/-- **The response to arguments that have been read.** Only a job has to do with names. -/
theorem respond_of_read {arguments : List Text} {a : Arguments}
    (h : Arguments.read arguments = .ok a) (input : Bytes) :
    respond arguments input =
      if a.has .help then Request.help.response input
      else if a.asksVersion then Request.version.response input
      else if a.isConsistent then
        a.job.respond (if a.names.isEmpty then (Text.ofBytes input).lines else a.names)
      else UsageError.mismatch.response := by
  have hrequest : Request.ofArguments arguments = a.request := by
    rw [Request.ofArguments, h]
    rfl
  rw [respond, hrequest, Arguments.request]
  -- the three questions come in this order, and the first one decides
  cases a.has .help with
  | true => rfl
  | false =>
    cases a.asksVersion with
    | true => rfl
    | false => cases a.isConsistent <;> rfl

/-- **Names from the input are treated as names on the command line.** Let options be read without
an error and without a name among them. Then lines of the input that do not look like options have
the same response as the names that they decode to, given behind the options. The lines may hold any
bytes and have any line ends, and what is in the input instead does not matter. -/
theorem names_from_input (opts : List Text) (given : List GivenOption)
    (hopts : Arguments.read opts = .ok ⟨given, []⟩) {lines : List Bytes} {input : Bytes}
    (hinput : Written lines input) (hlines : lines ≠ [])
    (hnames : ∀ name ∈ lines.map Text.ofBytes,
      name = [Arguments.hyphen] ∨ name.head? ≠ some Arguments.hyphen) (other : Bytes) :
    respond opts input = respond (opts ++ lines.map Text.ofBytes) other := by
  have hread := Arguments.read_append hopts hnames
  have hne : (lines.map Text.ofBytes).isEmpty = false := by
    cases lines with
    | nil => exact absurd rfl hlines
    | cons line lines => rfl
  rw [respond_of_read hopts, respond_of_read hread]
  simp only [List.isEmpty_nil, if_true, hne, Bool.false_eq_true, if_false, hinput.lines_ofBytes]
  -- what is asked for depends on the options alone
  rfl

/-- Two of the lines break off in the middle of a sequence, one is empty and one is a hyphen. All
line ends are there, except that behind the last line. -/
theorem names_from_input_broken_sequences :
    respond [Text.ofString "-v", Text.ofString "--prefix=_"]
        [0xC3, 0x0D, 0x0D, 0x0A, 0x2D, 0x0A, 0xE2, 0x82] =
      respond
        [Text.ofString "-v", Text.ofString "--prefix=_", [.standIn 0xC3], [], Text.ofString "-",
          [.standIn 0xE2, .standIn 0x82]]
        [0x78] := by
  have hopts : Arguments.read [Text.ofString "-v", Text.ofString "--prefix=_"] =
      .ok ⟨[⟨.known .verbose, none⟩, ⟨.known .defaultPrefix, some (Text.ofString "_")⟩], []⟩ := by
    decide +kernel
  have hinput : Written [[0xC3], [], [0x2D], [0xE2, 0x82]]
      [0xC3, 0x0D, 0x0D, 0x0A, 0x2D, 0x0A, 0xE2, 0x82] :=
    .cons ⟨by decide, by decide⟩ .carriageReturn (by decide) <|
      .cons ⟨by decide, by decide⟩ .both (by decide) <|
        .cons ⟨by decide, by decide⟩ .lineFeed (by decide) <|
          .last ⟨by decide, by decide⟩ (by decide)
  exact names_from_input _ _ hopts hinput (by decide) (by decide) [0x78]

end NameMangling.CommandLine
