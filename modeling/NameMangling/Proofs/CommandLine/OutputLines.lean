import NameMangling.Proofs.CommandLine.Input
import NameMangling.Proofs.Mangling.Prefixes
import NameMangling.Proofs.Mangling.Quoted

/-!
# One line of output for each name

Whoever reads the output takes it line by line, and there is one line for each name that can be
mangled. For this no mangled name may hold a line feed, whatever the names hold. A line feed in a
body is escaped, or replaced between quotes, and no other bytes decode to one; so it could only come
from a prefix, and the prefixes are the user's own choice.

* `Scheme.newline_notMem_mangle` — no line feed in a mangled name but from its prefix;
* `splitLines_flatMap_line` — lines that are written one after the other are found again;
* `output_lines` — the lines of the output are the mangled names, in the order of the names.
-/

namespace NameMangling

/-! ### Line feeds in mangled names -/

/-- Escaping leaves a line feed only if line feeds are acceptable. -/
theorem Policy.newline_notMem_escape {p : Policy} (hline : p.accepts 0x0A = false) (bs : Bytes) :
    Text.newline ∉ p.escape bs := by
  intro hm
  have hacc : p.accepts 0x0A = true := ((p.permits_escape bs).acceptable _ hm).2
  exact Bool.false_ne_true (hline.symm.trans hacc)

namespace Scheme

variable {s : Scheme} {name kind : Value} {body bs : Bytes} {full t out : Text}

theorem newline_notMem_encode (hline : s.policy.accepts 0x0A = false) (ht : Text.newline ∉ t)
    (hb : body ≠ []) (h : s.encode (.text t) body = .ok out) : Text.newline ∉ out := by
  have hescape : Text.newline ∉ s.policy.escape body := Policy.newline_notMem_escape hline body
  have hbody : Text.newline ∉ Quote.body body := (Quote.isPlain_body body).2
  have hquote : Text.newline ≠ CodePoint.ofChar '"' := by decide
  -- neither what is replaced nor what is escaped leaves a line feed
  rcases eq_or_eq_of_encode hb h with rfl | rfl
  · simp [Quote.enclose, ht, hbody, hquote]
  · simp [ht, hescape]

/-- **No line feed in a mangled name** but from its prefix, in either mode. -/
theorem newline_notMem_mangle (hline : s.policy.accepts 0x0A = false)
    (hp : s.prefixFor kind = .ok (.text full)) (hfull : Text.newline ∉ full)
    (hn : name.toBytes = .ok bs) (h : s.mangle name kind = .ok out) : Text.newline ∉ out := by
  rw [mangle_eq_match hp hn] at h
  cases hf : nameFault? name bs with
  | some f =>
    rw [hf] at h
    cases h
  | none =>
    rw [hf] at h
    -- behind the marker there is no prefix, and nothing to come from it
    have hfront : Text.newline ∉ frontOf bs full := by
      unfold frontOf
      split
      · exact List.not_mem_nil
      · exact hfull
    exact newline_notMem_encode hline hfront (bodyOf_ne_nil_of_nameFault? hf) h

end Scheme

namespace CommandLine

/-! ### Lines -/

variable {lines : List Text}

/-- **Lines that are written one after the other are found again.** -/
theorem splitLines_flatMap_line (h : ∀ t ∈ lines, Text.newline ∉ t) :
    Text.splitLines (lines.flatMap line) = lines := by
  induction lines with
  | nil => rfl
  | cons t lines ih =>
    rw [List.flatMap_cons, line, List.append_assoc, List.singleton_append,
      Text.splitLines_append_newline (h t List.mem_cons_self),
      ih fun u hu => h u (List.mem_cons_of_mem t hu)]

/-- The last of them ends in a line feed, like the others. -/
theorem getLast?_flatMap_line (h : lines ≠ []) :
    (lines.flatMap line).getLast? = some Text.newline := by
  rw [← List.dropLast_append_getLast h, List.flatMap_append, List.flatMap_singleton, line,
    ← List.append_assoc, List.getLast?_concat]

/-! ### The output of a job -/

namespace Arguments

variable {a : Arguments}

/-- The prefix of a job is joined from values of options. -/
theorem exists_prefixFor_job (h : ∀ o : KnownOption, o.takesValue → Text.newline ∉ a.valueOf o) :
    ∃ full, a.job.scheme.prefixFor (.text a.job.kind.name) = .ok (.text full) ∧
      Text.newline ∉ full := by
  have hdefault := h .defaultPrefix rfl
  -- a private prefix is joined with the default one
  have hjoined : ∀ o : KnownOption, o.takesValue →
      Text.newline ∉ a.valueOf o ++ a.valueOf .defaultPrefix :=
    fun o ho hm => (List.mem_append.1 hm).elim (h o ho) hdefault
  rw [Scheme.prefixFor_name]
  cases a.job.kind with
  | default => exact ⟨_, rfl, hdefault⟩
  | assemblerPrivate => exact ⟨_, rfl, hjoined .privatePrefix rfl⟩
  | linkerPrivate => exact ⟨_, rfl, hjoined .linkerPrivatePrefix rfl⟩

/-- **Names are mangled on request** if nothing else is asked for, and the options go together. -/
theorem request_eq_mangle_iff {job : Job} {names : List Text} :
    a.request = .ok (.mangle job names) ↔
      (a.has .help = false ∧ a.asksVersion = false ∧ a.isConsistent = true) ∧
        a.job = job ∧ a.names = names := by
  unfold request
  cases a.has .help with
  | true => simp
  | false =>
    cases a.asksVersion with
    | true => simp
    | false => cases a.isConsistent <;> simp

end Arguments

/-- **One line of output for each name that can be mangled.** Let the arguments be read and ask for
names to be mangled, and let no line feed be in the prefixes, which are the options with values. Take
the names from the arguments or, if there are none, from the input. Then the output is empty or ends
in a line feed, and its lines are the mangled forms of these names, in their order and without those
that cannot be mangled. What is wrong with these is the name itself. -/
theorem output_lines {arguments : List Text} {a : Arguments} {job : Job} {names : List Text}
    (hread : Arguments.read arguments = .ok a) (hrequest : a.request = .ok (.mangle job names))
    (hvalues : ∀ o : KnownOption, o.takesValue → Text.newline ∉ a.valueOf o) (input : Bytes) :
    let taken := if names.isEmpty then (Text.ofBytes input).lines else names
    let mangled := fun name => job.scheme.mangle (.text (job.given name)) (.text job.kind.name)
    let output := (respond arguments input).stdout
    (output = [] ∨ output.getLast? = some Text.newline) ∧
      Text.splitLines output = taken.filterMap (fun name => (mangled name).toOption) ∧
      ∀ name f, mangled name = .error f → f.blamedName? = some (.text (job.given name)) := by
  intro taken mangled output
  obtain ⟨⟨hhelp, hversion, hconsistent⟩, rfl, rfl⟩ := Arguments.request_eq_mangle_iff.1 hrequest
  have hrespond : respond arguments input = a.job.respond taken := by
    rw [respond_of_read hread, hhelp, hversion, hconsistent]
    rfl
  -- only names that can be mangled come to the output, each on its line
  have houtput : output = (taken.filterMap fun name => (mangled name).toOption).flatMap line :=
    (congrArg Response.stdout hrespond).trans (a.job.stdout_respond taken)
  obtain ⟨full, hp, hfull⟩ := Arguments.exists_prefixFor_job hvalues
  have hsafe : Policy.safe.accepts 0x0A = false := by decide
  -- no mangled name has a line feed, so the lines are cut where they were joined
  have hlines : ∀ t ∈ taken.filterMap (fun name => (mangled name).toOption), Text.newline ∉ t := by
    intro t ht
    obtain ⟨name, -, hname⟩ := List.mem_filterMap.1 ht
    cases hok : mangled name with
    | error f =>
      rw [hok] at hname
      cases hname
    | ok out =>
      rw [hok] at hname
      obtain rfl : out = t := Option.some.inj hname
      exact Scheme.newline_notMem_mangle hsafe hp hfull rfl hok
  refine ⟨?_, ?_, ?_⟩
  · rw [houtput]
    -- without a mangled name there is no line
    by_cases hnil : taken.filterMap (fun name => (mangled name).toOption) = []
    · exact .inl (by rw [hnil]; rfl)
    · exact .inr (getLast?_flatMap_line hnil)
  · rw [houtput, splitLines_flatMap_line hlines]
  · intro name f hf
    exact Scheme.blamedName?_of_nameFault? ((Scheme.mangle_eq_error_iff hp rfl).1 hf)

/-- Four names, of which the empty one cannot be mangled. One holds line feeds and a double quote,
and one has a line feed in the middle of a broken sequence. The prefix is a double quote. -/
theorem output_lines_broken_sequence :
    let names : List Text := [Text.ofString "\n\"\n", [],
      [.standIn 0xE2, Text.newline, .standIn 0x82], Text.ofString "a.b"]
    let arguments := Text.ofString "--quotes" :: Text.ofString "--prefix=\"" :: names
    let a : Arguments :=
      ⟨[⟨.known .quotes, none⟩, ⟨.known .defaultPrefix, some (Text.ofString "\"")⟩], names⟩
    (Arguments.read arguments = .ok a ∧ a.request = .ok (.mangle a.job a.names) ∧
      ∀ o : KnownOption, o.takesValue → Text.newline ∉ a.valueOf o) ∧
    Text.splitLines (respond arguments []).stdout =
      [Text.ofString "\"\"_NL__QQ__NL_\"",
        Quote.enclose (CodePoint.ofChar '"' :: .standIn 0xE2 :: Text.ofString "_NL_" ++
          [.standIn 0x82]),
        Text.ofString "\"a.b"] := by
  intro names arguments a
  have hread : Arguments.read arguments = .ok a := by decide +kernel
  have hrequest : a.request = .ok (.mangle a.job a.names) :=
    Arguments.request_eq_mangle_iff.2 ⟨⟨by decide, by decide, by decide⟩, rfl, rfl⟩
  have hvalues : ∀ o : KnownOption, o.takesValue → Text.newline ∉ a.valueOf o := by
    intro o
    cases o <;> decide
  refine ⟨⟨hread, hrequest, hvalues⟩, ?_⟩
  -- what remains is to mangle four names
  rw [(output_lines hread hrequest hvalues []).2.1]
  decide +kernel

end CommandLine

end NameMangling
