import NameMangling.Session.State

/-!
# Steps of a session

A session is a list of steps, and every step has an answer. Some steps are about symbols, and the
others each address one mangler by its name. The answer to a step that uses a mangler also shows
how many numbers it has given out and which of them are in its table, even if the step fails.

A step that fails leaves the state as it is, with one exception: a number that was given to an
unnamed symbol stays given, should making up its name or mangling it fail after that. There are two
ways to that: a prefix that is no text, and a suffix that cannot be shown. A suffix of the second
sort is a number with too many digits, or a list with one, and no session that is written down has
one, as it could not be read either (`Numeral.maxDigits`).
-/

namespace NameMangling.Session

/-- What a symbol is made from: a declaration, or the answers of a foreign symbol. -/
inductive SymbolSource where
  | declared (d : Declaration)
  | foreign (s : ForeignSymbol)

/-- The symbol that is made from a source. -/
def SymbolSource.symbol? : SymbolSource → Except Fault Symbol
  | declared d => d.symbol?.map Symbol.declared
  | foreign s => .ok (.foreign s)

/-- A step about symbols. -/
inductive SymbolStep where
  /-- Make a symbol, and let a name refer to it. -/
  | make (name : String) (source : SymbolSource)
  /-- Let a name refer to what another name refers to. -/
  | share (name other : String)
  /-- Let a name refer to nothing. -/
  | drop (name : String)
  /-- Change a symbol. -/
  | change (name : String) (c : Symbol.Change)
  /-- Ask for the facts about a symbol. -/
  | facts (name : String)

/-- A use of a mangler. -/
inductive ManglerUse where
  /-- Change its scheme. -/
  | change (c : Mangler.Change)
  /-- Mangle a name. -/
  | mangleName (name kind : Value)
  /-- Mangle a symbol. -/
  | mangleSymbol (symbol : String) (suffix : Value) (forcePrivate : Bool)
  /-- Ask for the number of a symbol. -/
  | number (symbol : String)
  /-- Forget the number of a symbol, if the entry to forget is the one that the table holds. -/
  | forget (symbol : String) (isOwnEntry : Bool)
  /-- Look at the table. -/
  | look

/-- **A step.** -/
inductive Step where
  /-- A step about symbols. -/
  | symbol (s : SymbolStep)
  /-- Make a mangler, and let a name refer to it. -/
  | make (mangler : String) (settings : Scheme.Settings)
  /-- Use a mangler. -/
  | use (mangler : String) (u : ManglerUse)

/-- What a step that does not fail has to say. -/
inductive Outcome where
  | done
  | value (v : Value)
  | number (n : Nat)
  | facts (f : Symbol.Facts)
  deriving DecidableEq

/-- What a table shows: the number for the next symbol, and the numbers that it holds. -/
structure TableView where
  next : Nat
  ids : List Nat
  deriving DecidableEq

/-- The view of a mangler's table. -/
def TableView.ofMangler (m : Mangler) : TableView := ⟨m.table.next, m.table.ids⟩

/-- **The answer to a step.** Only answers to uses of a mangler have a view. -/
structure Answer where
  outcome : Except Fault Outcome
  view : Option TableView

namespace State

/-- A step about symbols: its outcome, and the state afterwards unless it fails. -/
def symbolStep (st : State) : SymbolStep → Except Fault (Outcome × State)
  | .make name source => do
    let s ← source.symbol?
    .ok (.done, st.declare name s)
  | .share name other => do
    let (id, _) ← st.symbol? other
    .ok (.done, st.refer name id)
  | .drop name => do
    let _ ← st.symbol? name
    .ok (.done, st.release name)
  | .change name c => do
    let (id, _) ← st.symbol? name
    .ok (.done, st.change id c)
  | .facts name => do
    let (_, c) ← st.symbol? name
    let f ← c.symbol.facts?
    .ok (.facts f, st)

/-- A use of a mangler: its outcome, and the mangler afterwards. -/
def use (st : State) (m : Mangler) : ManglerUse → Except Fault Outcome × Mangler
  | .change c => (.ok .done, m.apply c)
  | .mangleName name kind => ((m.scheme.mangle name kind).map fun t => .value (.text t), m)
  | .mangleSymbol name suffix forcePrivate =>
    match st.symbol? name with
    | .error f => (.error f, m)
    | .ok (id, c) =>
      let (mangled, m) := m.mangleSymbol id c.symbol suffix forcePrivate c.address
      (mangled.map .value, m)
  | .number name =>
    match st.symbol? name with
    | .error f => (.error f, m)
    | .ok (id, c) =>
      let (n, table) := m.table.request (c.handle id)
      (.ok (.number n), { m with table := table })
  | .forget name isOwnEntry =>
    match st.symbol? name with
    | .error f => (.error f, m)
    | .ok (id, c) =>
      -- Where the table has no entry, there is none but a foreign one to be forgotten.
      let own := if isOwnEntry then m.table.entries.get? c.address else none
      (.ok .done, { m with table := m.table.forget c.address (own.getD (.foreign id)) })
  | .look => (.ok .done, m)

/-- **One step of a session**: the state afterwards, and the answer. -/
def step (st : State) : Step → State × Answer
  | .symbol s =>
    match st.symbolStep s with
    | .error f => (st, ⟨.error f, none⟩)
    | .ok (o, st) => (st, ⟨.ok o, none⟩)
  | .make name settings =>
    match Scheme.ofSettings? settings with
    | .error f => (st, ⟨.error f, none⟩)
    | .ok scheme => (st.bind name (.ofScheme scheme), ⟨.ok .done, none⟩)
  | .use name u =>
    match st.manglers.get? name with
    | none => (st, ⟨.error (.unboundMangler name), none⟩)
    | some m =>
      -- The mangler is put back even if its use fails: it may have given out a number.
      let (outcome, m) := st.use m u
      (st.bind name m, ⟨outcome, some (.ofMangler m)⟩)

/-- The state after some steps. -/
def after (st : State) (steps : List Step) : State := steps.foldl (fun st s => (st.step s).1) st

/-- **The answers to some steps**, one for each. -/
def answers (st : State) : List Step → List Answer
  | [] => []
  | s :: rest => (st.step s).2 :: (st.step s).1.answers rest

end State

/-- **A session**: the answers to its steps, from a state without manglers and symbols. -/
def run (steps : List Step) : List Answer := (State.initial .next).answers steps

end NameMangling.Session
