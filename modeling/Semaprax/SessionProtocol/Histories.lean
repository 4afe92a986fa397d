/-
**Whole runs of the session table** (`SessionTable::open`, `SessionTable::advance`).

A run makes calls with whatever their callers present, and keeps what the calls returned and what
the cleanup handlers were called with. A panic ends the run.

* `Run.Accounts` — what the records of a run say about its history: the state is where the
  successful operations of the session lead from the initial state, the generation counts them, the
  cleanup log holds the inventory of a terminal state once, a token is consumed once, and a refusal
  changes nothing.
* `performAll_accounts` — so it is after any calls to the table of an accepted declaration. The
  inventory has run for the sessions that an operation brought to a terminal state; a session that
  is opened in one is closed from the start, and no handler is called for it.
-/

import Semaprax.SessionProtocol.Engine
import Semaprax.SessionProtocol.Validation

namespace Semaprax.SessionProtocol

open Library

variable {H : Type*}

inductive TableCall (H : Type*)
  | open (sessionId : String)
  | advance (old : Endpoint) (operation : Operation) (cleanupHandler : CleanupHandler H)

/-- A call that returned, and what it returned. -/
inductive TableEvent
  | opened (sessionId : String) (reply : Except ProtocolError Endpoint)
  | advanced (old : Endpoint) (operation : Operation) (reply : Advanced)

/-- An event with the table before and after it. -/
structure Performed where
  before : SessionTable
  event : TableEvent
  after : SessionTable

/-- What a cleanup handler was called with. -/
structure CleanupRun where
  sessionId : String
  terminalState : StateId
  op : String
deriving DecidableEq, Repr

/-- A run so far: the table, the state of the handlers, the handler calls and the events in order. -/
structure Run (H : Type*) where
  table : SessionTable
  handlerState : H
  cleanupLog : List CleanupRun
  history : List Performed

/-- The handler with every one of its calls noted. -/
def recorded (handler : CleanupHandler H) : CleanupHandler (H × List CleanupRun) :=
  fun (state, log) sessionId terminalState op =>
    let (outcome, state) := handler state sessionId terminalState op
    (outcome, state, log ++ [⟨sessionId, terminalState, op⟩])

namespace Run

/-- An empty table. -/
def new (spec : ProtocolSpec) (handlerState : H) : Run H :=
  ⟨SessionTable.new spec, handlerState, [], []⟩

def perform (run : Run H) : TableCall H → Option (Run H)
  | .open sessionId =>
    let (reply, table) := run.table.open sessionId
    some { run with
      table, history := run.history ++ [⟨run.table, .opened sessionId reply, table⟩] }
  | .advance old operation cleanupHandler =>
    (run.table.advance old operation (recorded cleanupHandler)
      (run.handlerState, run.cleanupLog)).map fun (reply, table, handlerState, cleanupLog) =>
        ⟨table, handlerState, cleanupLog,
          run.history ++ [⟨run.table, .advanced old operation reply, table⟩]⟩

/-- Make the calls in order, as far as none panics. -/
def performAll (run : Run H) : List (TableCall H) → Run H
  | [] => run
  | call :: calls =>
    match run.perform call with
    | none => run
    | some next => next.performAll calls

end Run

/-- The label and the new state of a successful `advance` of the session. -/
def TableEvent.move (sessionId : String) : TableEvent → Option (Label × StateId)
  | .advanced old operation (.ok outcome) =>
    if old.sessionId = sessionId then
      some (operation.label, (Advanced.endpoint (.ok outcome)).state)
    else none
  | _ => none

/-- The token consumed by a successful `advance`: the one presented, if the transition declared for
the label in the session's state consumes a resource. -/
def Performed.consumed (performed : Performed) : Option String :=
  match performed.event with
  | .advanced old operation (.ok _) => do
      let record ← performed.before.records[old.sessionId]?
      let transition ← (performed.before.spec.transitionsFrom record.state).find?
        (·.label = operation.label)
      if transition.ownership = .consumesResource then operation.resourceToken.map (·.id)
      else none
  | _ => none

/-- The event is an `advance` that returned an error. -/
def TableEvent.Refused : TableEvent → Prop
  | .advanced _ _ (.error _) => True
  | _ => False

/-- The successful operations of a session, in call order. -/
def Run.moves (run : Run H) (sessionId : String) : List (Label × StateId) :=
  run.history.filterMap (·.event.move sessionId)

/-- The handler calls for a session, in order. -/
def Run.cleanupRuns (run : Run H) (sessionId : String) : List CleanupRun :=
  run.cleanupLog.filter (·.sessionId = sessionId)

def ProtocolSpec.inventory (spec : ProtocolSpec) (sessionId : String) (state : StateId) :
    List CleanupRun :=
  (spec.cleanupFor state).map (⟨sessionId, state, ·⟩)

/-- A declared transition leads from `source` by `label` to `target`. -/
def ProtocolSpec.Declares (spec : ProtocolSpec) (source : StateId) (label : Label)
    (target : StateId) : Prop :=
  ∃ transition ∈ spec.transitions,
    transition.source = source ∧ transition.label = label ∧ target ∈ transition.next.targets

/-- Declared transitions lead from `source` through the moves, in order, to `target`. -/
def ProtocolSpec.Walk (spec : ProtocolSpec) (source : StateId) :
    List (Label × StateId) → StateId → Prop
  | [], target => target = source
  | (label, state) :: moves, target =>
    spec.Declares source label state ∧ spec.Walk state moves target

/-- What a session's record says about the session's moves and handler calls. `cleaned` tells the
records whose session has had its cleanup inventory run. -/
structure SessionRecord.Accounts (record : SessionRecord) (spec : ProtocolSpec)
    (cleaned : SessionRecord → Bool) (sessionId : String) (moves : List (Label × StateId))
    (runs : List CleanupRun) : Prop where
  declared : record.state ∈ spec.states
  walked : spec.Walk spec.initial moves record.state
  closed : record.closed = true ↔ record.state ∈ spec.terminal
  counted : record.generation = moves.length
  cleanup : runs = if cleaned record then spec.inventory sessionId record.state else []

/-- What a run's table says about its history. -/
structure Run.Accounts (spec : ProtocolSpec) (cleaned : SessionRecord → Bool) (run : Run H) :
    Prop where
  unknown : ∀ sessionId : String, run.table.records[sessionId]? = none →
    run.moves sessionId = [] ∧ run.cleanupRuns sessionId = []
  known : ∀ (sessionId : String) (record : SessionRecord),
    run.table.records[sessionId]? = some record →
      record.Accounts spec cleaned sessionId (run.moves sessionId) (run.cleanupRuns sessionId)
  once : (run.history.filterMap (·.consumed)).Nodup
  refused : ∀ performed ∈ run.history, performed.event.Refused →
    performed.after.records = performed.before.records ∧
      performed.after.consumedTokens = performed.before.consumedTokens

/-- An operation brought the session of this record to a terminal state. -/
def SessionRecord.terminated (record : SessionRecord) : Bool :=
  record.closed && record.generation ≠ 0

variable {target : StateId}

theorem runCleanup_recorded (handler : CleanupHandler H) (sessionId : String)
    (terminalState : StateId) (ops : List String) (state : H) (log : List CleanupRun) :
    ∃ after, (runCleanup (recorded handler) sessionId terminalState ops (state, log)).2 =
      (after, log ++ ops.map (⟨sessionId, terminalState, ·⟩)) := by
  induction ops generalizing state log with
  | nil => exact ⟨state, by simp [runCleanup]⟩
  | cons op ops ih =>
    obtain ⟨after, rest⟩ := ih (handler state sessionId terminalState op).2
      (log ++ [⟨sessionId, terminalState, op⟩])
    refine ⟨after, ?_⟩
    show (runCleanup (recorded handler) sessionId terminalState ops
      ((handler state sessionId terminalState op).2, log ++ [⟨sessionId, terminalState, op⟩])).2 = _
    rw [rest, List.map_cons, List.append_assoc, List.singleton_append]

theorem ProtocolSpec.Walk.append {spec : ProtocolSpec} {source middle : StateId} {label : Label}
    {moves : List (Label × StateId)} (walked : spec.Walk source moves middle)
    (step : spec.Declares middle label target) :
    spec.Walk source (moves ++ [(label, target)]) target := by
  induction moves generalizing source with
  | nil =>
    obtain rfl := walked
    exact ⟨step, rfl⟩
  | cons move moves ih => exact ⟨walked.1, ih walked.2⟩

theorem selectTarget_mem {sessionId : String} {state : StateId} {transition : Transition}
    {operation : Operation}
    (selected : selectTarget sessionId state transition operation = .ok target) :
    target ∈ transition.next.targets := by
  unfold selectTarget at selected
  cases next : transition.next with
  | «then» only =>
    simp only [next] at selected
    cases selected
    exact List.mem_singleton_self _
  | choice choices =>
    simp only [next] at selected
    cases chosen : operation.branchChoice with
    | none =>
      simp only [chosen] at selected
      cases selected
    | some choice =>
      simp only [chosen] at selected
      split at selected
      · rename_i found
        cases selected
        exact List.mem_map_of_mem (List.mem_of_find?_eq_some found)
      · cases selected

/-- What one call does to a run. A refused call leaves the table and the cleanup log as they are. An
`open` adds a record. A granted `advance` commits a transition, and its handler is called for the
inventory of the terminal state it leads to. -/
theorem Run.perform_cases {run next : Run H} {call : TableCall H}
    (performed : run.perform call = some next) :
    (∃ event, next.table = run.table ∧ next.cleanupLog = run.cleanupLog ∧
      next.history = run.history ++ [⟨run.table, event, run.table⟩] ∧
      (∀ sessionId, event.move sessionId = none) ∧
      Performed.consumed ⟨run.table, event, run.table⟩ = none) ∨
    (∃ sessionId endpoint isTerminal, run.table.records[sessionId]? = none ∧
      (isTerminal = true ↔ run.table.spec.initial ∈ run.table.spec.terminal) ∧
      next.table = { run.table with
        records :=
          run.table.records.insert sessionId ⟨run.table.spec.initial, 0, none, isTerminal⟩ } ∧
      next.cleanupLog = run.cleanupLog ∧
      next.history =
        run.history ++ [⟨run.table, .opened sessionId (.ok endpoint), next.table⟩]) ∨
    ∃ old operation record transition target outcome,
      run.table.Took old operation record transition target ∧
      (Advanced.endpoint (.ok outcome)).state = target ∧
      next.table = run.table.commit old.sessionId record transition target operation ∧
      next.cleanupLog = run.cleanupLog ++
        (if run.table.spec.terminal.contains target then
          run.table.spec.inventory old.sessionId target else []) ∧
      next.history = run.history ++
        [⟨run.table, .advanced old operation (.ok outcome), next.table⟩] := by
  cases call with
  | «open» sessionId =>
    unfold Run.perform SessionTable.open at performed
    by_cases known : run.table.records.contains sessionId
    · simp only [known, if_true] at performed
      cases performed
      exact .inl ⟨_, rfl, rfl, rfl, fun _ => rfl, rfl⟩
    · simp only [known] at performed
      cases performed
      rw [Std.TreeMap.contains_eq_isSome_getElem?, Option.not_isSome_iff_eq_none] at known
      exact .inr (.inl ⟨sessionId, _, _, known, Iff.rfl, rfl, rfl, rfl⟩)
  | advance old operation handler =>
    obtain ⟨⟨reply, table, handlerState, log⟩, returned, produced⟩ :=
      Option.map_eq_some_iff.mp performed
    cases produced
    rcases SessionTable.advance_cases returned with ⟨refused, rfl, rfl, same⟩ |
      ⟨record, transition, target, outcome, took, rfl, rfl, state, after⟩
    · cases same
      exact .inl ⟨_, rfl, rfl, rfl, fun _ => rfl, rfl⟩
    · refine .inr (.inr ⟨old, operation, record, transition, target, outcome, took, state, rfl,
        ?_, rfl⟩)
      by_cases terminal : run.table.spec.terminal.contains target
      · obtain ⟨final, logged⟩ := runCleanup_recorded handler old.sessionId target
          (run.table.spec.cleanupFor target) run.handlerState run.cleanupLog
        rw [if_pos terminal, logged] at after
        rw [if_pos terminal]
        exact (Prod.ext_iff.mp after).2
      · rw [if_neg terminal] at after
        rw [if_neg terminal, List.append_nil]
        exact (Prod.ext_iff.mp after).2

theorem Run.moves_append {run next : Run H} {performed : Performed}
    (history : next.history = run.history ++ [performed]) (sessionId : String) :
    next.moves sessionId = run.moves sessionId ++ (performed.event.move sessionId).toList := by
  unfold Run.moves
  rw [history, List.filterMap_append]
  cases moved : performed.event.move sessionId <;> simp [moved]

theorem Run.cleanupRuns_append {run next : Run H} {calls : List CleanupRun}
    (log : next.cleanupLog = run.cleanupLog ++ calls) (sessionId : String) :
    next.cleanupRuns sessionId =
      run.cleanupRuns sessionId ++ calls.filter (·.sessionId = sessionId) := by
  unfold Run.cleanupRuns
  rw [log, List.filter_append]

theorem inventory_filter (spec : ProtocolSpec) (sessionId other : String) (state : StateId) :
    (spec.inventory sessionId state).filter (·.sessionId = other) =
      if sessionId = other then spec.inventory sessionId state else [] := by
  unfold ProtocolSpec.inventory
  split_ifs with same
  · exact List.filter_eq_self.mpr (by simp [same])
  · exact List.filter_eq_nil_iff.mpr (by simp [same])

section Step

variable {spec : ProtocolSpec}

variable {table : SessionTable} {old : Endpoint} {operation : Operation} {record : SessionRecord}
variable {transition : Transition} {target : StateId} {sessionId : String}

theorem SessionRecord.Accounts.opened (valid : spec.Valid) {isTerminal : Bool}
    (terminal : isTerminal = true ↔ spec.initial ∈ spec.terminal) (sessionId : String) :
    SessionRecord.Accounts ⟨spec.initial, 0, none, isTerminal⟩ spec SessionRecord.terminated
      sessionId [] [] where
  declared := valid.initialDeclared
  walked := rfl
  closed := terminal
  counted := rfl
  cleanup := by simp [SessionRecord.terminated]

/-- The account of a session after a granted `advance`. Its record was live, so no inventory had run
for it before. -/
theorem SessionRecord.Accounts.moved (valid : spec.Valid)
    {moves : List (Label × StateId)} {runs : List CleanupRun} (ofSpec : table.spec = spec)
    (took : table.Took old operation record transition target)
    (accounts : record.Accounts spec SessionRecord.terminated old.sessionId moves runs) :
    (record.moveTo transition operation.label target (spec.terminal.contains target)).Accounts spec
      SessionRecord.terminated old.sessionId (moves ++ [(operation.label, target)])
      (runs ++ if spec.terminal.contains target then spec.inventory old.sessionId target
        else []) := by
  subst ofSpec
  obtain ⟨member, source, label⟩ := ProtocolSpec.find_transition_declared took.found
  have selected := selectTarget_mem took.selected
  have step : table.spec.Declares record.state operation.label target :=
    ⟨transition, member, source, label, selected⟩
  have before : runs = [] := by
    rw [accounts.cleanup]
    simp [SessionRecord.terminated, took.live]
  refine ⟨valid.targetDeclared transition member target selected, accounts.walked.append step,
    Iff.rfl, ?_, ?_⟩
  · rw [List.length_append, List.length_singleton, ← accounts.counted]
    rfl
  · rw [before, List.nil_append]
    simp [SessionRecord.terminated, SessionRecord.moveTo]

/-- What every run keeps: the account, the declaration of the table, and every consumed token in the
table's set. -/
structure Run.Kept (spec : ProtocolSpec) (run : Run H) : Prop where
  ofSpec : run.table.spec = spec
  accounts : run.Accounts spec SessionRecord.terminated
  tokens : ∀ token ∈ run.history.filterMap (·.consumed), token ∈ run.table.consumedTokens

theorem Run.new_kept (spec : ProtocolSpec) (handlerState : H) : (Run.new spec handlerState).Kept spec
    where
  ofSpec := rfl
  accounts :=
    { unknown := fun _ _ => ⟨rfl, rfl⟩
      known := fun sessionId record known => by
        unfold Run.new SessionTable.new at known
        rw [Std.TreeMap.getElem?_emptyc] at known
        cases known
      once := List.nodup_nil
      refused := List.forall_mem_nil _ }
  tokens := List.forall_mem_nil _

/-- A call that is refused. -/
theorem Run.Kept.idle {run next : Run H} {event : TableEvent} (kept : run.Kept spec)
    (table : next.table = run.table) (log : next.cleanupLog = run.cleanupLog)
    (history : next.history = run.history ++ [⟨run.table, event, run.table⟩])
    (still : ∀ sessionId, event.move sessionId = none)
    (spares : Performed.consumed ⟨run.table, event, run.table⟩ = none) : next.Kept spec := by
  have moves : ∀ sessionId, next.moves sessionId = run.moves sessionId := fun sessionId => by
    rw [Run.moves_append history, still, Option.toList_none, List.append_nil]
  have runs : ∀ sessionId, next.cleanupRuns sessionId = run.cleanupRuns sessionId :=
    fun sessionId => by rw [Run.cleanupRuns, log, Run.cleanupRuns]
  have consumed : next.history.filterMap (·.consumed) = run.history.filterMap (·.consumed) := by
    rw [history, List.filterMap_append]
    simp [spares]
  refine ⟨by rw [table, kept.ofSpec], ⟨?_, ?_, by rw [consumed]; exact kept.accounts.once, ?_⟩, ?_⟩
  · intro sessionId unknown
    rw [moves, runs]
    exact kept.accounts.unknown sessionId (by rwa [← table])
  · intro sessionId record known
    rw [moves, runs]
    exact kept.accounts.known sessionId record (by rwa [← table])
  · intro performed member refused
    rw [history] at member
    rcases List.mem_append.mp member with earlier | last
    · exact kept.accounts.refused performed earlier refused
    · obtain rfl := List.mem_singleton.mp last
      exact ⟨rfl, rfl⟩
  · rw [consumed, table]
    exact kept.tokens

/-- An `open` of an unknown session. -/
theorem Run.Kept.opened (valid : spec.Valid) {run next : Run H} {sessionId : String}
    {endpoint : Endpoint} {isTerminal : Bool} (kept : run.Kept spec)
    (unknown : run.table.records[sessionId]? = none)
    (terminal : isTerminal = true ↔ run.table.spec.initial ∈ run.table.spec.terminal)
    (table : next.table = { run.table with
      records :=
        run.table.records.insert sessionId ⟨run.table.spec.initial, 0, none, isTerminal⟩ })
    (log : next.cleanupLog = run.cleanupLog)
    (history : next.history =
      run.history ++ [⟨run.table, .opened sessionId (.ok endpoint), next.table⟩]) :
    next.Kept spec := by
  have moves : ∀ other, next.moves other = run.moves other := fun other => by
    rw [Run.moves_append history]
    exact List.append_nil _
  have runs : ∀ other, next.cleanupRuns other = run.cleanupRuns other :=
    fun other => by rw [Run.cleanupRuns, log, Run.cleanupRuns]
  have consumed : next.history.filterMap (·.consumed) = run.history.filterMap (·.consumed) := by
    rw [history, List.filterMap_append]
    exact List.append_nil _
  have records : ∀ other : String, next.table.records[other]? =
      if sessionId = other then some ⟨run.table.spec.initial, 0, none, isTerminal⟩
      else run.table.records[other]? := fun other => by
    rw [table]
    exact BTreeMap.getElem?_insert_eq ..
  refine ⟨by rw [table]; exact kept.ofSpec,
    ⟨?_, ?_, by rw [consumed]; exact kept.accounts.once, ?_⟩, ?_⟩
  · intro other unknown'
    rw [records] at unknown'
    split_ifs at unknown' with same
    rw [moves, runs]
    exact kept.accounts.unknown other unknown'
  · intro other record known
    rw [records] at known
    rw [moves, runs]
    split_ifs at known with same
    · cases known
      subst same
      obtain ⟨noMoves, noRuns⟩ := kept.accounts.unknown sessionId unknown
      rw [noMoves, noRuns, kept.ofSpec]
      rw [kept.ofSpec] at terminal
      exact SessionRecord.Accounts.opened valid terminal sessionId
    · exact kept.accounts.known other record known
  · intro performed member refused
    rw [history] at member
    rcases List.mem_append.mp member with earlier | last
    · exact kept.accounts.refused performed earlier refused
    · obtain rfl := List.mem_singleton.mp last
      exact refused.elim
  · rw [consumed, table]
    exact kept.tokens

/-- The token that a granted `advance` consumes is presented, and was not in the table's set; the
table's set is what it was with that token. -/
theorem SessionTable.Took.consumed
    (took : table.Took old operation record transition target) (outcome : AdvanceOutcome)
    (after : SessionTable) :
    ∀ token ∈ Performed.consumed ⟨table, .advanced old operation (.ok outcome), after⟩,
      token ∉ table.consumedTokens ∧
      token ∈ (table.commit old.sessionId record transition target operation).consumedTokens := by
  intro token consumed
  have presented : transition.ownership = .consumesResource ∧
      operation.resourceToken.map (·.id) = some token := by
    unfold Performed.consumed at consumed
    simp only [took.known, took.found, Option.bind_eq_bind, Option.bind_some] at consumed
    split_ifs at consumed with consumes
    · exact ⟨consumes, consumed⟩
    · cases consumed
  obtain ⟨consumes, presented⟩ := presented
  obtain ⟨resource, given, rfl⟩ := Option.map_eq_some_iff.mp presented
  have owned := took.owned
  unfold SessionTable.checkOwnership at owned
  simp only [consumes, given] at owned
  split_ifs at owned with reused
  refine ⟨reused, ?_⟩
  unfold SessionTable.commit
  simp only [consumes, given]
  exact (BTreeSet.mem_insert_iff ..).mpr (.inl rfl)

theorem SessionTable.mem_commit {token : String} (member : token ∈ table.consumedTokens) :
    token ∈ (table.commit sessionId record transition target operation).consumedTokens := by
  unfold SessionTable.commit
  split
  · exact (BTreeSet.mem_insert_iff ..).mpr (.inr member)
  · exact member

/-- A granted `advance`. -/
theorem Run.Kept.moved (valid : spec.Valid) {run next : Run H}
    {outcome : AdvanceOutcome} (kept : run.Kept spec)
    (took : run.table.Took old operation record transition target)
    (state : (Advanced.endpoint (.ok outcome)).state = target)
    (table : next.table = run.table.commit old.sessionId record transition target operation)
    (log : next.cleanupLog = run.cleanupLog ++ (if run.table.spec.terminal.contains target then
        run.table.spec.inventory old.sessionId target else []))
    (history : next.history = run.history ++
      [⟨run.table, .advanced old operation (.ok outcome), next.table⟩]) : next.Kept spec := by
  have moves : ∀ other, next.moves other = run.moves other ++
      if old.sessionId = other then [(operation.label, target)] else [] := fun other => by
    rw [Run.moves_append history]
    simp only [TableEvent.move, state]
    split_ifs <;> rfl
  have runs : ∀ other, next.cleanupRuns other = run.cleanupRuns other ++
      if old.sessionId = other then
        (if spec.terminal.contains target then spec.inventory old.sessionId target else [])
      else [] := fun other => by
    rw [Run.cleanupRuns_append log, kept.ofSpec]
    split_ifs with terminal same same
    · rw [inventory_filter, if_pos same]
    · rw [inventory_filter, if_neg same]
    · rfl
    · rfl
  have records : ∀ other : String, next.table.records[other]? =
      if old.sessionId = other then
        some (record.moveTo transition operation.label target (spec.terminal.contains target))
      else run.table.records[other]? := fun other => by
    rw [table, ← kept.ofSpec]
    exact BTreeMap.getElem?_insert_eq ..
  have consumed : next.history.filterMap (·.consumed) = run.history.filterMap (·.consumed) ++
      (Performed.consumed ⟨run.table, .advanced old operation (.ok outcome), next.table⟩).toList := by
    rw [history, List.filterMap_append]
    cases spent : Performed.consumed ⟨run.table, .advanced old operation (.ok outcome), next.table⟩
      <;> simp [spent]
  refine ⟨by rw [table]; exact kept.ofSpec, ⟨?_, ?_, ?_, ?_⟩, ?_⟩
  · intro other unknown
    rw [records] at unknown
    split_ifs at unknown with same
    rw [moves, runs, if_neg same, if_neg same, List.append_nil, List.append_nil]
    exact kept.accounts.unknown other unknown
  · intro other record' known
    rw [records] at known
    rw [moves, runs]
    split_ifs at known with same
    · cases known
      rw [if_pos same, if_pos same]
      subst same
      exact (kept.accounts.known _ record took.known).moved valid kept.ofSpec took
    · rw [if_neg same, if_neg same, List.append_nil, List.append_nil]
      exact kept.accounts.known other record' known
  · rw [consumed]
    refine List.nodup_append.mpr ⟨kept.accounts.once, ?_, ?_⟩
    · cases Performed.consumed ⟨run.table, .advanced old operation (.ok outcome), next.table⟩ <;> simp
    · rintro token earlier _ spent rfl
      exact (took.consumed outcome next.table token (Option.mem_toList.mp spent)).1
        (kept.tokens token earlier)
  · intro performed member refused
    rw [history] at member
    rcases List.mem_append.mp member with earlier | last
    · exact kept.accounts.refused performed earlier refused
    · obtain rfl := List.mem_singleton.mp last
      exact refused.elim
  · intro token member
    rw [consumed] at member
    rw [table]
    rcases List.mem_append.mp member with earlier | spent
    · exact SessionTable.mem_commit (kept.tokens token earlier)
    · exact (took.consumed outcome next.table token (Option.mem_toList.mp spent)).2

/-- **The step of a run.** -/
theorem Run.Kept.perform (valid : spec.Valid) {run next : Run H} {call : TableCall H}
    (kept : run.Kept spec) (performed : run.perform call = some next) : next.Kept spec := by
  rcases Run.perform_cases performed with ⟨event, table, log, history, still, spares⟩ |
    ⟨sessionId, endpoint, isTerminal, unknown, terminal, table, log, history⟩ |
    ⟨old, operation, record, transition, target, outcome, took, state, table, log, history⟩
  · exact kept.idle table log history still spares
  · exact kept.opened valid unknown terminal table log history
  · exact kept.moved valid took state table log history

theorem Run.perform_closed {run next : Run H} {call : TableCall H}
    (performed : run.perform call = some next)
    (known : run.table.records[sessionId]? = some record) (closed : record.closed = true) :
    next.table.records[sessionId]? = some record := by
  rcases Run.perform_cases performed with ⟨_, table, _⟩ |
    ⟨other, _, isTerminal, unknown, _, table, _⟩ |
    ⟨old, operation, before, transition, target, _, took, _, table, _⟩
  · rwa [table]
  · rw [table]
    show (run.table.records.insert other _)[sessionId]? = some record
    rw [BTreeMap.getElem?_insert_eq, if_neg, known]
    rintro rfl
    rw [unknown] at known
    cases known
  · rw [table]
    show (run.table.records.insert old.sessionId _)[sessionId]? = some record
    rw [BTreeMap.getElem?_insert_eq, if_neg, known]
    rintro rfl
    obtain rfl := Option.some.inj (took.known.symm.trans known)
    rw [took.live] at closed
    cases closed

theorem Run.Kept.performAll (valid : spec.Valid) {run : Run H} (kept : run.Kept spec)
    (calls : List (TableCall H)) : (run.performAll calls).Kept spec := by
  induction calls generalizing run with
  | nil => exact kept
  | cons call calls ih =>
    unfold Run.performAll
    cases performed : run.perform call with
    | none => exact kept
    | some next => exact ih (kept.perform valid performed)

theorem Run.performAll_closed {run : Run H}
    (calls : List (TableCall H)) (known : run.table.records[sessionId]? = some record)
    (closed : record.closed = true) :
    (run.performAll calls).table.records[sessionId]? = some record := by
  induction calls generalizing run with
  | nil => exact known
  | cons call calls ih =>
    unfold Run.performAll
    cases performed : run.perform call with
    | none => exact known
    | some next => exact ih (Run.perform_closed performed known closed)

theorem Run.performAll_append (run : Run H) (calls later : List (TableCall H)) :
    ∃ continued, run.performAll (calls ++ later) = (run.performAll calls).performAll continued := by
  induction calls generalizing run with
  | nil => exact ⟨later, rfl⟩
  | cons call calls ih =>
    cases performed : run.perform call with
    | none => exact ⟨[], by simp [performed, Run.performAll]⟩
    | some next =>
      obtain ⟨continued, same⟩ := ih next
      refine ⟨continued, ?_⟩
      rw [List.cons_append]
      simp only [Run.performAll, performed]
      exact same

end Step

/-- **Every run accounts for itself.** After any calls to the table of an accepted declaration, with
whatever endpoints and operations, every record is where the successful operations of its session
lead, closed exactly at a terminal state, and counts them; its inventory has run once, in order, if
one of them brought it to a terminal state, and not at all otherwise; no token is consumed twice, no
refusal changes a record or the consumed tokens, and no further call changes a closed record. -/
theorem performAll_accounts (spec : ProtocolSpec) (accepted : spec.validate = .ok ())
    (handlerState : H) (calls : List (TableCall H)) :
    ((Run.new spec handlerState).performAll calls).Accounts spec SessionRecord.terminated ∧
    ∀ (later : List (TableCall H)) (sessionId : String) (record : SessionRecord),
      ((Run.new spec handlerState).performAll calls).table.records[sessionId]? = some record →
      record.closed = true →
      ((Run.new spec handlerState).performAll (calls ++ later)).table.records[sessionId]? =
        some record := by
  have valid := ProtocolSpec.validate_valid accepted
  refine ⟨((Run.new_kept spec handlerState).performAll valid calls).accounts, ?_⟩
  intro later sessionId record known closed
  obtain ⟨continued, same⟩ := (Run.new spec handlerState).performAll_append calls later
  rw [same]
  exact Run.performAll_closed continued known closed

/-- A protocol whose initial state is terminal, with one cleanup entry. -/
def settledSpec : ProtocolSpec where
  name := "settled"
  states := {"done"}
  initial := "done"
  terminal := {"done"}
  transitions := []
  cleanup := [("done", ["release"])]

theorem performAll_accounts_settled :
    ((Run.new settledSpec ()).performAll [.open "s"]).Accounts settledSpec
      SessionRecord.terminated :=
  (performAll_accounts settledSpec (by decide +kernel) () [.open "s"]).1

/-- A session opened in a terminal state is closed, and its inventory has not run. -/
theorem performAll_uncleaned : settledSpec.validate = .ok () ∧
      ¬ ((Run.new settledSpec ()).performAll [.open "s"]).Accounts settledSpec
        (·.closed) := by
  refine ⟨by decide +kernel, fun accounts => ?_⟩
  have session := accounts.known "s" ⟨"done", 0, none, true⟩ (by decide +kernel)
  exact absurd session.cleanup (by decide +kernel)

end Semaprax.SessionProtocol
