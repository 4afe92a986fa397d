/-
**The session table** (`session_protocol/engine.rs`).

The table keeps one record per session and checks every operation against the protocol before it
advances the record. An `Endpoint` is the caller's handle; its `Drop` guard (`defused`) does not
take part in any check and is left out.

* `SessionTable.open` — a first record at the initial state, or `DuplicateOpen`.
* `SessionTable.admit` — the checks made once the handle is known to be fresh, in source order.
* `SessionTable.advance` — one operation. Every outcome, refusals included, hands an endpoint back.
  The generation is a `u64` under overflow checks: past its last value the call panics, which is
  the outcome `none`.
-/

import Semaprax.Library.Results
import Semaprax.SessionProtocol.Spec

namespace Semaprax.SessionProtocol

open Library

structure SessionRecord where
  state : StateId
  generation : Nat
  pending : Option Label
  closed : Bool
deriving DecidableEq, Repr

/-- An endpoint: a handle on one session, at the state and generation it was handed out for. -/
structure Endpoint where
  sessionId : String
  state : StateId
  generation : Nat
  isTerminal : Bool
deriving DecidableEq, Repr

/-- A resource token as the caller presents it. -/
structure ResourceToken where
  id : String
deriving DecidableEq, Repr

/-- Why an operation was refused. -/
inductive ProtocolError
  | duplicateOpen (sessionId : String)
  | unknownSession (sessionId : String)
  | useAfterTerminal (sessionId : String) (state : StateId)
  | staleHandle (sessionId : String) (presentedGeneration currentGeneration : Nat)
  | illegalTransition (sessionId : String) (state : StateId) (label : Label)
  | unknownBranchChoice (sessionId : String) (state : StateId) (label : Label)
      (choice : Option Label)
  | missingAuthority (sessionId : String) (label : Label) (required : String)
  | payloadTypeMismatch (sessionId : String) (label : Label) (expected presented : String)
  | resourceTokenRequired (sessionId : String) (label : Label)
  | resourceAlreadyConsumed (sessionId : String) (label : Label) (token : String)
deriving DecidableEq, Repr

/-- The cleanup inventory of a reached terminal state with the result of each entry. -/
structure TerminalOutcome where
  terminalState : StateId
  terminalKind : Kind
  cleanup : List (String × Except String Unit)

/-- What a successful `advance` produced. -/
inductive AdvanceOutcome
  | live (endpoint : Endpoint)
  | terminal (endpoint : Endpoint) (outcome : TerminalOutcome)

/-- The injected cleanup boundary (`CleanupHandler::run`), with its own state `H`. -/
abbrev CleanupHandler (H : Type*) := H → String → StateId → String → Except String Unit × H

/-- What the caller presents besides the endpoint: the remaining arguments of `advance`. -/
structure Operation where
  label : Label
  payloadType : String
  presentedCapability : Option String
  branchChoice : Option Label
  resourceToken : Option ResourceToken
deriving DecidableEq, Repr

/-- The registry of every session opened against one protocol. -/
structure SessionTable where
  spec : ProtocolSpec
  records : BTreeMap String SessionRecord
  consumedTokens : BTreeSet String

/-- An empty table (`SessionTable::new`). -/
def SessionTable.new (spec : ProtocolSpec) : SessionTable := ⟨spec, ∅, ∅⟩

def SessionTable.open (table : SessionTable) (sessionId : String) :
    Except ProtocolError Endpoint × SessionTable :=
  if table.records.contains sessionId then (.error (.duplicateOpen sessionId), table)
  else
    let isTerminal := table.spec.terminal.contains table.spec.initial
    (.ok ⟨sessionId, table.spec.initial, 0, isTerminal⟩, { table with
        records := table.records.insert sessionId ⟨table.spec.initial, 0, none, isTerminal⟩ })

/-- The capability check of `advance`. -/
def checkCapability (sessionId : String) (transition : Transition) (operation : Operation) :
    Except ProtocolError Unit :=
  match transition.requiredCapability with
  | none => .ok ()
  | some required =>
    if operation.presentedCapability = some required then .ok ()
    else .error (.missingAuthority sessionId operation.label required)

/-- The ownership check of `advance`. -/
def SessionTable.checkOwnership (table : SessionTable) (sessionId : String)
    (transition : Transition) (operation : Operation) : Except ProtocolError Unit :=
  match transition.ownership with
  | .none => .ok ()
  | .consumesResource =>
    match operation.resourceToken with
    | none => .error (.resourceTokenRequired sessionId operation.label)
    | some token =>
      if table.consumedTokens.contains token.id then
        .error (.resourceAlreadyConsumed sessionId operation.label token.id)
      else .ok ()

def selectTarget (sessionId : String) (state : StateId) (transition : Transition)
    (operation : Operation) : Except ProtocolError StateId :=
  match transition.next with
  | .then target => .ok target
  | .choice choices =>
    match operation.branchChoice with
    | none => .error (.unknownBranchChoice sessionId state operation.label none)
    | some choice =>
      match choices.find? (·.1 = choice) with
      | some (_, target) => .ok target
      | none => .error (.unknownBranchChoice sessionId state operation.label (some choice))

/-- The checks of `advance` on a fresh handle: the transition taken and the state it leads to. -/
def SessionTable.admit (table : SessionTable) (sessionId : String) (state : StateId)
    (operation : Operation) : Except ProtocolError (Transition × StateId) :=
  match (table.spec.transitionsFrom state).find? (·.label = operation.label) with
  | none => .error (.illegalTransition sessionId state operation.label)
  | some transition => do
      if transition.payloadType ≠ operation.payloadType then
        throw (.payloadTypeMismatch sessionId operation.label transition.payloadType
          operation.payloadType)
      checkCapability sessionId transition operation
      table.checkOwnership sessionId transition operation
      let target ← selectTarget sessionId state transition operation
      return (transition, target)

/-- The record after `transition` to `target`. A `Call` opens a pending operation, a `Return` or an
escape resolves it, and every other kind leaves it as it is. -/
def SessionRecord.moveTo (record : SessionRecord) (transition : Transition) (label : Label)
    (target : StateId) (isTerminal : Bool) : SessionRecord where
  state := target
  generation := record.generation + 1
  pending :=
    if transition.kind.opensPending then some label
    else if transition.kind = .return ∨ transition.kind.isEscape then none
    else record.pending
  closed := isTerminal

/-- The table after `transition` to `target`: the token, if one is consumed, and the record. -/
def SessionTable.commit (table : SessionTable) (sessionId : String) (record : SessionRecord)
    (transition : Transition) (target : StateId) (operation : Operation) : SessionTable :=
  { table with
    consumedTokens :=
      match transition.ownership, operation.resourceToken with
      | .consumesResource, some token => table.consumedTokens.insert token.id
      | _, _ => table.consumedTokens
    records := table.records.insert sessionId
      (record.moveTo transition operation.label target (table.spec.terminal.contains target)) }

/-- The `for op in plan` loop: every entry is run, in order, whatever the earlier ones returned. -/
def runCleanup {H : Type*} (handler : CleanupHandler H) (sessionId : String)
    (terminalState : StateId) : List String → H → List (String × Except String Unit) × H
  | [], state => ([], state)
  | op :: ops, state =>
    let (outcome, state) := handler state sessionId terminalState op
    let (results, state) := runCleanup handler sessionId terminalState ops state
    ((op, outcome) :: results, state)

/-- The last generation that a `u64` holds. -/
def lastGeneration : Nat := 2 ^ 64 - 1

/-- What `advance` returns: the outcome or the refusal with the endpoint handed back. -/
abbrev Advanced := Except (ProtocolError × Endpoint) AdvanceOutcome

/-- Attempt one operation with the endpoint `old`. -/
def SessionTable.advance {H : Type*} (table : SessionTable) (old : Endpoint) (operation : Operation)
    (cleanupHandler : CleanupHandler H) (handlerState : H) :
    Option (Advanced × SessionTable × H) :=
  let sessionId := old.sessionId
  let refuse (error : ProtocolError) (state : StateId) (generation : Nat) (isTerminal : Bool) :=
    some (.error (error, ⟨sessionId, state, generation, isTerminal⟩), table, handlerState)
  match table.records[sessionId]? with
  | none => refuse (.unknownSession sessionId) old.state old.generation false
  | some record =>
    if record.closed then
      -- The record really is terminal, so the endpoint handed back is flagged terminal.
      refuse (.useAfterTerminal sessionId record.state) record.state record.generation true
    else if record.generation ≠ old.generation then
      refuse (.staleHandle sessionId old.generation record.generation) record.state
        record.generation false
    else
      match table.admit sessionId record.state operation with
      | .error error => refuse error record.state record.generation false
      | .ok (transition, target) =>
        if record.generation ≥ lastGeneration then none
        else
          let next := table.commit sessionId record transition target operation
          let isTerminal := table.spec.terminal.contains target
          let endpoint : Endpoint := ⟨sessionId, target, record.generation + 1, isTerminal⟩
          if isTerminal then
            let (results, handlerState) :=
              runCleanup cleanupHandler sessionId target (table.spec.cleanupFor target)
                handlerState
            some (.ok (.terminal endpoint ⟨target, transition.kind, results⟩), next, handlerState)
          else some (.ok (.live endpoint), next, handlerState)

/-- The endpoint a call hands to its caller, whether the operation succeeded or not. -/
def Advanced.endpoint : Advanced → Endpoint
  | .error (_, endpoint) => endpoint
  | .ok (.live endpoint) => endpoint
  | .ok (.terminal endpoint _) => endpoint

def SessionTable.currentGeneration (table : SessionTable) (sessionId : String) : Option Nat :=
  table.records[sessionId]?.map (·.generation)

/-- The endpoint names a known session and carries its current generation. -/
def SessionTable.Current (table : SessionTable) (endpoint : Endpoint) : Prop :=
  table.currentGeneration endpoint.sessionId = some endpoint.generation
deriving Decidable

/-- The endpoint names a known session and carries an earlier generation. -/
def SessionTable.Stale (table : SessionTable) (endpoint : Endpoint) : Prop :=
  ∃ generation ∈ table.currentGeneration endpoint.sessionId, endpoint.generation < generation
deriving Decidable

/-- The endpoint passes the table's checks of the handle: the session is known and not closed, and
the generation is its current one. -/
def SessionTable.Accepts (table : SessionTable) (endpoint : Endpoint) : Prop :=
  ∃ record ∈ table.records[endpoint.sessionId]?,
    record.closed = false ∧ record.generation = endpoint.generation
deriving Decidable

variable {table next : SessionTable} {H : Type*} {old : Endpoint} {operation : Operation}
variable {result : Advanced}

theorem SessionTable.Current.not_stale {endpoint : Endpoint}
    (current : table.Current endpoint) : ¬ table.Stale endpoint := by
  rintro ⟨generation, known, earlier⟩
  obtain rfl : endpoint.generation = generation := Option.some.inj (current.symm.trans known)
  exact lt_irrefl _ earlier

theorem SessionTable.commit_generation (table : SessionTable) (sessionId : String)
    (record : SessionRecord) (transition : Transition) (target : StateId) (operation : Operation)
    (other : String) :
    (table.commit sessionId record transition target operation).currentGeneration other =
      if sessionId = other then some (record.generation + 1)
      else table.currentGeneration other := by
  unfold SessionTable.currentGeneration SessionTable.commit
  rw [BTreeMap.getElem?_insert_eq]
  split_ifs <;> rfl

/-- A refused `open` changes nothing; a granted one adds a record of generation `0` for a session
that had none. -/
theorem SessionTable.open_cases (table : SessionTable) (sessionId : String) :
    (∃ error, table.open sessionId = (.error error, table)) ∨
    (table.currentGeneration sessionId = none ∧ ∃ endpoint next,
      table.open sessionId = (.ok endpoint, next) ∧ endpoint.sessionId = sessionId ∧
      next.Current endpoint ∧
      ∀ other, other ≠ sessionId → next.currentGeneration other = table.currentGeneration other) := by
  unfold SessionTable.open
  by_cases known : table.records.contains sessionId
  · rw [if_pos known]
    exact .inl ⟨_, rfl⟩
  · rw [if_neg known]
    have inserted := BTreeMap.getElem?_insert_eq table.records sessionId
    refine .inr ⟨?_, _, _, rfl, rfl, ?_, fun other distinct => ?_⟩
    · rw [Std.TreeMap.contains_eq_isSome_getElem?] at known
      unfold SessionTable.currentGeneration
      rw [Option.not_isSome_iff_eq_none.mp known]
      rfl
    · unfold SessionTable.Current SessionTable.currentGeneration
      rw [inserted, if_pos rfl]
      rfl
    · unfold SessionTable.currentGeneration
      rw [inserted, if_neg (Ne.symm distinct)]

/-- On a known session `advance` hands back an endpoint of that session at the generation the table
then holds, and moves no other session: this is so of every outcome, and for every endpoint
presented. -/
theorem SessionTable.advance_current {handler : CleanupHandler H} {before after : H}
    (known : table.currentGeneration old.sessionId ≠ none)
    (returned : table.advance old operation handler before = some (result, next, after)) :
    result.endpoint.sessionId = old.sessionId ∧ next.Current result.endpoint ∧
      ∀ other, other ≠ old.sessionId →
        next.currentGeneration other = table.currentGeneration other := by
  unfold SessionTable.advance at returned
  cases found : table.records[old.sessionId]? with
  | none => exact absurd (by rw [SessionTable.currentGeneration, found]; rfl) known
  | some record =>
  have unchanged : table.currentGeneration old.sessionId = some record.generation := by
    rw [SessionTable.currentGeneration, found]
    rfl
  simp only [found] at returned
  by_cases closed : record.closed
  · rw [if_pos closed] at returned
    cases returned
    exact ⟨rfl, unchanged, fun _ _ => rfl⟩
  rw [if_neg closed] at returned
  by_cases stale : record.generation ≠ old.generation
  · rw [if_pos stale] at returned
    cases returned
    exact ⟨rfl, unchanged, fun _ _ => rfl⟩
  rw [if_neg stale] at returned
  cases admitted : table.admit old.sessionId record.state operation with
  | error error =>
    simp only [admitted] at returned
    cases returned
    exact ⟨rfl, unchanged, fun _ _ => rfl⟩
  | ok taken =>
    obtain ⟨transition, target⟩ := taken
    have moved := table.commit_generation old.sessionId record transition target operation
    simp only [admitted] at returned
    split_ifs at returned with overflow terminal
    all_goals
      cases returned
      exact ⟨rfl, (moved _).trans (if_pos rfl),
        fun other distinct => (moved other).trans (if_neg (Ne.symm distinct))⟩

/-- What the checks of a granted `advance` established: the record, the transition it took and the
state that led to. -/
structure SessionTable.Took (table : SessionTable) (old : Endpoint) (operation : Operation)
    (record : SessionRecord) (transition : Transition) (target : StateId) : Prop where
  known : table.records[old.sessionId]? = some record
  live : record.closed = false
  fresh : record.generation = old.generation
  counts : record.generation < lastGeneration
  found : (table.spec.transitionsFrom record.state).find? (·.label = operation.label) =
    some transition
  payload : transition.payloadType = operation.payloadType
  authorized : checkCapability old.sessionId transition operation = .ok ()
  owned : table.checkOwnership old.sessionId transition operation = .ok ()
  selected : selectTarget old.sessionId record.state transition operation = .ok target

theorem SessionTable.admit_ok {sessionId : String} {state : StateId}
    {transition : Transition} {target : StateId} :
    table.admit sessionId state operation = .ok (transition, target) ↔
      (table.spec.transitionsFrom state).find? (·.label = operation.label) = some transition ∧
      transition.payloadType = operation.payloadType ∧
      checkCapability sessionId transition operation = .ok () ∧
      table.checkOwnership sessionId transition operation = .ok () ∧
      selectTarget sessionId state transition operation = .ok target := by
  unfold SessionTable.admit
  cases found : (table.spec.transitionsFrom state).find? (·.label = operation.label) with
  | none => simp
  | some declared =>
    by_cases payload : declared.payloadType = operation.payloadType
    · simp only [payload, ne_eq, not_true_eq_false, if_false, bind_eq_ok, Option.some.injEq]
      constructor
      · rintro ⟨⟨⟩, authorized, ⟨⟩, owned, chosen, selected, same⟩
        cases same
        exact ⟨rfl, payload, authorized, owned, selected⟩
      · rintro ⟨rfl, _, authorized, owned, selected⟩
        exact ⟨(), authorized, (), owned, target, selected, rfl⟩
    · simp only [ne_eq, payload, not_false_eq_true, if_true, Option.some.injEq]
      constructor
      · exact (nomatch ·)
      · rintro ⟨rfl, same, _⟩
        exact absurd same payload

/-- A refused `advance` changes nothing. A granted one commits the transition that its checks
established, and runs the cleanup inventory of the state it led to when that is terminal. -/
theorem SessionTable.advance_cases {handler : CleanupHandler H} {before after : H}
    (returned : table.advance old operation handler before = some (result, next, after)) :
    (∃ refused, result = .error refused ∧ next = table ∧ after = before) ∨
    ∃ record transition target outcome, table.Took old operation record transition target ∧
      next = table.commit old.sessionId record transition target operation ∧
      result = .ok outcome ∧ result.endpoint.state = target ∧
      after = if table.spec.terminal.contains target then
        (runCleanup handler old.sessionId target (table.spec.cleanupFor target) before).2
        else before := by
  unfold SessionTable.advance at returned
  cases known : table.records[old.sessionId]? with
  | none =>
    simp only [known] at returned
    cases returned
    exact .inl ⟨_, rfl, rfl, rfl⟩
  | some record =>
  simp only [known] at returned
  by_cases closed : record.closed
  · rw [if_pos closed] at returned
    cases returned
    exact .inl ⟨_, rfl, rfl, rfl⟩
  rw [if_neg closed] at returned
  by_cases stale : record.generation ≠ old.generation
  · rw [if_pos stale] at returned
    cases returned
    exact .inl ⟨_, rfl, rfl, rfl⟩
  rw [if_neg stale] at returned
  cases admitted : table.admit old.sessionId record.state operation with
  | error error =>
    simp only [admitted] at returned
    cases returned
    exact .inl ⟨_, rfl, rfl, rfl⟩
  | ok taken =>
    obtain ⟨transition, target⟩ := taken
    obtain ⟨found, payload, authorized, owned, selected⟩ := SessionTable.admit_ok.mp admitted
    simp only [admitted] at returned
    split_ifs at returned with overflow terminal
    all_goals
      have took : table.Took old operation record transition target :=
        ⟨known, Bool.not_eq_true _ ▸ closed, not_not.mp stale, not_le.mp overflow, found, payload,
          authorized, owned, selected⟩
      cases returned
      exact .inr ⟨record, transition, target, _, took, rfl, rfl, rfl, by simp [terminal]⟩

theorem SessionTable.advance_stale
    (stale : table.Stale old) (operation : Operation) (handler : CleanupHandler H) (before : H) :
    ∃ refused, table.advance old operation handler before = some (.error refused, table, before) := by
  obtain ⟨generation, known, earlier⟩ := stale
  obtain ⟨record, found, rfl⟩ := Option.map_eq_some_iff.mp known
  have distinct : record.generation ≠ old.generation := by omega
  unfold SessionTable.advance
  simp only [found, if_pos distinct]
  by_cases closed : record.closed
  · exact ⟨_, if_pos closed⟩
  · exact ⟨_, if_neg closed⟩

end Semaprax.SessionProtocol
