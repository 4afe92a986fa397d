/-
**The carrier call machine** (`public_generic_abi/carrier.rs`, `carrier/machine.rs`, `carrier/trace.rs`).

One call passes an input, a root with its leaves, and takes a result of the same shape. Every handle
has a state of its own, the call has a phase and at most one settlement, and what happens is recorded
in a trace.

* `transition`, `HandleLedger.apply` — the states of one handle.
* `CallLedger` — the phase and the settlement.
* `Trace.record` — the trace.
* `CarrierCallMachine.perform` — the operations on the machine.
-/

import Semaprax.Library.Sweeps

namespace Semaprax.CarrierCall

open Library

structure Handle where
  id : UInt32
  generation : UInt32
  deriving DecidableEq

/-- The state of one handle. -/
inductive CarrierState
  | created | initialized | transferred | borrowed | consumed | released | invalid
  deriving DecidableEq

inductive Event
  | fill | commit | beginLoan | endLoan | consume | discharge | releaseBeforeTransfer
  | releaseAfterTransfer
  deriving DecidableEq

/-- One whole call's phase. -/
inductive Phase
  | preparing | validated | committed
  deriving DecidableEq

/-- A sticky terminal settlement outcome. -/
inductive Settlement
  | success | providerFailure | allocationFailure | copyOutFailure | malformedResult
  | contractFailure | consumerRefusal | cleanupFailure
  deriving DecidableEq

def CarrierState.debug : CarrierState → String
  | created => "Created"
  | initialized => "Initialized"
  | transferred => "Transferred"
  | borrowed => "Borrowed"
  | consumed => "Consumed"
  | released => "Released"
  | invalid => "Invalid"

def Event.debug : Event → String
  | fill => "Fill"
  | commit => "Commit"
  | beginLoan => "BeginLoan"
  | endLoan => "EndLoan"
  | consume => "Consume"
  | discharge => "Discharge"
  | releaseBeforeTransfer => "ReleaseBeforeTransfer"
  | releaseAfterTransfer => "ReleaseAfterTransfer"

def Phase.debug : Phase → String
  | preparing => "Preparing"
  | validated => "Validated"
  | committed => "Committed"

structure Diagnostic where
  code : String
  message : String

def carrierSchema : String := "semaprax.public-generic-carrier.v1"
def illegalTransition : String := "SPX-PG804"
def stickySettlementViolation : String := "SPX-PG806"

def illegalHere (reason : String) : Diagnostic :=
  ⟨illegalTransition, carrierSchema ++ ": " ++ reason⟩

def illegal (state : CarrierState) (event : Event) : Diagnostic :=
  illegalHere (event.debug ++ " is not legal from " ++ state.debug)

def transition (state : CarrierState) (event : Event) : Except Diagnostic CarrierState :=
  match state, event with
  | .created, .fill => .ok .initialized
  | .initialized, .commit => .ok .transferred
  | .transferred, .beginLoan => .ok .borrowed
  | .borrowed, .endLoan => .ok .transferred
  | .transferred, .consume => .ok .consumed
  | .consumed, .discharge => .ok .released
  | .created, .releaseBeforeTransfer => .ok .released
  | .initialized, .releaseBeforeTransfer => .ok .released
  | .transferred, .releaseAfterTransfer => .ok .released
  | state, event => .error (illegal state event)

structure HandleLedger where
  handle : Handle
  state : CarrierState

namespace HandleLedger

def new (handle : Handle) : HandleLedger := ⟨handle, .created⟩

/-- An event that is not legal leaves the ledger invalid. -/
def apply (event : Event) : Prog HandleLedger Diagnostic CarrierState := fun ledger =>
  match transition ledger.state event with
  | .ok next => (.ok next, { ledger with
      state := next })
  | .error error => (.error error, { ledger with
      state := .invalid })

end HandleLedger

structure CallLedger where
  phase : Phase
  settlement : Option Settlement

namespace CallLedger

def new : CallLedger := ⟨.preparing, none⟩

def advance (next : Phase) : Prog CallLedger Diagnostic Unit := do
  let call ← Prog.get
  stopIf (¬((call.phase = .preparing ∧ next = .validated) ∨
    (call.phase = .validated ∧ next = .committed)))
    (illegalHere (next.debug ++ " does not legally follow " ++ call.phase.debug))
  Prog.set
    { call with
      phase := next }

def settle (outcome : Settlement) : Prog CallLedger Diagnostic Unit := do
  let call ← Prog.get
  match call.settlement with
  | none =>
    Prog.set
      { call with
        settlement := some outcome }
  | some existing =>
    stopIf (existing ≠ outcome) ⟨stickySettlementViolation, carrierSchema ++
      ": the settlement outcome is already selected and is sticky"⟩

end CallLedger

inductive Direction
  | input | result
  deriving DecidableEq

inductive TraceLabel
  | frameValidated | leafAllocationStarted | leafAllocationCommitted | leafPayloadCopied
  | inputValuePrepared | inputTransferCommitted | executionStarted | executionFinished
  | resultLeafAllocationStarted | resultLeafAllocationCommitted | resultValuePrepared | resultCommit
  | leafRelease | carrierRelease | terminalStatus
  deriving DecidableEq

structure TraceEvent where
  ordinal : UInt32
  label : TraceLabel
  direction : Direction
  leaf : Option Nat
  before : Option CarrierState
  after : Option CarrierState
  status : Option Settlement

structure Trace where
  events : List TraceEvent

namespace Trace

def new : Trace := ⟨[]⟩

def record (label : TraceLabel) (direction : Direction) (leaf : Option Nat)
    (before after : Option CarrierState) (status : Option Settlement) (trace : Trace) : Trace :=
  ⟨trace.events ++ [⟨UInt32.ofNat trace.events.length, label, direction, leaf, before, after,
    status⟩]⟩

/-- Record an event of a whole value. -/
def mark (label : TraceLabel) (direction : Direction) (trace : Trace) : Trace :=
  trace.record label direction none none none none

end Trace

/-- One call's argument or result: the root and its leaves, in their order. -/
structure HandleSet where
  root : HandleLedger
  leaves : List HandleLedger

def leafAt : Nat → Option Nat
  | 0 => none
  | index + 1 => some index

namespace HandleSet

def new (root : Handle) (leaves : List Handle) : HandleSet :=
  ⟨.new root, leaves.map HandleLedger.new⟩

def ledgers (set : HandleSet) : List HandleLedger := set.root :: set.leaves

def replace (set : HandleSet) : List HandleLedger → HandleSet
  | [] => set
  | root :: leaves => ⟨root, leaves⟩

def obligationOrder (set : HandleSet) : List Handle := set.ledgers.map HandleLedger.handle

def allReadyFor (set : HandleSet) (event : Event) : Bool :=
  set.ledgers.all fun ledger => (transition ledger.state event).isOk

def sweeping (sweep : List HandleLedger → Trace → Except Diagnostic Unit × List HandleLedger × Trace) :
    Prog (HandleSet × Trace) Diagnostic Unit := fun (set, trace) =>
  let (outcome, ledgers, trace) := sweep set.ledgers trace
  (outcome, set.replace ledgers, trace)

def fillLedger (direction : Direction) (isResult : Bool) (position : Nat) :
    Prog (HandleLedger × Trace) Diagnostic Unit := do
  let (ledger, trace) ← Prog.get
  let leaf := leafAt position
  let started : TraceLabel :=
    if isResult then .resultLeafAllocationStarted else .leafAllocationStarted
  let committed : TraceLabel :=
    if isResult then .resultLeafAllocationCommitted else .leafAllocationCommitted
  Prog.set (ledger, trace.record started direction leaf (some ledger.state) none none)
  let after ← (HandleLedger.apply .fill).onFirst
  let (filled, trace) ← Prog.get
  let trace := trace.record committed direction leaf (some ledger.state) (some after) none
  Prog.set (filled, if isResult then trace else
    trace.record .leafPayloadCopied direction leaf (some after) (some after) none)

def fillAndTrace (direction : Direction) (isResult : Bool) :
    Prog (HandleSet × Trace) Diagnostic Unit :=
  sweeping (forwards (fillLedger direction isResult) 0)

def commitLedger (_ : Nat) : Prog (HandleLedger × Trace) Diagnostic Unit := do
  let _ ← (HandleLedger.apply .commit).onFirst
  pure ()

def commitAll : Prog (HandleSet × Trace) Diagnostic Unit := sweeping (forwards commitLedger 0)

def releaseLedger (direction : Direction) (event : Event) (position : Nat) :
    Prog (HandleLedger × Trace) Diagnostic Unit := do
  let (ledger, _) ← Prog.get
  let after ← (HandleLedger.apply event).onFirst
  let (released, trace) ← Prog.get
  Prog.set (released, trace.record .leafRelease direction (leafAt position) (some ledger.state)
    (some after) none)

/-- Release every handle in the reverse of the obligation order. -/
def releaseSet (direction : Direction) (transferred : Bool) :
    Prog (HandleSet × Trace) Diagnostic Unit := do
  let event : Event := if transferred then .releaseAfterTransfer else .releaseBeforeTransfer
  sweeping (backwards (releaseLedger direction event) 0)
  let (set, trace) ← Prog.get
  Prog.set (set, trace.mark .carrierRelease direction)

end HandleSet

structure CarrierCallMachine where
  call : CallLedger
  input : HandleSet
  result : Option HandleSet
  executionStarted : Bool
  executionFinished : Bool
  trace : Trace

namespace CarrierCallMachine

def new (root : Handle) (leaves : List Handle) : CarrierCallMachine :=
  ⟨.new, .new root leaves, none, false, false, .new⟩

def onCall (program : Prog CallLedger Diagnostic Unit) : Prog CarrierCallMachine Diagnostic Unit :=
  fun machine =>
    let (outcome, call) := program machine.call
    (outcome, { machine with
      call := call })

def onInput (program : Prog (HandleSet × Trace) Diagnostic Unit) :
    Prog CarrierCallMachine Diagnostic Unit := fun machine =>
  let (outcome, input, trace) := program (machine.input, machine.trace)
  (outcome, { machine with
    input := input
    trace := trace })

/-- Run on the result, if its staging has begun. -/
def onResult (program : Prog (HandleSet × Trace) Diagnostic Unit) :
    Prog CarrierCallMachine Diagnostic Unit := fun machine =>
  match machine.result with
  | none => (.error (illegalHere "result staging has not begun"), machine)
  | some result =>
    let (outcome, result, trace) := program (result, machine.trace)
    (outcome, { machine with
      result := some result
      trace := trace })

def record (label : TraceLabel) (direction : Direction) : Prog CarrierCallMachine Diagnostic Unit := do
  let machine ← Prog.get
  Prog.set
    { machine with
      trace := machine.trace.mark label direction }

def validate : Prog CarrierCallMachine Diagnostic Unit := do
  onCall (CallLedger.advance .validated)
  record .frameValidated .input

def prepareInput : Prog CarrierCallMachine Diagnostic Unit := do
  onInput (HandleSet.fillAndTrace .input false)
  record .inputValuePrepared .input

def commitInputTransfer : Prog CarrierCallMachine Diagnostic Unit := do
  let machine ← Prog.get
  stopIf (machine.call.phase ≠ .validated)
    (illegalHere "input transfer cannot commit outside the Validated phase")
  stopIf (machine.input.allReadyFor .commit = false)
    (illegalHere "input transfer cannot commit: not every handle is Initialized")
  onCall (CallLedger.advance .committed)
  onInput HandleSet.commitAll
  record .inputTransferCommitted .input

def beginExecution : Prog CarrierCallMachine Diagnostic Unit := do
  let machine ← Prog.get
  stopIf (machine.call.phase ≠ .committed ∨ machine.executionStarted = true)
    (illegalHere "execution can only begin once, after input transfer commits")
  Prog.set
    { machine with
      executionStarted := true }
  record .executionStarted .input

def finishExecution : Prog CarrierCallMachine Diagnostic Unit := do
  let machine ← Prog.get
  stopIf (machine.executionStarted = false ∨ machine.executionFinished = true)
    (illegalHere "execution cannot finish before it begins, or twice")
  Prog.set
    { machine with
      executionFinished := true }
  record .executionFinished .input

def beginResult (root : Handle) (leaves : List Handle) : Prog CarrierCallMachine Diagnostic Unit := do
  let machine ← Prog.get
  stopIf (machine.executionFinished = false ∨ machine.result.isSome)
    (illegalHere "result staging can only begin once, after execution finishes")
  Prog.set
    { machine with
      result := some (.new root leaves) }

def prepareResult : Prog CarrierCallMachine Diagnostic Unit := do
  onResult (HandleSet.fillAndTrace .result true)
  record .resultValuePrepared .result

def commitResult : Prog CarrierCallMachine Diagnostic Unit := do
  onResult do
    let (result, _) ← Prog.get
    stopIf (result.allReadyFor .commit = false)
      (illegalHere "result cannot commit: not every result handle is Initialized")
    HandleSet.commitAll
  record .resultCommit .result

def settle (outcome : Settlement) : Prog CarrierCallMachine Diagnostic Unit := do
  onCall (CallLedger.settle outcome)
  let machine ← Prog.get
  Prog.set
    { machine with
      trace := machine.trace.record .terminalStatus .input none none none (some outcome) }

def releaseInputBeforeTransfer : Prog CarrierCallMachine Diagnostic Unit :=
  onInput (HandleSet.releaseSet .input false)

def releaseInputAfterTransfer : Prog CarrierCallMachine Diagnostic Unit :=
  onInput (HandleSet.releaseSet .input true)

def releaseResultBeforeCommit : Prog CarrierCallMachine Diagnostic Unit :=
  onResult (HandleSet.releaseSet .result false)

end CarrierCallMachine

/-- What may be called on a machine. -/
inductive Operation
  | validate | prepareInput | commitInputTransfer | beginExecution | finishExecution
  | beginResult (root : Handle) (leaves : List Handle) | prepareResult | commitResult
  | settle (outcome : Settlement) | releaseInputBeforeTransfer | releaseInputAfterTransfer
  | releaseResultBeforeCommit

namespace CarrierCallMachine

def perform : Operation → Prog CarrierCallMachine Diagnostic Unit
  | .validate => validate
  | .prepareInput => prepareInput
  | .commitInputTransfer => commitInputTransfer
  | .beginExecution => beginExecution
  | .finishExecution => finishExecution
  | .beginResult root leaves => beginResult root leaves
  | .prepareResult => prepareResult
  | .commitResult => commitResult
  | .settle outcome => settle outcome
  | .releaseInputBeforeTransfer => releaseInputBeforeTransfer
  | .releaseInputAfterTransfer => releaseInputAfterTransfer
  | .releaseResultBeforeCommit => releaseResultBeforeCommit

def after (machine : CarrierCallMachine) (operations : List Operation) : CarrierCallMachine :=
  operations.foldl (fun machine operation => (perform operation machine).2) machine

end CarrierCallMachine

end Semaprax.CarrierCall
