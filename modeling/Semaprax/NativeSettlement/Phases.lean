/-
**What an operation does to a transaction** (`native_settlement.rs`).

* `InPhase`, `Sound` — the owners of a transaction are those of the actions performed so far.
* `Moved` — the nine things that an operation may do.
* `perform_moved` — from a sound transaction every operation does one of them.
* `Sound.moved` — and the transaction stays sound.
-/

import Semaprax.NativeSettlement.Disposal
import Semaprax.NativeSettlement.Transaction

namespace Semaprax.NativeSettlement

open Library NativeSettlementTransaction

section Phases

variable (fingerprint : NativeSettlementCertificate → Digest)
variable (certificate : NativeSettlementCertificate)

/-- The actions of a locked decision have been performed up to the next one. -/
structure Performed (transaction : NativeSettlementTransaction) (decision : SettlementDecision)
    (resources : List SettlementResourceState) : Prop where
  chosen : ∃ checkpoint, certificate.checkpoint transaction.checkpoint = .ok checkpoint ∧
    actionsFor checkpoint decision = .ok transaction.actions ∧
    applyActions checkpoint.resources (transaction.actions.take transaction.nextAction) =
      .ok resources
  bound : transaction.nextAction ≤ transaction.actions.length
  candidate : transaction.candidateReceipt = none
  committed : transaction.committedReceipt = none

/-- Every action has been performed, and there is a receipt for it. -/
structure Completed (transaction : NativeSettlementTransaction) (decision : SettlementDecision)
    (receipt : NativeSettlementReceipt) : Prop where
  chosen : ∃ checkpoint, certificate.checkpoint transaction.checkpoint = .ok checkpoint ∧
    actionsFor checkpoint decision = .ok transaction.actions ∧
    applyActions checkpoint.resources transaction.actions = .ok transaction.resources
  all : transaction.nextAction = transaction.actions.length
  candidate : transaction.candidateReceipt = some receipt
  decision : receipt.decision = decision
  valid : certificate.validateReceipt fingerprint transaction.invocation receipt = .ok ()

inductive InPhase (transaction : NativeSettlementTransaction) : Prop
  | executing (phase : transaction.phase = .executing)
      (here : ∃ checkpoint, certificate.checkpoint transaction.checkpoint = .ok checkpoint ∧
        transaction.resources = checkpoint.resources)
      (actions : transaction.actions = []) (next : transaction.nextAction = 0)
      (candidate : transaction.candidateReceipt = none)
      (committed : transaction.committedReceipt = none) : InPhase transaction
  | decisionLocked (decision : SettlementDecision)
      (phase : transaction.phase = .decisionLocked decision)
      (performed : Performed certificate transaction decision transaction.resources) :
      InPhase transaction
  | actionInProgress (decision : SettlementDecision) (owner : Nat)
      (base : List SettlementResourceState)
      (phase : transaction.phase = .actionInProgress decision transaction.nextAction owner)
      (performed : Performed certificate transaction decision base)
      (pending : transaction.actions[transaction.nextAction]? = some (.finalize owner))
      (before : base[owner]? = some .live ∨ base[owner]? = some .provisionalResult)
      (resources : transaction.resources = base.set owner .finalizing) : InPhase transaction
  | providerSettled (decision : SettlementDecision) (receipt : NativeSettlementReceipt)
      (phase : transaction.phase = .providerSettled decision)
      (completed : Completed fingerprint certificate transaction decision receipt)
      (committed : transaction.committedReceipt = none) : InPhase transaction
  | receiptCommitted (decision : SettlementDecision) (receipt : NativeSettlementReceipt)
      (phase : transaction.phase = .receiptCommitted decision)
      (completed : Completed fingerprint certificate transaction decision receipt)
      (committed : transaction.committedReceipt = some receipt) : InPhase transaction
  | quarantined (decision : Option SettlementDecision)
      (phase : transaction.phase = .quarantined decision) : InPhase transaction

/-- A transaction of the certificate that is as its phase says. -/
structure Sound (transaction : NativeSettlementTransaction) : Prop where
  function : transaction.function = certificate.function
  recoveryContract : transaction.recoveryContract = certificate.recoveryContract
  bound : transaction.certificateFingerprint = fingerprint certificate
  length : transaction.resources.length = certificate.resourceCount
  inPhase : InPhase fingerprint certificate transaction

variable {fingerprint certificate} {transaction : NativeSettlementTransaction}

section Performed

variable {decision : SettlementDecision} {resources : List SettlementResourceState}
variable {checkpoint : SettlementCheckpointSpec}

theorem Performed.validates_idle
    (performed : Performed certificate transaction decision transaction.resources)
    (here : certificate.checkpoint transaction.checkpoint = .ok checkpoint) :
    NativeSettlementCertificate.validateLockedTransactionState transaction checkpoint decision
      none = .ok () := by
  obtain ⟨other, found, chosen, applied⟩ := performed.chosen
  obtain rfl := Except.ok.inj (here.symm.trans found)
  unfold NativeSettlementCertificate.validateLockedTransactionState
  refine bind_eq_ok.mpr ⟨_, chosen, bind_eq_ok.mpr ⟨(), ?_, bind_eq_ok.mpr ⟨_, applied, ?_⟩⟩⟩
  · simp [performed.bound, performed.candidate, performed.committed]
  · exact refuseIf_eq_ok.mpr (not_not.mpr rfl)

theorem Performed.validates_inProgress {owner : Nat}
    (performed : Performed certificate transaction decision resources)
    (here : certificate.checkpoint transaction.checkpoint = .ok checkpoint)
    (pending : transaction.actions[transaction.nextAction]? = some (.finalize owner))
    (before : resources[owner]? = some .live ∨ resources[owner]? = some .provisionalResult)
    (same : transaction.resources = resources.set owner .finalizing) :
    NativeSettlementCertificate.validateLockedTransactionState transaction checkpoint decision
      (some (transaction.nextAction, owner)) = .ok () := by
  obtain ⟨other, found, chosen, applied⟩ := performed.chosen
  obtain rfl := Except.ok.inj (here.symm.trans found)
  unfold NativeSettlementCertificate.validateLockedTransactionState
  refine bind_eq_ok.mpr ⟨_, chosen, bind_eq_ok.mpr ⟨(), ?_, bind_eq_ok.mpr ⟨_, applied, ?_⟩⟩⟩
  · simp [performed.bound, performed.candidate, performed.committed]
  · refine bind_eq_ok.mpr ⟨(), ?_, bind_eq_ok.mpr ⟨(), ?_, ?_⟩⟩
    · simp [pending]
    · rw [refuseIf_eq_ok, ← not_or, not_not]
      exact before
    · rw [refuseIf_eq_ok, not_not]
      exact same

end Performed

theorem Completed.validates {decision : SettlementDecision} {receipt : NativeSettlementReceipt}
    (completed : Completed fingerprint certificate transaction decision receipt)
    {checkpoint : SettlementCheckpointSpec}
    (here : certificate.checkpoint transaction.checkpoint = .ok checkpoint) {committed : Bool}
    (same : transaction.committedReceipt = if committed then some receipt else none) :
    certificate.validateSettledTransactionState fingerprint transaction checkpoint decision
      committed = .ok () := by
  obtain ⟨other, found, chosen, applied⟩ := completed.chosen
  obtain rfl := Except.ok.inj (here.symm.trans found)
  unfold NativeSettlementCertificate.validateSettledTransactionState
  refine bind_eq_ok.mpr ⟨_, chosen, bind_eq_ok.mpr ⟨_, applied, ?_⟩⟩
  rw [completed.candidate]
  refine bind_eq_ok.mpr ⟨(), ?_, refuseIf_eq_ok.mpr (not_not.mpr same)⟩
  simp [completed.all, completed.decision, completed.valid]

theorem InPhase.validates (inPhase : InPhase fingerprint certificate transaction) :
    certificate.validateTransactionState fingerprint transaction = .ok () := by
  unfold NativeSettlementCertificate.validateTransactionState
  cases inPhase with
  | executing phase here actions next candidate committed =>
    obtain ⟨checkpoint, found, same⟩ := here
    rw [phase]
    refine bind_eq_ok.mpr ⟨checkpoint, found, ?_⟩
    simp [same, actions, next, candidate, committed]
  | decisionLocked decision phase performed =>
    obtain ⟨checkpoint, found, -, -⟩ := performed.chosen
    rw [phase]
    exact bind_eq_ok.mpr ⟨checkpoint, found, performed.validates_idle found⟩
  | actionInProgress decision owner base phase performed pending before resources =>
    obtain ⟨checkpoint, found, -, -⟩ := performed.chosen
    rw [phase]
    refine bind_eq_ok.mpr ⟨checkpoint, found, ?_⟩
    exact performed.validates_inProgress found pending before resources
  | providerSettled decision receipt phase completed committed
  | receiptCommitted decision receipt phase completed committed =>
    obtain ⟨checkpoint, found, -, -⟩ := completed.chosen
    rw [phase]
    exact bind_eq_ok.mpr ⟨checkpoint, found, completed.validates found committed⟩
  | quarantined decision phase => rw [phase]

theorem Sound.authenticates (sound : Sound fingerprint certificate transaction) :
    certificate.authenticateTransaction fingerprint transaction = .ok () := by
  unfold NativeSettlementCertificate.authenticateTransaction
  refine bind_eq_ok.mpr ⟨(), ?_, sound.inPhase.validates⟩
  simp [sound.function, sound.recoveryContract, sound.bound, sound.length]

variable (fingerprint certificate) in
/-- What an operation does to a transaction, with the progress action that it takes and the owner
whose finalizer it begins. -/
inductive Moved (before : NativeSettlementTransaction) :
    Option SettlementProgressAction → Option Nat → NativeSettlementTransaction → Prop
  | kept : Moved before none none before
  | quarantined (active : ∀ decision, before.phase ≠ .quarantined decision) :
      Moved before none none
        { before with
          phase := .quarantined before.lockedDecision }
  | advanced (action : SettlementProgressAction) (edge : SettlementProgressEdge)
      (destination : SettlementCheckpointSpec) (phase : before.phase = .executing)
      (edges : certificate.edgesBy before.checkpoint action = [edge])
      (found : certificate.checkpoint edge.target = .ok destination) :
      Moved before (some action) none
        { before with
          checkpoint := edge.target
          resources := destination.resources }
  | locked (decision : SettlementDecision) (actions : List SettlementAction)
      (checkpoint : SettlementCheckpointSpec) (phase : before.phase = .executing)
      (here : certificate.checkpoint before.checkpoint = .ok checkpoint)
      (chosen : actionsFor checkpoint decision = .ok actions) :
      Moved before none none
        { before with
          actions := actions
          nextAction := 0
          phase := .decisionLocked decision }
  | begun (decision : SettlementDecision) (owner : Nat)
      (phase : before.phase = .decisionLocked decision)
      (pending : before.actions[before.nextAction]? = some (.finalize owner))
      (alive : before.resources[owner]? = some .live ∨
        before.resources[owner]? = some .provisionalResult) :
      Moved before none (some owner)
        { before.setState owner .finalizing with
          phase := .actionInProgress decision before.nextAction owner }
  | completed (decision : SettlementDecision) (owner : Nat)
      (phase : before.phase = .actionInProgress decision before.nextAction owner) :
      Moved before none none
        { before.setState owner .dead with
          nextAction := before.nextAction + 1
          phase := .decisionLocked decision }
  | published (decision : SettlementDecision) (owner : Nat)
      (phase : before.phase = .decisionLocked decision)
      (pending : before.actions[before.nextAction]? = some (.publish owner))
      (provisional : before.resources[owner]? = some .provisionalResult) :
      Moved before none none
        { before.setState owner .published with
          nextAction := before.nextAction + 1 }
  | finished (decision : SettlementDecision) (dispositions : List SettlementDisposition)
      (phase : before.phase = .decisionLocked decision)
      (all : before.nextAction = before.actions.length)
      (ended : terminalDispositions before.resources = .ok dispositions)
      (valid : certificate.validateReceipt fingerprint before.invocation
        (certificate.receiptFor fingerprint before.invocation before.checkpoint decision
          before.actions dispositions) = .ok ()) :
      Moved before none none
        { before with
          candidateReceipt := some (certificate.receiptFor fingerprint before.invocation
            before.checkpoint decision before.actions dispositions)
          phase := .providerSettled decision }
  | committed (decision : SettlementDecision) (candidate : NativeSettlementReceipt)
      (phase : before.phase = .providerSettled decision)
      (exact : before.candidateReceipt = some candidate) :
      Moved before none none
        { before with
          committedReceipt := some candidate
          phase := .receiptCommitted decision }

variable (fingerprint certificate transaction) in
/-- The program takes no progress action and begins no finalizer, whether it ends or stops. -/
abbrev Quietly {A : Type} (program : Prog NativeSettlementTransaction SettlementError A) : Prop :=
  program.wp (fun _ after => Moved fingerprint certificate transaction none none after)
    (fun _ after => Moved fingerprint certificate transaction none none after) transaction

theorem Moved.stop {decision : Option SettlementDecision}
    (locked : transaction.lockedDecision = decision ∧
      ∀ other, transaction.phase ≠ .quarantined other) :
    Moved fingerprint certificate transaction none none
      { transaction with
        phase := .quarantined decision } :=
  locked.1 ▸ .quarantined locked.2

section Operations

variable {A : Type} {ends : A → NativeSettlementTransaction → Prop}
variable {stops : SettlementError → NativeSettlementTransaction → Prop}

@[simp]
theorem wp_quarantine (decision : Option SettlementDecision) (error : SettlementError) :
    (quarantine decision error : Prog NativeSettlementTransaction SettlementError A).wp ends stops
      transaction ↔ stops error { transaction with phase := .quarantined decision } := by
  unfold quarantine
  simp only [wp_bind, wp_get, wp_set, wp_stop]

@[simp]
theorem wp_checkOr (decision : Option SettlementDecision) (result : Except SettlementError A) :
    (checkOr decision result).wp ends stops transaction ↔
      (∀ error, result = .error error →
        stops error { transaction with phase := .quarantined decision }) ∧
      ∀ value, result = .ok value → ends value transaction := by
  cases result <;> simp [checkOr]

@[simp]
theorem wp_quarantineIf (condition : Prop) [Decidable condition]
    (decision : Option SettlementDecision) (error : SettlementError)
    {ends : Unit → NativeSettlementTransaction → Prop} :
    (quarantineIf condition decision error).wp ends stops transaction ↔
      (condition → stops error { transaction with phase := .quarantined decision }) ∧
      (¬condition → ends () transaction) := by
  unfold quarantineIf
  by_cases holds : condition
  · simp [holds]
  · simp [holds]

theorem wp_lockedIdle {ends : SettlementDecision → NativeSettlementTransaction → Prop}
    {stops : SettlementError → NativeSettlementTransaction → Prop}
    (goes : ∀ decision, transaction.phase = .decisionLocked decision → ends decision transaction)
    (stopped : ∀ error after, Moved fingerprint certificate transaction none none after →
      stops error after) :
    (NativeSettlementCertificate.lockedIdle transaction).wp ends stops transaction := by
  unfold NativeSettlementCertificate.lockedIdle
  cases phase : transaction.phase with
  | decisionLocked decision => exact goes decision phase
  | actionInProgress decision index owner =>
    exact (wp_quarantine _ _).mpr (stopped _ _ (.stop (by simp [lockedDecision, phase])))
  | executing | providerSettled decision | receiptCommitted decision | quarantined decision =>
    exact stopped _ _ .kept

theorem replay_moved {decision locked : SettlementDecision}
    {receipt : Option NativeSettlementReceipt} (same : transaction.lockedDecision = some locked)
    (active : ∀ other, transaction.phase ≠ .quarantined other) :
    Quietly fingerprint certificate transaction
      (NativeSettlementCertificate.replay decision locked receipt) := by
  unfold Quietly NativeSettlementCertificate.replay
  simp only [wp_bind, wp_quarantineIf]
  refine ⟨fun _ => .stop ⟨same, active⟩, fun _ => ?_⟩
  cases receipt with
  | none => exact (wp_quarantine _ _).mpr (.stop ⟨same, active⟩)
  | some receipt => exact .kept

section Acting

variable (sound : Sound fingerprint certificate transaction)

include sound

theorem Sound.wp_authenticated
    {ends : NativeSettlementTransaction → NativeSettlementTransaction → Prop} :
    (certificate.authenticated fingerprint).wp ends stops transaction ↔
      ends transaction transaction := by
  unfold NativeSettlementCertificate.authenticated
  simp [sound.authenticates]

theorem advanceTransaction_moved (action : SettlementProgressAction) :
    (certificate.advanceTransaction fingerprint action).wp
      (fun _ after => Moved fingerprint certificate transaction (some action) none after)
      (fun _ after => Moved fingerprint certificate transaction none none after) transaction := by
  unfold NativeSettlementCertificate.advanceTransaction
  rw [wp_bind, sound.wp_authenticated]
  cases phase : transaction.phase with
  | executing =>
    have stopped : Moved fingerprint certificate transaction none none
        { transaction with phase := .quarantined none } :=
      .stop (by simp [lockedDecision, phase])
    simp only [wp_bind, wp_checkOr, wp_quarantineIf]
    refine ⟨fun _ _ => stopped, fun _ _ => ⟨fun _ => stopped, fun _ => ?_⟩⟩
    split
    · exact (wp_quarantine _ _).mpr stopped
    · rename_i edge edges
      simp only [wp_bind, wp_checkOr, wp_set]
      refine ⟨fun _ _ => stopped, fun destination found => ?_⟩
      rw [← phase]
      exact .advanced action edge destination phase edges found
    · exact (wp_quarantine _ _).mpr stopped
  | quarantined decision => exact .kept
  | decisionLocked decision | actionInProgress decision index owner | providerSettled decision
  | receiptCommitted decision =>
    exact (wp_quarantine _ _).mpr (.stop (by simp [phase]))

theorem lockTransactionDecision_moved (decision : SettlementDecision) :
    Quietly fingerprint certificate transaction
      (certificate.lockTransactionDecision fingerprint decision) := by
  unfold Quietly NativeSettlementCertificate.lockTransactionDecision
  rw [wp_bind, sound.wp_authenticated]
  cases phase : transaction.phase with
  | executing =>
    simp only [wp_bind, wp_check, wp_quarantineIf, wp_set]
    refine ⟨fun _ _ => .kept, fun _ _ => ⟨fun _ _ => .kept, fun checkpoint here =>
      ⟨fun _ => .stop (by simp [lockedDecision, phase]), fun _ => ⟨fun _ _ => .kept,
        fun actions chosen => ?_⟩⟩⟩⟩
    exact .locked decision actions checkpoint phase here chosen
  | decisionLocked locked =>
    simp only [wp_bind, wp_check, wp_quarantineIf]
    exact ⟨fun _ _ => .kept, fun _ _ =>
      ⟨fun _ => .stop (by simp [lockedDecision, phase]), fun _ => .kept⟩⟩
  | actionInProgress locked index owner =>
    simp only [wp_bind, wp_check, wp_quarantine]
    exact ⟨fun _ _ => .kept, fun _ _ => .stop (by simp [lockedDecision, phase])⟩
  | providerSettled locked | receiptCommitted locked =>
    simp only [wp_bind, wp_check]
    refine ⟨fun _ _ => .kept, fun _ _ => ?_⟩
    by_cases same : locked = decision
    · rw [if_pos same]
      exact .kept
    · rw [if_neg same]
      exact (wp_quarantine _ _).mpr (.stop (by simp [lockedDecision, phase]))
  | quarantined decision => exact .kept

theorem observeTransactionUnwind_moved : Quietly fingerprint certificate transaction
      (certificate.observeTransactionUnwind fingerprint) := by
  unfold Quietly NativeSettlementCertificate.observeTransactionUnwind
  rw [wp_bind, sound.wp_authenticated]
  cases phase : transaction.phase with
  | executing =>
    have unlocked : transaction.lockedDecision = none := by rw [lockedDecision, phase]
    simp only [unlocked, wp_bind]
    exact lockTransactionDecision_moved sound _
  | actionInProgress locked index owner =>
    exact (wp_quarantine _ _).mpr (.stop (by simp [phase]))
  | decisionLocked locked | providerSettled locked | receiptCommitted locked =>
    have decided : transaction.lockedDecision = some locked := by rw [lockedDecision, phase]
    simp only [decided]
    exact .kept
  | quarantined decision => exact .kept

theorem beginNextFinalizer_moved : (certificate.beginNextFinalizer fingerprint).wp
      (fun ticket after =>
        Moved fingerprint certificate transaction none (some ticket.ownerOrdinal) after)
      (fun _ after => Moved fingerprint certificate transaction none none after) transaction := by
  unfold NativeSettlementCertificate.beginNextFinalizer
  rw [wp_bind, sound.wp_authenticated, wp_bind]
  refine wp_lockedIdle (fun decision phase => ?_) fun _ _ moved => moved
  split
  · rename_i owner pending
    simp only [wp_bind, wp_quarantineIf, wp_set, wp_pure]
    refine ⟨fun _ => .stop (by simp [lockedDecision, phase]), fun alive => ?_⟩
    rw [← not_or, not_not] at alive
    exact .begun decision owner phase pending alive
  · exact .kept

theorem completeFinalizer_moved (ticket : SettlementFinalizerTicket) :
    Quietly fingerprint certificate transaction
      (certificate.completeFinalizer fingerprint ticket) := by
  unfold Quietly NativeSettlementCertificate.completeFinalizer
  rw [wp_bind, sound.wp_authenticated]
  cases phase : transaction.phase with
  | actionInProgress decision index owner =>
    have stopped : Moved fingerprint certificate transaction none none
        { transaction with phase := .quarantined (some decision) } :=
      .stop (by simp [lockedDecision, phase])
    simp only [wp_bind, wp_quarantineIf, wp_set]
    refine ⟨fun _ => stopped, fun _ => ⟨fun _ => stopped, fun _ => ?_⟩⟩
    have next : index = transaction.nextAction := by
      have inPhase := sound.inPhase
      cases inPhase with
      | actionInProgress _ _ _ here => rw [phase] at here; injection here
      | _ => simp_all
    exact .completed decision owner (next ▸ phase)
  | quarantined decision => exact .kept
  | executing | decisionLocked decision | providerSettled decision | receiptCommitted decision =>
    exact (wp_quarantine _ _).mpr (.stop (by simp [phase]))

theorem markFinalizerUncertain_moved : Quietly fingerprint certificate transaction
      (certificate.markFinalizerUncertain fingerprint) := by
  unfold Quietly NativeSettlementCertificate.markFinalizerUncertain
  rw [wp_bind, sound.wp_authenticated]
  cases phase : transaction.phase with
  | actionInProgress decision index owner => exact .stop (by simp [lockedDecision, phase])
  | _ => exact .kept

theorem publishOwnedCandidate_moved : Quietly fingerprint certificate transaction
      (certificate.publishOwnedCandidate fingerprint) := by
  unfold Quietly NativeSettlementCertificate.publishOwnedCandidate
  rw [wp_bind, sound.wp_authenticated, wp_bind]
  refine wp_lockedIdle (fun decision phase => ?_) fun _ _ moved => moved
  have stopped : Moved fingerprint certificate transaction none none
      { transaction with phase := .quarantined (some decision) } :=
    .stop (by simp [lockedDecision, phase])
  split
  · rename_i owner pending
    simp only [wp_bind, wp_quarantineIf, wp_set]
    refine ⟨fun _ => stopped, fun _ => ⟨fun _ => stopped, fun provisional => ?_⟩⟩
    exact .published decision owner phase pending (not_not.mp provisional)
  · exact (wp_quarantine _ _).mpr stopped

theorem finishProviderSettlement_moved : (certificate.finishProviderSettlement fingerprint).wp
      (fun application after => Moved fingerprint certificate transaction none none after ∧
        ∃ decision dispositions, transaction.phase = .decisionLocked decision ∧
          transaction.nextAction = transaction.actions.length ∧
          terminalDispositions transaction.resources = .ok dispositions ∧
          certificate.validateReceipt fingerprint transaction.invocation application.receipt =
            .ok () ∧
          application.receipt = certificate.receiptFor fingerprint transaction.invocation
            transaction.checkpoint decision transaction.actions dispositions)
      (fun _ after => Moved fingerprint certificate transaction none none after) transaction := by
  unfold NativeSettlementCertificate.finishProviderSettlement
  rw [wp_bind, sound.wp_authenticated, wp_bind]
  refine wp_lockedIdle (fun decision phase => ?_) fun _ _ moved => moved
  have stopped : Moved fingerprint certificate transaction none none
      { transaction with phase := .quarantined (some decision) } :=
    .stop (by simp [lockedDecision, phase])
  simp only [wp_bind, wp_quarantineIf, wp_checkOr, wp_set, wp_pure]
  refine ⟨fun _ => stopped, fun complete => ⟨fun _ _ => stopped, fun dispositions ended =>
    ⟨fun _ _ => stopped, fun _ valid => ?_⟩⟩⟩
  have all := not_not.mp (not_or.mp complete).1
  exact ⟨.finished decision dispositions phase all ended valid,
    decision, dispositions, phase, all, ended, valid, rfl⟩

theorem commitProviderReceipt_moved (candidate : NativeSettlementReceipt) :
    Quietly fingerprint certificate transaction
      (certificate.commitProviderReceipt fingerprint candidate) := by
  unfold Quietly NativeSettlementCertificate.commitProviderReceipt
  rw [wp_bind, sound.wp_authenticated]
  cases phase : transaction.phase with
  | receiptCommitted decision =>
    have stopped : Moved fingerprint certificate transaction none none
        { transaction with phase := .quarantined (some decision) } :=
      .stop (by simp [lockedDecision, phase])
    cases transaction.committedReceipt with
    | none => exact (wp_quarantine _ _).mpr stopped
    | some committed =>
      simp only [wp_bind, wp_quarantineIf, wp_pure]
      exact ⟨fun _ => stopped, fun _ => .kept⟩
  | providerSettled decision =>
    simp only [wp_bind, wp_quarantineIf, wp_set, wp_pure]
    refine ⟨fun _ => .stop (by simp [lockedDecision, phase]), fun exact' => ?_⟩
    exact .committed decision candidate phase (not_not.mp (not_or.mp exact').1)
  | quarantined decision => exact .kept
  | executing | decisionLocked decision | actionInProgress decision index owner =>
    exact (wp_quarantine _ _).mpr (.stop (by simp [phase]))

theorem replays_moved (decision : SettlementDecision) :
    Quietly fingerprint certificate transaction
        (certificate.replayProviderCandidate fingerprint decision) ∧
      Quietly fingerprint certificate transaction
        (certificate.replayCommittedReceipt fingerprint decision) := by
  unfold Quietly NativeSettlementCertificate.replayProviderCandidate
    NativeSettlementCertificate.replayCommittedReceipt
  rw [wp_bind, wp_bind, sound.wp_authenticated, sound.wp_authenticated]
  constructor
  all_goals
    cases phase : transaction.phase with
    | quarantined decision => exact .kept
    | _ =>
      simp only [wp_bind, wp_check]
      refine ⟨fun _ _ => .kept, fun _ _ => ?_⟩
      first
        | exact .kept
        | exact replay_moved (by rw [lockedDecision, phase]) (by simp [phase])

theorem perform_moved (call : TransactionCall) : (certificate.perform fingerprint call).wp
      (fun answer after => Moved fingerprint certificate transaction
        (TransactionEvent.advanced ⟨call, .ok answer⟩) (TransactionEvent.begun ⟨call, .ok answer⟩)
        after)
      (fun _ after => Moved fingerprint certificate transaction none none after) transaction := by
  cases call <;> (unfold NativeSettlementCertificate.perform; rw [wp_bind])
  case advanceTransaction action => exact advanceTransaction_moved sound action
  case lockTransactionDecision decision => exact lockTransactionDecision_moved sound decision
  case observeTransactionUnwind => exact observeTransactionUnwind_moved sound
  case beginNextFinalizer => exact beginNextFinalizer_moved sound
  case completeFinalizer ticket => exact completeFinalizer_moved sound ticket
  case markFinalizerUncertain => exact markFinalizerUncertain_moved sound
  case publishOwnedCandidate => exact publishOwnedCandidate_moved sound
  case finishProviderSettlement =>
    exact wp_mono (finishProviderSettlement_moved sound) (fun _ _ moved => moved.1)
      fun _ _ moved => moved
  case commitProviderReceipt candidate => exact commitProviderReceipt_moved sound candidate
  case replayProviderCandidate decision => exact (replays_moved sound decision).1
  case replayCommittedReceipt decision => exact (replays_moved sound decision).2

end Acting

end Operations

end Phases

end Semaprax.NativeSettlement
