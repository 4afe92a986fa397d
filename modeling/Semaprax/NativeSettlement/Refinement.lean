/-
**The phased settlement refines the atomic one** (`native_settlement.rs`).

* `Sound.moved` — every operation keeps the owners those of the actions performed so far.
* `Followed` — a frame that was advanced by the same actions is at the checkpoint of the transaction.
* `settle_of_finish` — it is settled with the receipt that the transaction has come to.
* `transaction_refines` — so much holds at every point of every run of a start transaction.
-/

import Semaprax.NativeSettlement.Phases

namespace Semaprax.NativeSettlement

open Library NativeSettlementTransaction

section Steps

variable {fingerprint : NativeSettlementCertificate → Digest}
variable {certificate : NativeSettlementCertificate}
variable {before after : NativeSettlementTransaction}

variable {resources : List SettlementResourceState} {action : Option SettlementProgressAction}
variable {owner : Option Nat} {decision : SettlementDecision}

theorem applyActions_append (resources : List SettlementResourceState)
    (first second : List SettlementAction) : applyActions resources (first ++ second) =
      applyActions resources first >>= fun between => applyActions between second := by
  induction first generalizing resources with
  | nil => rfl
  | cons action first ih =>
    rw [List.cons_append, applyActions, applyActions, bind_assoc]
    congr 1
    funext next
    exact ih next

theorem applyActions_next {base changed : List SettlementResourceState}
    {actions : List SettlementAction} {next : Nat} {action : SettlementAction}
    (applied : applyActions resources (actions.take next) = .ok base)
    (pending : actions[next]? = some action) (performed : applyAction base action = .ok changed) :
    applyActions resources (actions.take (next + 1)) = .ok changed := by
  have split : actions.take (next + 1) = actions.take next ++ [action] := by
    rw [List.take_add_one, pending]
    rfl
  rw [split, applyActions_append, applied]
  exact bind_eq_ok.mpr ⟨base, rfl, bind_eq_ok.mpr ⟨changed, performed, rfl⟩⟩

theorem applyAction_finalize {owner : Nat}
    (alive : resources[owner]? = some .live ∨ resources[owner]? = some .provisionalResult) :
    applyAction resources (.finalize owner) = .ok (resources.set owner .dead) := by
  rw [applyAction]
  rcases alive with live | provisional
  · rw [live]
  · rw [provisional]

theorem applyAction_publish {owner : Nat}
    (provisional : resources[owner]? = some .provisionalResult) :
    applyAction resources (.publish owner) = .ok (resources.set owner .published) := by
  rw [applyAction, provisional]

theorem InPhase.executing_fresh (inPhase : InPhase fingerprint certificate before)
    (phase : before.phase = .executing) :
    (∃ checkpoint, certificate.checkpoint before.checkpoint = .ok checkpoint ∧
      before.resources = checkpoint.resources) ∧ before.actions = [] ∧ before.nextAction = 0 ∧
      before.candidateReceipt = none ∧ before.committedReceipt = none := by
  cases inPhase with
  | executing _ here actions next candidate committed =>
    exact ⟨here, actions, next, candidate, committed⟩
  | _ => simp_all

theorem InPhase.locked_performed (inPhase : InPhase fingerprint certificate before)
    (phase : before.phase = .decisionLocked decision) :
    Performed certificate before decision before.resources := by
  cases inPhase with
  | decisionLocked other here performed =>
    rw [phase] at here
    injection here with same
    exact same ▸ performed
  | _ => simp_all

theorem Performed.inside {action : SettlementAction}
    (_ : Performed certificate before decision resources)
    (pending : before.actions[before.nextAction]? = some action) :
    before.nextAction + 1 ≤ before.actions.length :=
  (List.getElem?_eq_some_iff.mp pending).1

theorem InPhase.moved (inPhase : InPhase fingerprint certificate before)
    (moved : Moved fingerprint certificate before action owner after) :
    InPhase fingerprint certificate after := by
  cases moved with
  | kept => exact inPhase
  | quarantined active => exact .quarantined _ rfl
  | advanced action edge destination phase edges found =>
    obtain ⟨-, actions, next, candidate, committed⟩ := inPhase.executing_fresh phase
    exact .executing phase ⟨destination, found, rfl⟩ actions next candidate committed
  | locked decision actions checkpoint phase here chosen =>
    obtain ⟨⟨other, found, same⟩, -, -, candidate, committed⟩ := inPhase.executing_fresh phase
    obtain rfl := Except.ok.inj (here.symm.trans found)
    exact .decisionLocked decision rfl
      ⟨⟨checkpoint, here, chosen, congrArg Except.ok same.symm⟩, Nat.zero_le _, candidate,
        committed⟩
  | begun decision owner phase pending alive =>
    have performed := inPhase.locked_performed phase
    exact .actionInProgress decision owner before.resources rfl
      ⟨performed.chosen, performed.bound, performed.candidate, performed.committed⟩ pending alive
      rfl
  | completed decision owner phase =>
    cases inPhase with
    | actionInProgress other holder base here performed pending alive resources =>
      rw [phase] at here
      injection here with sameDecision sameNext sameOwner
      subst sameDecision sameOwner
      obtain ⟨checkpoint, found, chosen, applied⟩ := performed.chosen
      have next := applyActions_next applied pending (applyAction_finalize alive)
      refine .decisionLocked decision rfl ⟨⟨checkpoint, found, chosen, next.trans ?_⟩,
        performed.inside pending, performed.candidate, performed.committed⟩
      show _ = Except.ok (before.resources.set owner .dead)
      rw [resources, List.set_set]
    | _ => simp_all
  | published decision owner phase pending provisional =>
    have performed := inPhase.locked_performed phase
    obtain ⟨checkpoint, found, chosen, applied⟩ := performed.chosen
    have next := applyActions_next applied pending (applyAction_publish provisional)
    exact .decisionLocked decision phase ⟨⟨checkpoint, found, chosen, next⟩,
      performed.inside pending, performed.candidate, performed.committed⟩
  | finished decision dispositions phase all ended valid =>
    have performed := inPhase.locked_performed phase
    obtain ⟨checkpoint, found, chosen, applied⟩ := performed.chosen
    rw [all, List.take_length] at applied
    exact .providerSettled decision _ rfl
      ⟨⟨checkpoint, found, chosen, applied⟩, all, rfl, rfl, valid⟩ performed.committed
  | committed decision candidate phase exact' =>
    cases inPhase with
    | providerSettled other receipt here completed committed =>
      rw [phase] at here
      injection here with same
      subst same
      obtain rfl := Option.some.inj (exact'.symm.trans completed.candidate)
      exact .receiptCommitted decision candidate rfl
        ⟨completed.chosen, completed.all, completed.candidate, completed.decision,
          completed.valid⟩ rfl
    | _ => simp_all

theorem Sound.moved (sound : Sound fingerprint certificate before)
    (moved : Moved fingerprint certificate before action owner after) :
    Sound fingerprint certificate after := by
  have inPhase := sound.inPhase.moved moved
  obtain ⟨function, contract, bound, length, -⟩ := sound
  cases moved with
  | advanced action edge destination phase edges found =>
    exact ⟨function, contract, bound, NativeSettlementCertificate.checkpoint_length found, inPhase⟩
  | begun decision owner phase pending alive | completed decision owner phase
  | published decision owner phase pending provisional =>
    exact ⟨function, contract, bound, List.length_set.trans length, inPhase⟩
  | _ => exact ⟨function, contract, bound, length, inPhase⟩

theorem Moved.locked_kept (moved : Moved fingerprint certificate before action owner after)
    (locked : before.lockedDecision = some decision) :
    after.lockedDecision = some decision := by
  cases moved with
  | kept | quarantined active | advanced action edge destination phase edges found => exact locked
  | locked other actions checkpoint phase here chosen =>
    rw [lockedDecision, phase] at locked
    cases locked
  | begun other owner phase pending alive => rwa [lockedDecision, phase] at locked
  | completed other owner phase => rwa [lockedDecision, phase] at locked
  | published other owner phase pending provisional => exact locked
  | finished other dispositions phase all ended valid => rwa [lockedDecision, phase] at locked
  | committed other candidate phase exact' => rwa [lockedDecision, phase] at locked

theorem Moved.quarantine_kept (moved : Moved fingerprint certificate before action owner after)
    {decision : Option SettlementDecision} (phase : before.phase = .quarantined decision) :
    after = before := by
  cases moved with
  | kept => rfl
  | quarantined active => exact absurd phase (active decision)
  | _ => simp_all

/-- The owners whose finalizers were begun: each once, and none of them can be begun again. -/
structure Begun (transaction : NativeSettlementTransaction) (owners : List Nat) : Prop where
  distinct : owners.Nodup
  fresh : transaction.phase = .executing → owners = []
  taken : ∀ owner ∈ owners, ¬(transaction.resources[owner]? = some .live ∨
    transaction.resources[owner]? = some .provisionalResult)

theorem taken_set {owner holder : Nat} {state : SettlementResourceState}
    (taken : ¬(resources[owner]? = some .live ∨ resources[owner]? = some .provisionalResult))
    (ended : state ≠ .live ∧ state ≠ .provisionalResult) :
    ¬((resources.set holder state)[owner]? = some .live ∨
      (resources.set holder state)[owner]? = some .provisionalResult) := by
  rw [List.getElem?_set]
  by_cases same : holder = owner
  · rw [if_pos same]
    split_ifs with inside
    · rintro (live | provisional)
      · exact ended.1 (Option.some.inj live)
      · exact ended.2 (Option.some.inj provisional)
    · rintro (live | provisional)
      · exact nomatch live
      · exact nomatch provisional
  · rwa [if_neg same]

theorem Begun.moved {owners : List Nat} (begun : Begun before owners)
    (moved : Moved fingerprint certificate before action owner after) :
    Begun after (owners ++ owner.toList) := by
  cases moved with
  | kept => simpa using begun
  | quarantined active =>
    rw [Option.toList_none, List.append_nil]
    exact ⟨begun.distinct, (nomatch ·), begun.taken⟩
  | advanced action edge destination phase edges found =>
    rw [begun.fresh phase]
    exact ⟨List.nodup_nil, fun _ => rfl, fun _ member => nomatch member⟩
  | locked decision actions checkpoint phase here chosen =>
    rw [begun.fresh phase]
    exact ⟨List.nodup_nil, fun _ => rfl, fun _ member => nomatch member⟩
  | begun decision holder phase pending alive =>
    have new : holder ∉ owners := fun member => begun.taken holder member alive
    refine ⟨?_, (nomatch ·), fun other member => ?_⟩
    · rw [Option.toList_some, List.nodup_append]
      refine ⟨begun.distinct, List.nodup_singleton holder, fun left member right single => ?_⟩
      rw [List.mem_singleton.mp single]
      exact fun same => new (same ▸ member)
    · rcases List.mem_append.mp member with member | member
      · exact taken_set (begun.taken other member) ⟨by decide, by decide⟩
      · obtain rfl := List.mem_singleton.mp member
        show ¬((before.resources.set other .finalizing)[other]? = some .live ∨
          (before.resources.set other .finalizing)[other]? = some .provisionalResult)
        rw [List.getElem?_set, if_pos rfl]
        split_ifs <;> simp
  | completed decision holder phase =>
    rw [Option.toList_none, List.append_nil]
    exact ⟨begun.distinct, (nomatch ·),
      fun other member => taken_set (begun.taken other member) ⟨by decide, by decide⟩⟩
  | published decision holder phase pending provisional =>
    rw [Option.toList_none, List.append_nil]
    exact ⟨begun.distinct, fun open' => (nomatch phase.symm.trans open'),
      fun other member => taken_set (begun.taken other member) ⟨by decide, by decide⟩⟩
  | finished decision dispositions phase all ended valid
  | committed decision candidate phase exact' =>
    rw [Option.toList_none, List.append_nil]
    exact ⟨begun.distinct, (nomatch ·), begun.taken⟩

end Steps

section Frames

variable (fingerprint : NativeSettlementCertificate → Digest)
variable (certificate : NativeSettlementCertificate)

def NativeSettlementCertificate.frameAt (invocation : ℕ+) (checkpoint : Nat)
    (resources : List SettlementResourceState) : NativeSettlementFrame where
  function := certificate.function
  recoveryContract := certificate.recoveryContract
  certificateFingerprint := fingerprint certificate
  invocation := invocation
  checkpoint := checkpoint
  resources := resources
  terminal := none

def NativeSettlementCertificate.advanceAll :
    List SettlementProgressAction → Prog NativeSettlementFrame SettlementError Unit
  | [] => pure ()
  | action :: actions => do
      certificate.advanceFrame fingerprint action
      NativeSettlementCertificate.advanceAll actions

def Followed (start : NativeSettlementFrame) (transaction : NativeSettlementTransaction)
    (actions : List SettlementProgressAction) : Prop :=
  ∃ checkpoint, certificate.checkpoint transaction.checkpoint = .ok checkpoint ∧
    certificate.advanceAll fingerprint actions start = (.ok (),
      certificate.frameAt fingerprint transaction.invocation transaction.checkpoint
        checkpoint.resources)

variable {fingerprint certificate}

variable {S X A : Type} {actions : List SettlementProgressAction}
variable {action : SettlementProgressAction} {number : Nat} {checkpoint : SettlementCheckpointSpec}

theorem run_of_wp {program : Prog S X A} {state : S} {value : A} {after : S}
    (meets : program.wp (fun result final => result = value ∧ final = after) (fun _ _ => False)
      state) : program state = (.ok value, after) := by
  rcases wp_run meets with ⟨result, final, ran, rfl, rfl⟩ | ⟨_, _, _, impossible⟩
  · exact ran
  · exact impossible.elim

theorem wp_of_run {program : Prog S X A} {state : S} {value : A} {after : S}
    (ran : program state = (.ok value, after)) {ends : A → S → Prop} {stops : X → S → Prop}
    (meets : ends value after) : program.wp ends stops state := by
  unfold Prog.wp
  rw [ran]
  exact meets

theorem advanceAll_append {start between after : NativeSettlementFrame}
    (first : certificate.advanceAll fingerprint actions start = (.ok (), between))
    (last : certificate.advanceFrame fingerprint action between = (.ok (), after)) :
    certificate.advanceAll fingerprint (actions ++ [action]) start = (.ok (), after) := by
  refine run_of_wp ?_
  have meets : (certificate.advanceAll fingerprint actions).wp (fun _ final => final = between)
      (fun _ _ => False) start := wp_of_run first rfl
  clear first
  induction actions generalizing start with
  | nil =>
    obtain rfl : start = between := meets
    show (certificate.advanceFrame fingerprint action >>= fun _ => pure ()).wp _ _ start
    rw [wp_bind]
    exact wp_of_run last ((wp_pure ()).mpr ⟨rfl, rfl⟩)
  | cons head actions ih =>
    unfold NativeSettlementCertificate.advanceAll at meets
    rw [wp_bind] at meets
    show (certificate.advanceFrame fingerprint head >>= fun _ =>
      certificate.advanceAll fingerprint (actions ++ [action])).wp _ _ start
    rw [wp_bind]
    exact wp_mono meets (fun _ _ rest => ih rest) fun _ _ impossible => impossible

theorem wp_check_ok {result : Except SettlementError A} {value : A} {state : S}
    (same : result = .ok value) {ends : A → S → Prop} {stops : SettlementError → S → Prop} :
    (NativeSettlementCertificate.check result).wp ends stops state ↔ ends value state := by
  rw [same]
  exact wp_pure value

theorem frameAt_authenticates {invocation : ℕ+}
    (here : certificate.checkpoint number = .ok checkpoint) :
    certificate.authenticateFrame fingerprint
      (certificate.frameAt fingerprint invocation number checkpoint.resources) = .ok () := by
  have length := NativeSettlementCertificate.checkpoint_length here
  unfold NativeSettlementCertificate.authenticateFrame
  refine bind_eq_ok.mpr ⟨(), ?_, refuseIf_eq_ok.mpr (not_not.mpr length)⟩
  simp [NativeSettlementCertificate.frameAt]

theorem advanceFrame_frameAt {invocation : ℕ+} {destination : SettlementCheckpointSpec}
    {edge : SettlementProgressEdge} (here : certificate.checkpoint number = .ok checkpoint)
    (edges : certificate.edgesBy number action = [edge])
    (found : certificate.checkpoint edge.target = .ok destination) :
    certificate.advanceFrame fingerprint action
        (certificate.frameAt fingerprint invocation number checkpoint.resources) =
      (.ok (), certificate.frameAt fingerprint invocation edge.target destination.resources) := by
  have passed : certificate.authenticateFrame fingerprint
      (certificate.frameAt fingerprint invocation number checkpoint.resources) = .ok () :=
    frameAt_authenticates here
  refine run_of_wp ?_
  unfold NativeSettlementCertificate.advanceFrame
  rw [wp_bind, wp_get, wp_bind, wp_check_ok passed, wp_bind, wp_stopIf]
  refine ⟨nofun, fun _ => ?_⟩
  have edges' : certificate.edgesBy
      (certificate.frameAt fingerprint invocation number checkpoint.resources).checkpoint action =
        [edge] := edges
  rw [edges']
  show (NativeSettlementCertificate.check (certificate.checkpoint edge.target) >>= _).wp _ _ _
  rw [wp_bind, wp_check_ok found, wp_set]
  exact ⟨rfl, rfl⟩

theorem settle_frameAt {invocation : ℕ+}
    {decision : SettlementDecision} {actions : List SettlementAction}
    {resources : List SettlementResourceState} {dispositions : List SettlementDisposition}
    (here : certificate.checkpoint number = .ok checkpoint)
    (chosen : actionsFor checkpoint decision = .ok actions)
    (applied : applyActions checkpoint.resources actions = .ok resources)
    (ended : terminalDispositions resources = .ok dispositions)
    (valid : certificate.validateReceipt fingerprint invocation
      (certificate.receiptFor fingerprint invocation number decision actions dispositions) =
        .ok ()) :
    (certificate.settle fingerprint decision
      (certificate.frameAt fingerprint invocation number checkpoint.resources)).1 =
        .ok ⟨certificate.receiptFor fingerprint invocation number decision actions dispositions,
          actions⟩ := by
  have passed : certificate.authenticateFrame fingerprint
      (certificate.frameAt fingerprint invocation number checkpoint.resources) = .ok () :=
    frameAt_authenticates here
  have decided : validateDecision decision = .ok () := by
    unfold NativeSettlementCertificate.validateReceipt at valid
    obtain ⟨_, -, valid⟩ := bind_eq_ok.mp valid
    obtain ⟨_, -, valid⟩ := bind_eq_ok.mp valid
    obtain ⟨_, decided, -⟩ := bind_eq_ok.mp valid
    exact decided
  have meets : (certificate.settle fingerprint decision).wp
      (fun application _ => application = ⟨certificate.receiptFor fingerprint invocation number
        decision actions dispositions, actions⟩) (fun _ _ => False)
      (certificate.frameAt fingerprint invocation number checkpoint.resources) := by
    unfold NativeSettlementCertificate.settle
    rw [wp_bind, wp_get, wp_bind, wp_check_ok decided, wp_bind, wp_check_ok passed]
    show (NativeSettlementCertificate.check (certificate.checkpoint number) >>= _).wp _ _ _
    rw [wp_bind, wp_check_ok here, wp_bind, wp_stopIf]
    refine ⟨fun differ => differ rfl, fun _ => ?_⟩
    rw [wp_bind, wp_check_ok chosen]
    refine (wp_bind _ _).mpr ((wp_check_ok applied).mpr ?_)
    refine (wp_bind _ _).mpr ((wp_check_ok ended).mpr ?_)
    refine (wp_bind _ _).mpr ((wp_check_ok valid).mpr ?_)
    rw [wp_bind, wp_set, wp_pure]
    rfl
  rcases wp_run meets with ⟨application, after, ran, rfl⟩ | ⟨_, _, _, impossible⟩
  · rw [ran]
  · exact impossible.elim

theorem frameAt_start {invocation : ℕ+} {transaction : NativeSettlementTransaction}
    (prepared : certificate.prepareStartTransaction fingerprint invocation = .ok transaction) :
    ∃ checkpoint, certificate.checkpoint 1 = .ok checkpoint ∧
      certificate.prepareStartFrame fingerprint invocation =
        .ok (certificate.frameAt fingerprint invocation 1 checkpoint.resources) ∧
      transaction =
        { function := certificate.function
          recoveryContract := certificate.recoveryContract
          certificateFingerprint := fingerprint certificate
          invocation := invocation
          checkpoint := 1
          resources := checkpoint.resources
          phase := .executing
          actions := []
          nextAction := 0
          candidateReceipt := none
          committedReceipt := none } := by
  unfold NativeSettlementCertificate.prepareStartTransaction at prepared
  obtain ⟨frame, framed, prepared⟩ := bind_eq_ok.mp prepared
  have whole := framed
  unfold NativeSettlementCertificate.prepareStartFrame at framed
  obtain ⟨_, -, framed⟩ := bind_eq_ok.mp framed
  obtain ⟨checkpoint, found, framed⟩ := bind_eq_ok.mp framed
  obtain rfl := Except.ok.inj framed
  exact ⟨checkpoint, found, whole, (Except.ok.inj prepared).symm⟩

variable {before after : NativeSettlementTransaction}

theorem Followed.moved {start : NativeSettlementFrame}
    {action : Option SettlementProgressAction} {owner : Option Nat}
    (followed : Followed fingerprint certificate start before actions)
    (moved : Moved fingerprint certificate before action owner after) :
    Followed fingerprint certificate start after (actions ++ action.toList) := by
  cases moved with
  | advanced action edge destination phase edges found =>
    obtain ⟨checkpoint, here, ran⟩ := followed
    exact ⟨destination, found, advanceAll_append ran (advanceFrame_frameAt here edges found)⟩
  | _ =>
    rw [Option.toList_none, List.append_nil]
    exact followed

end Frames

/-- What holds of a transaction at one point of a run: it is valid, its decision and its quarantine
are final, no owner was begun twice, and the receipt that it comes to is the one that settling the
frame advanced by the same actions gives. -/
structure Refines (fingerprint : NativeSettlementCertificate → Digest)
    (certificate : NativeSettlementCertificate) (invocation : ℕ+) (session : TransactionSession) :
    Prop where
  valid : certificate.validateTransactionState fingerprint session.transaction = .ok ()
  locked : ∀ (calls : List TransactionCall) decision, session.transaction.lockedDecision = some decision →
    (calls.foldl (TransactionSession.step fingerprint certificate) session).transaction.lockedDecision
      = some decision
  quarantined : ∀ (calls : List TransactionCall) decision, session.transaction.phase = .quarantined decision →
    (calls.foldl (TransactionSession.step fingerprint certificate) session).transaction.phase =
      .quarantined decision
  once : session.begun.Nodup
  receipt : ∀ application,
    (certificate.finishProviderSettlement fingerprint session.transaction).1 = .ok application →
    session.transaction.lockedDecision = some application.receipt.decision ∧
    ∃ start frame settled, certificate.prepareStartFrame fingerprint invocation = .ok start ∧
      certificate.advanceAll fingerprint session.advanced start = (.ok (), frame) ∧
      (certificate.settle fingerprint application.receipt.decision frame).1 = .ok settled ∧
      settled.receipt = application.receipt

section Runs

variable {fingerprint : NativeSettlementCertificate → Digest}
variable {certificate : NativeSettlementCertificate} {session : TransactionSession}
variable {invocation : ℕ+} {start : NativeSettlementFrame}

/-- What every run keeps. -/
structure Tracked (fingerprint : NativeSettlementCertificate → Digest)
    (certificate : NativeSettlementCertificate) (invocation : ℕ+) (start : NativeSettlementFrame)
    (session : TransactionSession) : Prop where
  sound : Sound fingerprint certificate session.transaction
  begun : Begun session.transaction session.begun
  followed : Followed fingerprint certificate start session.transaction session.advanced
  invocation : session.transaction.invocation = invocation

theorem TransactionSession.begun_append (transaction : NativeSettlementTransaction)
    (events : List TransactionEvent) (event : TransactionEvent) :
    TransactionSession.begun ⟨transaction, events ++ [event]⟩ =
      TransactionSession.begun ⟨transaction, events⟩ ++ event.begun.toList := by
  unfold TransactionSession.begun
  rw [List.filterMap_append]
  congr 1

theorem TransactionSession.advanced_append (transaction : NativeSettlementTransaction)
    (events : List TransactionEvent) (event : TransactionEvent) :
    TransactionSession.advanced ⟨transaction, events ++ [event]⟩ =
      TransactionSession.advanced ⟨transaction, events⟩ ++ event.advanced.toList := by
  unfold TransactionSession.advanced
  rw [List.filterMap_append]
  congr 1

theorem Moved.same_invocation {before after : NativeSettlementTransaction}
    {action : Option SettlementProgressAction} {owner : Option Nat}
    (moved : Moved fingerprint certificate before action owner after) :
    after.invocation = before.invocation := by
  cases moved <;> rfl

theorem TransactionSession.step_moved (sound : Sound fingerprint certificate session.transaction)
    (call : TransactionCall) : ∃ event,
      session.step fingerprint certificate call =
        ⟨(session.step fingerprint certificate call).transaction, session.events ++ [event]⟩ ∧
      Moved fingerprint certificate session.transaction event.advanced event.begun
        (session.step fingerprint certificate call).transaction := by
  refine ⟨⟨call, (certificate.perform fingerprint call session.transaction).1⟩, rfl, ?_⟩
  unfold TransactionSession.step
  rcases wp_run (perform_moved sound call) with
    ⟨answer, after, ran, moved⟩ | ⟨error, after, ran, moved⟩
  · rw [ran]
    exact moved
  · rw [ran]
    cases call <;> exact moved

theorem Tracked.step (tracked : Tracked fingerprint certificate invocation start session)
    (call : TransactionCall) : Tracked fingerprint certificate invocation start
      (session.step fingerprint certificate call) := by
  obtain ⟨event, stepped, moved⟩ := TransactionSession.step_moved tracked.sound call
  rw [stepped]
  refine ⟨tracked.sound.moved moved, ?_, ?_, moved.same_invocation.trans tracked.invocation⟩
  · rw [TransactionSession.begun_append]
    exact tracked.begun.moved moved
  · rw [TransactionSession.advanced_append]
    exact tracked.followed.moved moved

theorem start_tracked {transaction : NativeSettlementTransaction}
    (prepared : certificate.prepareStartTransaction fingerprint invocation = .ok transaction) :
    ∃ start, certificate.prepareStartFrame fingerprint invocation = .ok start ∧
      Tracked fingerprint certificate invocation start ⟨transaction, []⟩ := by
  obtain ⟨checkpoint, here, framed, rfl⟩ := frameAt_start prepared
  refine ⟨_, framed, ?_, ?_, ⟨checkpoint, here, rfl⟩, rfl⟩
  · exact ⟨rfl, rfl, rfl, NativeSettlementCertificate.checkpoint_length here,
      .executing rfl ⟨checkpoint, here, rfl⟩ rfl rfl rfl rfl⟩
  · exact ⟨List.nodup_nil, fun _ => rfl, fun _ member => nomatch member⟩

section Tracked

variable (tracked : Tracked fingerprint certificate invocation start session)

include tracked

theorem foldl_tracked
    (calls : List TransactionCall) : Tracked fingerprint certificate invocation start
      (calls.foldl (TransactionSession.step fingerprint certificate) session) := by
  induction calls generalizing session with
  | nil => exact tracked
  | cons call calls ih => exact ih (tracked.step call)

theorem settle_of_finish {application : SettlementApplication}
    (finished : (certificate.finishProviderSettlement fingerprint session.transaction).1 =
      .ok application) :
    session.transaction.lockedDecision = some application.receipt.decision ∧
    ∃ frame settled, certificate.advanceAll fingerprint session.advanced start = (.ok (), frame) ∧
      (certificate.settle fingerprint application.receipt.decision frame).1 = .ok settled ∧
      settled.receipt = application.receipt := by
  rcases wp_run (finishProviderSettlement_moved tracked.sound) with
    ⟨other, after, ran, -, decision, dispositions, phase, all, ended, valid, made⟩ |
      ⟨error, after, ran, -⟩
  · rw [ran] at finished
    obtain rfl := Except.ok.inj finished
    rw [made] at valid
    obtain ⟨checkpoint, here, chosen, applied⟩ :=
      (tracked.sound.inPhase.locked_performed phase).chosen
    rw [all, List.take_length] at applied
    obtain ⟨other', found, followed⟩ := tracked.followed
    obtain rfl := Except.ok.inj (here.symm.trans found)
    rw [made]
    exact ⟨by rw [lockedDecision, phase]; rfl, _, _, followed,
      settle_frameAt here chosen applied ended valid, rfl⟩
  · rw [ran] at finished
    cases finished

theorem foldl_locked (calls : List TransactionCall) {decision : SettlementDecision}
    (locked : session.transaction.lockedDecision = some decision) :
    (calls.foldl (TransactionSession.step fingerprint certificate)
      session).transaction.lockedDecision = some decision := by
  induction calls generalizing session with
  | nil => exact locked
  | cons call calls ih =>
    obtain ⟨event, -, moved⟩ := TransactionSession.step_moved tracked.sound call
    exact ih (tracked.step call) (moved.locked_kept locked)

theorem foldl_quarantined (calls : List TransactionCall) {decision : Option SettlementDecision}
    (phase : session.transaction.phase = .quarantined decision) :
    (calls.foldl (TransactionSession.step fingerprint certificate) session).transaction.phase =
      .quarantined decision := by
  induction calls generalizing session with
  | nil => exact phase
  | cons call calls ih =>
    obtain ⟨event, -, moved⟩ := TransactionSession.step_moved tracked.sound call
    exact ih (tracked.step call) (by rw [moved.quarantine_kept phase, phase])

end Tracked

/-- In every run of a start transaction the phased settlement refines the atomic one. -/
theorem transaction_refines {transaction : NativeSettlementTransaction}
    (prepared : certificate.prepareStartTransaction fingerprint invocation = .ok transaction)
    (calls : List TransactionCall) : Refines fingerprint certificate invocation
      (TransactionSession.run fingerprint certificate transaction calls) := by
  obtain ⟨start, framed, tracked⟩ := start_tracked prepared
  have tracked := foldl_tracked tracked calls
  exact
    { valid := tracked.sound.inPhase.validates
      locked := fun more _ locked => foldl_locked tracked more locked
      quarantined := fun more _ phase => foldl_quarantined tracked more phase
      once := tracked.begun.distinct
      receipt := fun application finished => by
        obtain ⟨locked, frame, settled, advanced, same, receipt⟩ := settle_of_finish tracked finished
        exact ⟨locked, start, frame, settled, framed, advanced, same, receipt⟩ }

end Runs

/-- One owner that is live until an accepted scalar result. -/
def scalarCertificate : NativeSettlementCertificate where
  function := "function"
  recoveryContract := Vector.replicate 32 1
  resourceCount := 1
  checkpoints := [⟨1, [.live], none, [0], []⟩, ⟨2, [.live], some .scalarSuccess, [0], [0]⟩]
  startCheckpoints := [1]
  progressEdges := [⟨1, 2, .certifyOutcome (Vector.replicate 32 1)⟩]
  certified := by decide +kernel

/-- A hash that does not tell certificates apart. -/
def sampleFingerprint : NativeSettlementCertificate → Digest := fun _ => Vector.replicate 32 0

/-- Its outcome is certified, accepted and settled. -/
def scalarCalls : List TransactionCall :=
  [.advanceTransaction (.certifyOutcome (Vector.replicate 32 1)),
    .lockTransactionDecision (.accept .scalarSuccess), .beginNextFinalizer,
    .completeFinalizer ⟨Vector.replicate 32 0, 1, 2, .accept .scalarSuccess, 0, 0⟩]

def scalarTransaction : NativeSettlementTransaction where
  function := "function"
  recoveryContract := Vector.replicate 32 1
  certificateFingerprint := Vector.replicate 32 0
  invocation := 1
  checkpoint := 1
  resources := [.live]
  phase := .executing
  actions := []
  nextAction := 0
  candidateReceipt := none
  committedReceipt := none

/-- A transaction that comes to a receipt. -/
theorem transaction_refines_scalar : Refines sampleFingerprint scalarCertificate 1
      (TransactionSession.run sampleFingerprint scalarCertificate scalarTransaction scalarCalls) ∧
    (scalarCertificate.finishProviderSettlement sampleFingerprint
      (TransactionSession.run sampleFingerprint scalarCertificate scalarTransaction
        scalarCalls).transaction).1.isOk = true :=
  ⟨transaction_refines rfl scalarCalls, by decide +kernel⟩

end Semaprax.NativeSettlement
