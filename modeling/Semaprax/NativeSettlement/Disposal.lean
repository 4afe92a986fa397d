/-
**Owners of a settled frame** (`native_settlement.rs`).

Every run of a frame keeps a tally: what was finalized is dead, what was published is published.

* `advanceFrame_spec`, `settle_spec` — what a call on a frame does; a call that fails does nothing.
* `run_kept` — what every run keeps.
* `disposes_iff` — a certificate disposes of every owner exactly once in every run, exactly when it
  has several checkpoints or its only one has every owner live.
* `emptyCertificate_undisposed` — a certificate of one checkpoint at which the owner is dead.
-/

import Semaprax.NativeSettlement.Progress

namespace Semaprax.NativeSettlement

open Library

section Calls

variable {fingerprint : NativeSettlementCertificate → Digest}
variable {certificate : NativeSettlementCertificate} {frame : NativeSettlementFrame}

variable {action : SettlementProgressAction}

@[simp]
theorem wp_check {S A : Type} (result : Except SettlementError A) {ends : A → S → Prop}
    {stops : SettlementError → S → Prop} {state : S} :
    (NativeSettlementCertificate.check result).wp ends stops state ↔
      (∀ error, result = .error error → stops error state) ∧
        ∀ value, result = .ok value → ends value state := by
  cases result <;> simp [NativeSettlementCertificate.check]

theorem authenticateFrame_length
    (passed : certificate.authenticateFrame fingerprint frame = .ok ()) :
    frame.resources.length = certificate.resourceCount := by
  unfold NativeSettlementCertificate.authenticateFrame at passed
  obtain ⟨_, -, passed⟩ := bind_eq_ok.mp passed
  exact not_not.mp (refuseIf_eq_ok.mp passed)

theorem mem_edgesBy {checkpoint : Nat}
    {edge : SettlementProgressEdge} : edge ∈ certificate.edgesBy checkpoint action ↔
      edge ∈ certificate.progressEdges ∧ edge.source = checkpoint ∧ edge.action = action := by
  unfold NativeSettlementCertificate.edgesBy
  rw [List.mem_filter, decide_eq_true_eq]

def Advanced (certificate : NativeSettlementCertificate) (action : SettlementProgressAction)
    (before after : NativeSettlementFrame) : Prop :=
  ∃ edge destination, edge ∈ certificate.progressEdges ∧ edge.source = before.checkpoint ∧
    edge.action = action ∧ before.terminal = none ∧
    certificate.checkpoint edge.target = .ok destination ∧
    after = { before with
      checkpoint := edge.target
      resources := destination.resources }

theorem advanceFrame_spec (action : SettlementProgressAction) :
    (certificate.advanceFrame fingerprint action).wp (fun _ after => Advanced certificate action frame after)
      (fun _ after => after = frame) frame := by
  unfold NativeSettlementCertificate.advanceFrame
  simp only [wp_bind, wp_get, wp_check, wp_stopIf]
  refine ⟨fun _ _ => trivial, fun _ _ => ⟨fun _ => trivial, fun idle => ?_⟩⟩
  have open' := Option.not_isSome_iff_eq_none.mp idle
  split
  · exact rfl
  · rename_i edge chosen
    simp only [wp_bind, wp_check, wp_set]
    refine ⟨fun _ _ => trivial, fun destination found => ?_⟩
    have member : edge ∈ certificate.edgesBy frame.checkpoint action :=
      chosen ▸ List.mem_singleton_self edge
    obtain ⟨listed, source, same⟩ := mem_edgesBy.mp member
    exact ⟨edge, destination, listed, source, same, open', found, rfl⟩
  · exact rfl

structure Settled (fingerprint : NativeSettlementCertificate → Digest)
    (certificate : NativeSettlementCertificate) (decision : SettlementDecision)
    (before after : NativeSettlementFrame) (application : SettlementApplication) : Prop where
  idle : before.terminal = none
  length : before.resources.length = certificate.resourceCount
  chosen : ∃ checkpoint, certificate.checkpoint before.checkpoint = .ok checkpoint ∧
    before.resources = checkpoint.resources ∧
    actionsFor checkpoint decision = .ok application.performedActions
  applied : applyActions before.resources application.performedActions = .ok after.resources
  disposed : ∀ state ∈ after.resources, state = .dead ∨ state = .published
  terminal : after.terminal = some ⟨decision, application.receipt⟩

theorem settle_spec (decision : SettlementDecision) : (certificate.settle fingerprint decision).wp
      (fun application after =>
        (∃ terminal, frame.terminal = some terminal ∧ terminal.decision = decision ∧
          application = ⟨terminal.receipt, []⟩ ∧ after = frame) ∨
        Settled fingerprint certificate decision frame after application)
      (fun _ after => after = frame) frame := by
  unfold NativeSettlementCertificate.settle
  simp only [wp_bind, wp_get, wp_check]
  refine ⟨fun _ _ => trivial, fun _ _ => ⟨fun _ _ => trivial, fun _ passed => ?_⟩⟩
  cases ended : frame.terminal with
  | some terminal =>
    simp only [wp_bind, wp_stopIf, wp_check, wp_pure]
    refine ⟨fun _ => trivial, fun same => ⟨fun _ _ => trivial, fun _ _ => ⟨fun _ _ => trivial,
      fun _ _ => ⟨fun _ => trivial, fun _ => ?_⟩⟩⟩⟩
    exact .inl ⟨terminal, rfl, not_not.mp same, rfl, trivial⟩
  | none =>
    simp only [wp_bind, wp_stopIf, wp_check, wp_set, wp_pure]
    refine ⟨fun _ _ => trivial, fun checkpoint here => ⟨fun _ => trivial, fun same =>
      ⟨fun _ _ => trivial, fun actions chosen => ⟨fun _ _ => trivial, fun resources applied =>
        ⟨fun _ _ => trivial, fun dispositions ended => ⟨fun _ _ => trivial, fun _ _ => ?_⟩⟩⟩⟩⟩⟩
    exact .inr
      { idle := ‹_›
        length := authenticateFrame_length passed
        chosen := ⟨checkpoint, here, not_not.mp same, chosen⟩
        applied := applied
        disposed := terminalDispositions_ok ended
        terminal := rfl }

theorem tally_advanced {after : NativeSettlementFrame} {checkpoint : SettlementCheckpointSpec}
    (here : certificate.checkpoint frame.checkpoint = .ok checkpoint)
    (same : frame.resources = checkpoint.resources)
    (advanced : Advanced certificate action frame after) (other : Nat) :
    tally .dead after.resources other = tally .dead frame.resources other +
        (FrameEvent.advanced action (.ok ())).performed.count (.finalize other) ∧
      tally .published after.resources other = tally .published frame.resources other := by
  obtain ⟨edge, destination, member, source, rfl, -, found, rfl⟩ := advanced
  have moves : edge.action.Moves frame.resources destination.resources :=
    same ▸ validProgressTransition_moves
      (NativeSettlementCertificate.edge_moves member (source ▸ here) found)
  cases acts : edge.action with
  | finalize owner =>
    rw [acts] at moves
    obtain ⟨changed, held | held⟩ := moves
    all_goals
      rw [changed, tally_set held (by decide), tally_set held (by decide)]
      by_cases here : other = owner
      · simp [FrameEvent.performed, here]
      · simp [FrameEvent.performed, here, Ne.symm here]
  | stageOwnedResult owner =>
    rw [acts] at moves
    obtain ⟨changed, live⟩ := moves
    rw [changed, tally_set live (by decide), tally_set live (by decide)]
    simp [FrameEvent.performed]
  | certifyOutcome traceEvidence =>
    rw [acts] at moves
    have unchanged : destination.resources = frame.resources := moves
    simp [FrameEvent.performed, unchanged]

end Calls

/-- The law of disposal for one session: when it has settled, every owner was finalized once or
published once, an owner was published exactly if it is the accepted result, and settling again
returns the same receipt without an action or fails; a call that fails changes nothing. -/
structure Disposed (fingerprint : NativeSettlementCertificate → Digest)
    (certificate : NativeSettlementCertificate) (session : FrameSession) : Prop where
  once : ∀ decision application, .settled decision (.ok application) ∈ session.events →
    ∀ ownerOrdinal < certificate.resourceCount,
      session.performed.count (.finalize ownerOrdinal) +
        session.performed.count (.publish ownerOrdinal) = 1
  published : ∀ decision application, .settled decision (.ok application) ∈ session.events →
    ∀ ownerOrdinal, .publish ownerOrdinal ∈ session.performed ↔
      decision = .accept (.ownedSuccess ownerOrdinal)
  unsettled : (∀ decision application, .settled decision (.ok application) ∉ session.events) →
    ∀ ownerOrdinal, .publish ownerOrdinal ∉ session.performed
  advanceFailed : ∀ action error,
    (certificate.advanceFrame fingerprint action session.frame).1 = .error error →
      (certificate.advanceFrame fingerprint action session.frame).2 = session.frame
  settleFailed : ∀ decision error,
    (certificate.settle fingerprint decision session.frame).1 = .error error →
      (certificate.settle fingerprint decision session.frame).2 = session.frame
  again : ∀ decision application, .settled decision (.ok application) ∈ session.events →
    ∀ later, (∃ error, (certificate.settle fingerprint later session.frame).1 = .error error) ∨
      (certificate.settle fingerprint later session.frame).1 = .ok ⟨application.receipt, []⟩

/-- What every run keeps: the tally, the owners of the checkpoint while it is open, and the one
settlement once it is not. -/
structure Kept (certificate : NativeSettlementCertificate) (session : FrameSession) : Prop where
  length : session.frame.resources.length = certificate.resourceCount
  finalized : ∀ ownerOrdinal, session.performed.count (.finalize ownerOrdinal) =
    tally .dead session.frame.resources ownerOrdinal
  published : ∀ ownerOrdinal, session.performed.count (.publish ownerOrdinal) =
    tally .published session.frame.resources ownerOrdinal
  here : session.frame.terminal = none →
    ∃ checkpoint, certificate.checkpoint session.frame.checkpoint = .ok checkpoint ∧
      session.frame.resources = checkpoint.resources
  unpublished : session.frame.terminal = none → ∀ ownerOrdinal,
    .publish ownerOrdinal ∉ session.performed
  unsettled : session.frame.terminal = none → ∀ decision application,
    .settled decision (.ok application) ∉ session.events
  disposed : ∀ terminal, session.frame.terminal = some terminal →
    ∀ state ∈ session.frame.resources, state = .dead ∨ state = .published
  accepted : ∀ terminal, session.frame.terminal = some terminal → ∀ ownerOrdinal,
    .publish ownerOrdinal ∈ session.performed ↔
      terminal.decision = .accept (.ownedSuccess ownerOrdinal)
  settled : ∀ terminal, session.frame.terminal = some terminal → ∀ decision application,
    .settled decision (.ok application) ∈ session.events →
      terminal = ⟨decision, application.receipt⟩

section Runs

variable (fingerprint : NativeSettlementCertificate → Digest)
variable {certificate : NativeSettlementCertificate} {session : FrameSession}

variable {decision : SettlementDecision} {application : SettlementApplication} {invocation : ℕ+}

theorem FrameSession.performed_append (frame : NativeSettlementFrame) (events : List FrameEvent)
    (event : FrameEvent) : FrameSession.performed ⟨frame, events ++ [event]⟩ =
      FrameSession.performed ⟨frame, events⟩ ++ event.performed := by
  unfold FrameSession.performed
  rw [List.flatMap_append, List.flatMap_singleton]

theorem Kept.quiet (kept : Kept certificate session) {event : FrameEvent}
    (performed : event.performed = [])
    (repeated : ∀ decision application, event = .settled decision (.ok application) →
      session.frame.terminal = some ⟨decision, application.receipt⟩) :
    Kept certificate ⟨session.frame, session.events ++ [event]⟩ := by
  obtain ⟨frame, events⟩ := session
  have same : FrameSession.performed ⟨frame, events ++ [event]⟩ =
      FrameSession.performed ⟨frame, events⟩ := by
    rw [FrameSession.performed_append, performed, List.append_nil]
  refine ⟨kept.length, ?_, ?_, kept.here, ?_, ?_, kept.disposed, ?_, ?_⟩
  · rw [same]
    exact kept.finalized
  · rw [same]
    exact kept.published
  · rw [same]
    exact kept.unpublished
  · intro idle decision application member
    rcases List.mem_append.mp member with member | member
    · exact kept.unsettled idle decision application member
    · have ended := repeated decision application (List.mem_singleton.mp member).symm
      exact nomatch idle.symm.trans ended
  · rw [same]
    exact kept.accepted
  · intro terminal ended decision application member
    rcases List.mem_append.mp member with member | member
    · exact kept.settled terminal ended decision application member
    · have again := repeated decision application (List.mem_singleton.mp member).symm
      exact Option.some.inj (ended.symm.trans again)

theorem Kept.advanced {action : SettlementProgressAction} {after : NativeSettlementFrame}
    (kept : Kept certificate session)
    (advanced : Advanced certificate action session.frame after) :
    Kept certificate ⟨after, session.events ++ [.advanced action (.ok ())]⟩ := by
  obtain ⟨frame, events⟩ := session
  obtain ⟨edge, destination, -, -, -, idle, found, rfl⟩ := id advanced
  obtain ⟨checkpoint, here, same⟩ := kept.here idle
  have tallied := tally_advanced here same advanced
  have publishes : ∀ owner, .publish owner ∉ (FrameEvent.advanced action (.ok ())).performed := by
    intro owner
    cases action <;> simp [FrameEvent.performed]
  refine ⟨NativeSettlementCertificate.checkpoint_length found, fun owner => ?_, fun owner => ?_,
    fun _ => ⟨destination, found, rfl⟩, fun _ owner => ?_, fun _ decision application member => ?_,
    fun terminal ended => ?_, fun terminal ended => ?_, fun terminal ended => ?_⟩
  · rw [FrameSession.performed_append, List.count_append, (tallied owner).1, ← kept.finalized owner]
    rfl
  · rw [FrameSession.performed_append, List.count_append, (tallied owner).2, ← kept.published owner,
      List.count_eq_zero_of_not_mem (publishes owner)]
    rfl
  · rw [FrameSession.performed_append, List.mem_append, not_or]
    exact ⟨kept.unpublished idle owner, publishes owner⟩
  · rcases List.mem_append.mp member with member | member
    · exact kept.unsettled idle decision application member
    · exact nomatch List.mem_singleton.mp member
  · exact nomatch idle.symm.trans ended
  · exact nomatch idle.symm.trans ended
  · exact nomatch idle.symm.trans ended

theorem Kept.settles {after : NativeSettlementFrame} (kept : Kept certificate session)
    (settled : Settled fingerprint certificate decision session.frame after application) :
    Kept certificate ⟨after, session.events ++ [.settled decision (.ok application)]⟩ := by
  obtain ⟨frame, events⟩ := session
  obtain ⟨checkpoint, -, -, chosen⟩ := settled.chosen
  have tallied := fun owner => tally_applyActions owner settled.applied
  have terminal_eq : ∀ terminal, after.terminal = some terminal →
      terminal = ⟨decision, application.receipt⟩ := fun terminal ended =>
    Option.some.inj (ended.symm.trans settled.terminal)
  have open' : after.terminal ≠ none := by
    rw [settled.terminal]
    exact Option.some_ne_none _
  refine ⟨(length_applyActions settled.applied).trans settled.length, fun owner => ?_,
    fun owner => ?_, fun idle => absurd idle open', fun idle => absurd idle open',
    fun idle => absurd idle open', fun terminal ended => settled.disposed,
    fun terminal ended owner => ?_, fun terminal ended other again member => ?_⟩
  · rw [FrameSession.performed_append, List.count_append, (tallied owner).1, ← kept.finalized owner]
    rfl
  · rw [FrameSession.performed_append, List.count_append, (tallied owner).2, ← kept.published owner]
    rfl
  · rw [FrameSession.performed_append, List.mem_append, terminal_eq terminal ended]
    have before : .publish owner ∉ FrameSession.performed ⟨after, events⟩ :=
      kept.unpublished settled.idle owner
    rw [or_iff_right before]
    exact publish_mem_actionsFor chosen
  · rw [terminal_eq terminal ended]
    rcases List.mem_append.mp member with member | member
    · exact absurd member (kept.unsettled settled.idle other again)
    · have same := List.mem_singleton.mp member
      injection same with same result
      rw [same, Except.ok.inj result]

theorem Kept.step (kept : Kept certificate session) (call : FrameCall) :
    Kept certificate (session.step fingerprint certificate call) := by
  cases call with
  | advanceFrame action =>
    have meets : (certificate.advanceFrame fingerprint action).wp
        (fun _ after => Advanced certificate action session.frame after)
        (fun _ after => after = session.frame) session.frame := advanceFrame_spec action
    unfold FrameSession.step
    rcases wp_run meets with ⟨⟨⟩, after, ran, advanced⟩ | ⟨error, after, ran, rfl⟩
    · dsimp only
      rw [ran]
      exact kept.advanced advanced
    · dsimp only
      rw [ran]
      exact kept.quiet (by cases action <;> rfl) fun _ _ => nofun
  | settle decision =>
    have meets : (certificate.settle fingerprint decision).wp _ _ session.frame :=
      settle_spec decision
    unfold FrameSession.step
    rcases wp_run meets with
      ⟨application, after, ran, ⟨terminal, ended, rfl, rfl, rfl⟩ | settled⟩ |
        ⟨error, after, ran, rfl⟩
    · dsimp only
      rw [ran]
      refine kept.quiet rfl fun other application same => ?_
      injection same with same result
      obtain rfl := Except.ok.inj result
      rw [ended, ← same]
    · dsimp only
      rw [ran]
      exact kept.settles fingerprint settled
    · dsimp only
      rw [ran]
      exact kept.quiet rfl fun _ _ => nofun

theorem FrameSession.run_append (frame : NativeSettlementFrame) (calls : List FrameCall)
    (call : FrameCall) : FrameSession.run fingerprint certificate frame (calls ++ [call]) =
      (FrameSession.run fingerprint certificate frame calls).step fingerprint certificate call := by
  unfold FrameSession.run
  rw [List.foldl_append]
  rfl

theorem prepareStartFrame_ok {frame : NativeSettlementFrame}
    (prepared : certificate.prepareStartFrame fingerprint invocation = .ok frame) :
    certificate.startCheckpoints = [1] ∧ frame.terminal = none ∧
      ∃ checkpoint, certificate.checkpoint frame.checkpoint = .ok checkpoint ∧
        frame.checkpoint = 1 ∧ frame.resources = checkpoint.resources := by
  unfold NativeSettlementCertificate.prepareStartFrame at prepared
  obtain ⟨_, starts, prepared⟩ := bind_eq_ok.mp prepared
  obtain ⟨checkpoint, found, prepared⟩ := bind_eq_ok.mp prepared
  obtain rfl := Except.ok.inj prepared
  exact ⟨not_not.mp (refuseIf_eq_ok.mp starts), rfl, checkpoint, found, rfl, rfl⟩

theorem start_kept {frame : NativeSettlementFrame}
    (prepared : certificate.prepareStartFrame fingerprint invocation = .ok frame)
    (live : ∀ state ∈ frame.resources, state = .live) : Kept certificate ⟨frame, []⟩ := by
  obtain ⟨-, idle, checkpoint, found, -, same⟩ := prepareStartFrame_ok fingerprint prepared
  have untouched : ∀ state, state ≠ .live → ∀ owner, tally state frame.resources owner = 0 := by
    intro state other owner
    unfold tally
    refine if_neg fun here => other (live state (List.mem_of_getElem? here))
  refine ⟨?_, fun owner => (untouched .dead nofun owner).symm,
    fun owner => (untouched .published nofun owner).symm, fun _ => ⟨checkpoint, found, same⟩,
    fun _ _ member => ?_, fun _ _ _ member => ?_, fun terminal ended => ?_,
    fun terminal ended => ?_, fun terminal ended => ?_⟩
  · show frame.resources.length = _
    rw [same]
    exact NativeSettlementCertificate.checkpoint_length found
  · exact nomatch member
  · exact nomatch member
  · exact nomatch idle.symm.trans ended
  · exact nomatch idle.symm.trans ended
  · exact nomatch idle.symm.trans ended

theorem run_kept {frame : NativeSettlementFrame} (kept : Kept certificate ⟨frame, []⟩)
    (calls : List FrameCall) :
    Kept certificate (FrameSession.run fingerprint certificate frame calls) := by
  induction calls using List.reverseRecOn with
  | nil => exact kept
  | append_singleton calls call ih =>
    rw [FrameSession.run_append]
    exact ih.step fingerprint call

theorem settled_of_publish {owner : Nat} (member : .publish owner ∈ session.performed) :
    ∃ decision application, .settled decision (.ok application) ∈ session.events := by
  obtain ⟨event, happened, published⟩ := List.mem_flatMap.mp member
  cases event with
  | advanced action result =>
    cases action <;> rcases result with _ | _ <;> simp [FrameEvent.performed] at published
  | settled decision result =>
    cases result with
    | error error => exact nomatch published
    | ok application => exact ⟨decision, application, happened⟩

theorem Kept.terminal (kept : Kept certificate session)
    (settled : .settled decision (.ok application) ∈ session.events) :
    session.frame.terminal = some ⟨decision, application.receipt⟩ := by
  cases ended : session.frame.terminal with
  | none => exact absurd settled (kept.unsettled ended decision application)
  | some terminal => rw [kept.settled terminal ended decision application settled]

theorem Kept.disposes (kept : Kept certificate session) :
    Disposed fingerprint certificate session where
  once := fun decision application settled owner inside => by
    rw [kept.finalized, kept.published]
    have bound : owner < session.frame.resources.length := kept.length ▸ inside
    have found := List.getElem?_eq_getElem bound
    unfold tally
    rcases kept.disposed _ (kept.terminal settled) _ (List.getElem_mem bound) with dead | published
    · rw [found, dead]
      rfl
    · rw [found, published]
      rfl
  published := fun decision application settled => kept.accepted _ (kept.terminal settled)
  unsettled := fun open' owner member => by
    obtain ⟨decision, application, settled⟩ := settled_of_publish member
    exact open' decision application settled
  advanceFailed := fun action error failed => by
    have meets : (certificate.advanceFrame fingerprint action).wp
        (fun _ after => Advanced certificate action session.frame after)
        (fun _ after => after = session.frame) session.frame := advanceFrame_spec action
    rcases wp_run meets with ⟨⟨⟩, after, ran, -⟩ | ⟨error, after, ran, rfl⟩
    · rw [ran] at failed
      exact nomatch failed
    · rw [ran]
  settleFailed := fun decision error failed => by
    have meets : (certificate.settle fingerprint decision).wp _ _ session.frame :=
      settle_spec decision
    rcases wp_run meets with ⟨application, after, ran, -⟩ | ⟨error, after, ran, rfl⟩
    · rw [ran] at failed
      exact nomatch failed
    · rw [ran]
  again := fun decision application settled later => by
    have meets : (certificate.settle fingerprint later).wp _ _ session.frame := settle_spec later
    rcases wp_run meets with ⟨repeated, after, ran, again | first⟩ | ⟨error, after, ran, -⟩
    · obtain ⟨terminal, ended, -, rfl, -⟩ := again
      obtain rfl := Option.some.inj (ended.symm.trans (kept.terminal settled))
      rw [ran]
      exact .inr rfl
    · exact nomatch first.idle.symm.trans (kept.terminal settled)
    · rw [ran]
      exact .inl ⟨error, rfl⟩

end Runs

/-- The certificate disposes of every owner exactly once, whatever is called on a start frame. -/
def Disposes (fingerprint : NativeSettlementCertificate → Digest)
    (certificate : NativeSettlementCertificate) : Prop :=
  ∀ invocation frame, certificate.prepareStartFrame fingerprint invocation = .ok frame →
    (frame.resources.length = certificate.resourceCount ∧
      ∀ state ∈ frame.resources, state = .live) ∧
    ∀ calls, Disposed fingerprint certificate
      (FrameSession.run fingerprint certificate frame calls)

/-- A certificate disposes of every owner exactly once if and only if it has several checkpoints or
every owner is live at its only one. -/
theorem disposes_iff (fingerprint : NativeSettlementCertificate → Digest)
    (certificate : NativeSettlementCertificate) :
    Disposes fingerprint certificate ↔
      (certificate.checkpoints.length = 1 → ∀ checkpoint ∈ certificate.checkpoints,
        ∀ state ∈ checkpoint.resources, state = .live) := by
  constructor
  · intro disposes single checkpoint member
    have starts := NativeSettlementCertificate.single_starts single
    obtain ⟨only, listed⟩ := List.length_eq_one_iff.mp single
    obtain rfl : checkpoint = only := by simpa [listed] using member
    have found : certificate.checkpoint 1 = .ok checkpoint :=
      NativeSettlementCertificate.checkpoint_ok.mpr ⟨Nat.one_ne_zero, by rw [listed]; rfl⟩
    have prepared : certificate.prepareStartFrame fingerprint 1 = .ok
        { function := certificate.function
          recoveryContract := certificate.recoveryContract
          certificateFingerprint := fingerprint certificate
          invocation := 1
          checkpoint := 1
          resources := checkpoint.resources
          terminal := none } := by
      unfold NativeSettlementCertificate.prepareStartFrame
      rw [starts, found]
      rfl
    exact (disposes 1 _ prepared).1.2
  · intro live invocation frame prepared
    obtain ⟨starts, -, checkpoint, found, first, same⟩ := prepareStartFrame_ok fingerprint prepared
    rw [first] at found
    have alive : ∀ state ∈ frame.resources, state = .live := by
      rw [same]
      by_cases single : certificate.checkpoints.length = 1
      · have member := List.mem_of_getElem? (NativeSettlementCertificate.checkpoint_ok.mp found).2
        exact live single checkpoint member
      · exact NativeSettlementCertificate.start_live starts single found
    have kept := start_kept fingerprint prepared alive
    exact ⟨⟨kept.length, alive⟩, fun calls => (run_kept fingerprint kept calls).disposes fingerprint⟩

/-- One checkpoint at which the only owner is dead, and no edge. -/
def emptyCertificate : NativeSettlementCertificate where
  function := "function"
  recoveryContract := Vector.replicate 32 1
  resourceCount := 1
  checkpoints := [⟨1, [.dead], none, [], []⟩]
  startCheckpoints := [1]
  progressEdges := []
  certified := by decide +kernel

/-- Its frame is settled without any action, so its owner was neither finalized nor published. -/
theorem emptyCertificate_undisposed :
    ¬∀ fingerprint : NativeSettlementCertificate → Digest, Disposes fingerprint emptyCertificate := by
  intro disposes
  let frame : NativeSettlementFrame :=
    { function := "function"
      recoveryContract := Vector.replicate 32 1
      certificateFingerprint := Vector.replicate 32 0
      invocation := 1
      checkpoint := 1
      resources := [.dead]
      terminal := none }
  let receipt := emptyCertificate.receiptFor (fun _ => Vector.replicate 32 0) 1 1
    (.abort .malformedResponse) [] [.dead]
  have law := (disposes (fun _ => Vector.replicate 32 0) 1 frame rfl).2
    [.settle (.abort .malformedResponse)]
  have settled := law.once (.abort .malformedResponse) ⟨receipt, []⟩ List.mem_cons_self 0 Nat.one_pos
  exact nomatch settled

end Semaprax.NativeSettlement
