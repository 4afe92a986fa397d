/-
**Who holds a current endpoint** (`session_protocol/engine.rs`, the affine-endpoint layer).

A `World` is the table together with the endpoints handed out and not yet consumed. A call opens a
session, moves a handed-out endpoint into `advance`, or presents there a copy of an endpoint of an
earlier generation (one that crossed a serialization boundary and came back).

* `World.Exact` — every session has one handed-out endpoint, and it carries the current generation.
  Opening keeps it, and so does advancing a handed-out endpoint, whatever the outcome.
* `perform_stale` — a stale presentation breaks it: `advance` refuses, and hands back an endpoint
  at the generation the table holds, a second one.
* `authority_exclusive_iff` — over whole runs, authority stays exclusive exactly when no call of the
  run presents a stale endpoint.
-/

import Semaprax.SessionProtocol.Engine

namespace Semaprax.SessionProtocol

open Library

variable {H : Type*}

/-- The table and the endpoints handed out and not yet consumed. -/
structure World (H : Type*) where
  table : SessionTable
  held : List Endpoint
  handlerState : H

/-- An empty table, no endpoint handed out. -/
def World.new (spec : ProtocolSpec) (handlerState : H) : World H :=
  ⟨SessionTable.new spec, [], handlerState⟩

/-- A call to the table. `advance` consumes a handed-out endpoint; `replay` presents a copy. -/
inductive Call (H : Type*)
  | open (sessionId : String)
  | advance (endpoint : Endpoint) (operation : Operation) (cleanupHandler : CleanupHandler H)
  | replay (endpoint : Endpoint) (operation : Operation) (cleanupHandler : CleanupHandler H)

def Call.presented : Call H → Option Endpoint
  | .open _ => none
  | .advance endpoint _ _ => some endpoint
  | .replay endpoint _ _ => some endpoint

/-- The call can be made: an endpoint that is moved in has been handed out, and a copy that comes
back is of an earlier generation of its session. -/
def Call.Presentable (world : World H) : Call H → Prop
  | .open _ => True
  | .advance endpoint _ _ => endpoint ∈ world.held
  | .replay endpoint _ _ => world.table.Stale endpoint

instance (world : World H) (call : Call H) : Decidable (call.Presentable world) :=
  match call with
  | .open _ => inferInstanceAs (Decidable True)
  | .advance endpoint _ _ => inferInstanceAs (Decidable (endpoint ∈ world.held))
  | .replay endpoint _ _ => inferInstanceAs (Decidable (world.table.Stale endpoint))

/-- The call presents an endpoint of an earlier generation of its session. -/
def Call.Stale (world : World H) (call : Call H) : Prop :=
  ∃ endpoint ∈ call.presented, world.table.Stale endpoint
deriving Decidable

/-- What `advance` leaves when the endpoints in `held` stay with their holders. -/
def World.present (world : World H) (endpoint : Endpoint) (operation : Operation)
    (cleanupHandler : CleanupHandler H) (held : List Endpoint) :
    Option (Option Endpoint × World H) :=
  (world.table.advance endpoint operation cleanupHandler world.handlerState).map
    fun (result, table, handlerState) =>
      (some result.endpoint, ⟨table, result.endpoint :: held, handlerState⟩)

def perform (world : World H) : Call H → Option (Option Endpoint × World H)
  | .open sessionId =>
    match world.table.open sessionId with
    | (.ok endpoint, table) =>
      some (some endpoint, { world with table, held := endpoint :: world.held })
    | (.error _, table) => some (none, { world with table })
  | .advance endpoint operation cleanupHandler =>
    world.present endpoint operation cleanupHandler (world.held.erase endpoint)
  | .replay endpoint operation cleanupHandler =>
    world.present endpoint operation cleanupHandler world.held

/-- The worlds a run passes through, the first and the last included. A panic ends the run. -/
def worlds (world : World H) : List (Call H) → List (World H)
  | [] => [world]
  | call :: calls =>
    world ::
      match perform world call with
      | none => []
      | some (_, next) => worlds next calls

def madeCalls (world : World H) : List (Call H) → List (World H × Call H)
  | [] => []
  | call :: calls =>
    (world, call) ::
      match perform world call with
      | none => []
      | some (_, next) => madeCalls next calls

/-- No two handed-out endpoints of one session both carry its current generation. -/
def World.Exclusive (world : World H) : Prop :=
  world.held.Pairwise fun first second =>
    ¬ (first.sessionId = second.sessionId ∧ world.table.Current first ∧ world.table.Current second)
deriving Decidable

/-- The call presents a stale endpoint and is handed one that the table accepts. -/
def Call.Rearms (world : World H) (call : Call H) : Prop :=
  call.Stale world ∧
    ∃ performed ∈ perform world call, ∃ endpoint ∈ performed.1, performed.2.table.Accepts endpoint
deriving Decidable

/-- Every session has exactly one handed-out endpoint, and it carries the current generation. -/
structure World.Exact (world : World H) : Prop where
  distinct : (world.held.map (·.sessionId)).Nodup
  current : ∀ endpoint ∈ world.held, world.table.Current endpoint
  covered : ∀ sessionId, world.table.currentGeneration sessionId ≠ none →
    sessionId ∈ world.held.map (·.sessionId)

variable {endpoint : Endpoint} {handed : Option Endpoint}

theorem World.new_exact (spec : ProtocolSpec) (handlerState : H) :
    (World.new spec handlerState).Exact where
  distinct := List.nodup_nil
  current := fun endpoint member => absurd member (List.not_mem_nil)
  covered := fun sessionId known => by
    refine absurd ?_ known
    unfold World.new SessionTable.new SessionTable.currentGeneration
    rw [Std.TreeMap.getElem?_emptyc]
    rfl

theorem World.Exact.exclusive {world : World H} (exact : world.Exact) : world.Exclusive := by
  have distinct := List.pairwise_map.mp exact.distinct
  exact distinct.imp fun differ => fun ⟨same, _⟩ => differ same

/-- A handed-out endpoint at the generation of the table takes the place of the one endpoint of its
session, if there was one, and the other sessions have not moved. -/
theorem World.Exact.replace {world : World H} {table : SessionTable}
    {held : List Endpoint} (exact : world.Exact) (remaining : held ⊆ world.held)
    (distinct : (endpoint.sessionId :: held.map (·.sessionId)).Nodup)
    (kept : ∀ other ∈ world.held, other ∈ held ∨ other.sessionId = endpoint.sessionId)
    (current : table.Current endpoint)
    (frame : ∀ other, other ≠ endpoint.sessionId →
      table.currentGeneration other = world.table.currentGeneration other) (handlerState : H) :
    World.Exact ⟨table, endpoint :: held, handlerState⟩ where
  distinct := distinct
  current := by
    intro other member
    rcases List.mem_cons.mp member with rfl | member
    · exact current
    · have differ : other.sessionId ≠ endpoint.sessionId := by
        intro same
        refine (List.nodup_cons.mp distinct).1 ?_
        rw [← same]
        exact List.mem_map_of_mem member
      exact (frame _ differ).trans (exact.current other (remaining member))
  covered := by
    intro sessionId known
    rw [List.map_cons, List.mem_cons]
    by_cases same : sessionId = endpoint.sessionId
    · exact .inl same
    · obtain ⟨other, member, rfl⟩ :=
        List.mem_map.mp (exact.covered sessionId (by rwa [← frame sessionId same]))
      rcases kept other member with stays | replaced
      · exact .inr (List.mem_map_of_mem stays)
      · exact absurd replaced same

theorem World.Exact.open {world next : World H} {sessionId : String}
    (exact : world.Exact) (performed : perform world (.open sessionId) = some (handed, next)) :
    next.Exact := by
  rcases world.table.open_cases sessionId with ⟨error, refused⟩ |
    ⟨unknown, endpoint, table, granted, rfl, current, frame⟩
  · simp only [perform, refused] at performed
    cases performed
    exact exact
  · simp only [perform, granted] at performed
    cases performed
    refine exact.replace (List.Subset.refl _) ?_ (fun _ => .inl) current frame _
    refine List.nodup_cons.mpr ⟨fun member => ?_, exact.distinct⟩
    obtain ⟨other, member, same⟩ := List.mem_map.mp member
    have known := exact.current other member
    unfold SessionTable.Current at known
    rw [same, unknown] at known
    cases known

theorem World.Exact.advance {world next : World H} {operation : Operation}
    {handler : CleanupHandler H} (exact : world.Exact)
    (member : endpoint ∈ world.held)
    (performed : perform world (.advance endpoint operation handler) = some (handed, next)) :
    next.Exact := by
  obtain ⟨⟨result, table, handlerState⟩, returned, produced⟩ := Option.map_eq_some_iff.mp performed
  cases produced
  have known : world.table.currentGeneration endpoint.sessionId ≠ none := by
    rw [exact.current endpoint member]
    exact Option.some_ne_none _
  obtain ⟨same, current, frame⟩ := SessionTable.advance_current known returned
  have split := List.perm_cons_erase member
  refine exact.replace (List.erase_subset) ?_ (fun other held => ?_) current ?_ _
  · rw [same]
    exact (split.map (·.sessionId)).nodup_iff.mp exact.distinct
  · rcases List.mem_cons.mp (split.mem_iff.mp held) with rfl | stays
    · exact .inr same.symm
    · exact .inl stays
  · rw [same]
    exact frame

/-- **The step of a run without stale presentations.** -/
theorem World.Exact.perform {world next : World H} {call : Call H}
    (exact : world.Exact) (presentable : call.Presentable world) (fresh : ¬ call.Stale world)
    (performed : perform world call = some (handed, next)) : next.Exact := by
  cases call with
  | «open» sessionId => exact exact.open performed
  | advance endpoint operation handler => exact exact.advance presentable performed
  | replay endpoint operation handler => exact absurd ⟨endpoint, rfl, presentable⟩ fresh

/-- **The step of a stale presentation.** The session's one endpoint is still out, the table has not
moved, and the endpoint handed back carries the generation the table holds. -/
theorem World.Exact.perform_stale {world : World H} {call : Call H} (exact : world.Exact)
    (presentable : call.Presentable world) (stale : call.Stale world) :
    ∃ handed next, SessionProtocol.perform world call = some (handed, next) ∧ ¬ next.Exclusive := by
  obtain ⟨presentedEndpoint, presented, stale⟩ := stale
  cases call with
  | «open» sessionId => cases presented
  | advance endpoint operation handler =>
    obtain rfl : endpoint = presentedEndpoint := Option.some.inj presented
    exact absurd stale (exact.current endpoint presentable).not_stale
  | replay endpoint operation handler =>
    obtain rfl : endpoint = presentedEndpoint := Option.some.inj presented
    obtain ⟨refused, returned⟩ :=
      SessionTable.advance_stale stale operation handler world.handlerState
    have known : world.table.currentGeneration endpoint.sessionId ≠ none := by
      obtain ⟨generation, known, _⟩ := stale
      rw [known]
      exact Option.some_ne_none _
    obtain ⟨same, current, _⟩ := SessionTable.advance_current known returned
    refine ⟨_, _, congrArg (Option.map _) returned, fun exclusive => ?_⟩
    obtain ⟨other, member, shared⟩ := List.mem_map.mp (exact.covered _ known)
    exact (List.pairwise_cons.mp exclusive).1 other member
      ⟨same.trans shared.symm, current, exact.current other member⟩

theorem World.Exact.worlds {world : World H} (exact : world.Exact) (calls : List (Call H))
    (presentable : ∀ made ∈ madeCalls world calls, made.2.Presentable made.1)
    (fresh : ∀ made ∈ madeCalls world calls, ¬ made.2.Stale made.1) :
    ∀ visited ∈ worlds world calls, visited.Exact := by
  induction calls generalizing world with
  | nil =>
    intro visited member
    obtain rfl := List.mem_singleton.mp member
    exact exact
  | cons call calls ih =>
    obtain ⟨callPresentable, presentable⟩ := List.forall_mem_cons.mp presentable
    obtain ⟨callFresh, fresh⟩ := List.forall_mem_cons.mp fresh
    refine List.forall_mem_cons.mpr ⟨exact, ?_⟩
    cases performed : SessionProtocol.perform world call with
    | none => exact List.forall_mem_nil _
    | some outcome =>
      obtain ⟨handed, next⟩ := outcome
      simp only [performed] at presentable fresh ⊢
      exact ih (exact.perform callPresentable callFresh performed) presentable fresh

theorem World.Exact.fresh_of_exclusive {world : World H} (exact : world.Exact)
    (calls : List (Call H))
    (presentable : ∀ made ∈ madeCalls world calls, made.2.Presentable made.1)
    (exclusive : ∀ visited ∈ SessionProtocol.worlds world calls, visited.Exclusive) :
    ∀ made ∈ madeCalls world calls, ¬ made.2.Stale made.1 := by
  induction calls generalizing world with
  | nil => exact List.forall_mem_nil _
  | cons call calls ih =>
    obtain ⟨callPresentable, presentable⟩ := List.forall_mem_cons.mp presentable
    obtain ⟨_, exclusive⟩ := List.forall_mem_cons.mp exclusive
    by_cases stale : call.Stale world
    · obtain ⟨handed, next, performed, broken⟩ := exact.perform_stale callPresentable stale
      simp only [performed] at exclusive
      refine absurd (exclusive next ?_) broken
      cases calls <;> exact List.mem_cons_self
    · refine List.forall_mem_cons.mpr ⟨stale, ?_⟩
      cases performed : SessionProtocol.perform world call with
      | none => exact List.forall_mem_nil _
      | some outcome =>
        obtain ⟨handed, next⟩ := outcome
        simp only [performed] at presentable exclusive ⊢
        exact ih (exact.perform callPresentable stale performed) presentable exclusive

/-- **Authority is exclusive exactly without stale presentations.** In a run of presentable calls
from an empty table, at most one handed-out endpoint of a session carries its current generation at
every moment, and no stale presentation is answered with an endpoint the table accepts, if and only
if no call of the run presents a stale endpoint. -/
theorem authority_exclusive_iff (spec : ProtocolSpec) (handlerState : H) (calls : List (Call H))
    (presentable : ∀ made ∈ madeCalls (World.new spec handlerState) calls,
      made.2.Presentable made.1) :
    ((∀ visited ∈ worlds (World.new spec handlerState) calls, visited.Exclusive) ∧
      ∀ made ∈ madeCalls (World.new spec handlerState) calls, ¬ made.2.Rearms made.1) ↔
    ∀ made ∈ madeCalls (World.new spec handlerState) calls, ¬ made.2.Stale made.1 := by
  have exact := World.new_exact spec handlerState
  constructor
  · rintro ⟨exclusive, _⟩
    exact exact.fresh_of_exclusive calls presentable exclusive
  · intro fresh
    refine ⟨fun visited member => ?_, fun made member rearms => fresh made member rearms.1⟩
    exact (exact.worlds calls presentable fresh visited member).exclusive

/-! The shortest run that duplicates authority: open a session, advance it once, and present the
endpoint of generation `0` again. -/

section StalePing

/-- Two states, a `ping` that stays and a `stop` that ends. -/
def pingSpec : ProtocolSpec where
  name := "ping"
  states := .ofList ["idle", "done"]
  initial := "idle"
  terminal := .ofList ["done"]
  transitions :=
    [⟨"idle", "ping", .send, "unit", none, .none, .then "idle"⟩,
     ⟨"idle", "stop", .cancel, "unit", none, .none, .then "done"⟩]
  cleanup := [("done", [])]

/-- The `ping` operation. -/
def ping : Operation := ⟨"ping", "unit", none, none, none⟩

def quietHandler : CleanupHandler Unit := fun state _ _ _ => (.ok (), state)

/-- The endpoint of session `s` that `open` hands out. -/
def firstEndpoint : Endpoint := ⟨"s", "idle", 0, false⟩

/-- The run with one stale presentation. -/
def stalePing : List (Call Unit) :=
  [.open "s", .advance firstEndpoint ping quietHandler, .replay firstEndpoint ping quietHandler]

/-- The same run with the endpoint of generation `1` presented in place of the stale one. -/
def freshPing : List (Call Unit) :=
  [.open "s", .advance firstEndpoint ping quietHandler,
    .advance ⟨"s", "idle", 1, false⟩ ping quietHandler]

theorem authority_duplicated : ¬ ∀ (spec : ProtocolSpec) (calls : List (Call Unit)),
      (∀ made ∈ madeCalls (World.new spec ()) calls, made.2.Presentable made.1) →
      (∀ visited ∈ worlds (World.new spec ()) calls, visited.Exclusive) ∧
        ∀ made ∈ madeCalls (World.new spec ()) calls, ¬ made.2.Rearms made.1 := by
  intro claimed
  exact absurd (claimed pingSpec stalePing (by decide)).1 (by decide)

theorem authority_exclusive_freshPing :
    (∀ visited ∈ worlds (World.new pingSpec ()) freshPing, visited.Exclusive) ∧
      ∀ made ∈ madeCalls (World.new pingSpec ()) freshPing, ¬ made.2.Rearms made.1 :=
  (authority_exclusive_iff pingSpec () freshPing (by decide)).mpr (by decide)

end StalePing

end Semaprax.SessionProtocol
