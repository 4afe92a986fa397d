/-
**The protocol declaration** (`session_protocol/spec.rs`).

A protocol is plain data: named states, transitions with their label, payload tag, capability and
ownership move, terminal states, and the cleanup inventory of each terminal state.

* `transitionsFrom` — the declared transitions of a state, in declaration order.
* `cleanupFor` — the cleanup inventory of a terminal state, in declaration order.
-/

import Semaprax.Library.Collections

namespace Semaprax.SessionProtocol

open Library

/-- A protocol's state name. -/
abbrev StateId := String

/-- A transition's operation label, unique per originating state. -/
abbrev Label := String

/-- What kind of protocol operation a transition represents. -/
inductive Kind
  | send
  | receive
  | call
  | return
  | cancel
  | timeout
  | fail
deriving DecidableEq, Repr

/-- Taking the transition leaves an operation pending (`opens_pending`). -/
def Kind.opensPending (kind : Kind) : Bool := kind = .call

/-- One of the three explicit escape kinds (`is_escape`). -/
def Kind.isEscape : Kind → Bool
  | .cancel | .timeout | .fail => true
  | _ => false

/-- Whether a transition consumes a resource the caller presents. -/
inductive OwnershipMove
  | none
  | consumesResource
deriving DecidableEq, Repr

/-- The declared next states of one transition. -/
inductive Next
  | then (target : StateId)
  | choice (choices : List (Label × StateId))
deriving DecidableEq, Repr

/-- One declared transition. -/
structure Transition where
  source : StateId
  label : Label
  kind : Kind
  payloadType : String
  requiredCapability : Option String
  ownership : OwnershipMove
  next : Next
deriving DecidableEq, Repr

/-- A declared protocol. -/
structure ProtocolSpec where
  name : String
  states : BTreeSet StateId
  initial : StateId
  terminal : BTreeSet StateId
  transitions : List Transition
  cleanup : List (StateId × List String)

/-- The declared transitions leaving `state`, in declaration order (`transitions_from`). -/
def ProtocolSpec.transitionsFrom (spec : ProtocolSpec) (state : StateId) : List Transition :=
  spec.transitions.filter (·.source = state)

/-- The cleanup inventory of a terminal state, empty when it has no entry (`cleanup_for`). -/
def ProtocolSpec.cleanupFor (spec : ProtocolSpec) (state : StateId) : List String :=
  match spec.cleanup.find? (·.1 = state) with
  | some (_, ops) => ops
  | none => []

end Semaprax.SessionProtocol
