/-
**The policy exposure is conserved over migrations** (`source_journal/policy_v6.rs`,
`source_journal/migration.rs`).

Every invocation of a chain but the first takes over the totals of the one before it. The history of
the chain is made of the entries of all its journals, each with the limits of its own invocation.

* `Chain` — journals that were accepted, each opened with the carry of the checkpoint before it.
* `Conserved` — what the totals of a history are, and that each intent was within its limits.
* `Tells` — the fold over the last journal, against the history of the chain.
* `step_tells`, `steps_tells` — one entry, and the entries of a journal.
* `exposure_conserved` — the totals of every chain, and the intents that may follow.
-/

import Semaprax.Library.Histories
import Semaprax.SourceJournals.Policy

namespace Semaprax.SourceJournals

open Library LiveInvocation ModelPolicy

/-- What is reserved for an attempt. -/
inductive Dimension
  | contextTokens
  | outputTokens
  | costMicros

def PolicyAttemptReservationV6.reserved (reservation : PolicyAttemptReservationV6) : Dimension → Int
  | .contextTokens => reservation.reservedContextTokens.val
  | .outputTokens => reservation.reservedOutputTokens.val
  | .costMicros => reservation.reservedCostMicros.val

def PolicyAttemptUsageV6.observation : PolicyAttemptUsageV6 → Dimension → Option Int
  | .unknown, _ => none
  | .observed contextTokens _ _, .contextTokens => some contextTokens.val
  | .observed _ outputTokens _, .outputTokens => some outputTokens.val
  | .observed _ _ costMicros, .costMicros => some costMicros.val

def SourcePolicyTotalsV6.reserved (totals : SourcePolicyTotalsV6) : Dimension → Int
  | .contextTokens => totals.reservedContextTokens.val
  | .outputTokens => totals.reservedOutputTokens.val
  | .costMicros => totals.reservedCostMicros.val

def SourcePolicyTotalsV6.exposure (totals : SourcePolicyTotalsV6) : Dimension → Int
  | .contextTokens => totals.exposureContextTokens.val
  | .outputTokens => totals.exposureOutputTokens.val
  | .costMicros => totals.exposureCostMicros.val

def larger (reserved : Int) (observed : Option Int) : Int := observed.elim reserved (max reserved)

theorem le_larger (reserved : Int) (observed : Option Int) :
    reserved ≤ larger reserved observed := by
  cases observed with
  | none => exact le_rfl
  | some amount => exact le_max_left _ _

/-- An entry, with the limits of its invocation. -/
structure Recorded where
  limits : ModelBudgetLimits
  entry : SourceJournalEntry

def Recorded.intent (recorded : Recorded) : Option PolicyAttemptIntentV6 :=
  match recorded.entry with
  | .policyAttemptIntent intent => some intent
  | _ => none

/-- What an entry tells of the use of the attempt with an ordinal. -/
def Recorded.usage (ordinal : U64) (recorded : Recorded) : Option PolicyAttemptUsageV6 :=
  match recorded.entry with
  | .policyAttemptUsage _ _ told usage => if told = ordinal then some usage else none
  | _ => none

def SourceJournal.recorded (journal : SourceJournal) : List Recorded :=
  journal.entries.map fun entry => ⟨journal.binding.policy.limits, entry⟩

def historyOf (journals : List SourceJournal) : List Recorded :=
  journals.flatMap SourceJournal.recorded

def intentsOf (history : List Recorded) : List PolicyAttemptIntentV6 :=
  history.filterMap Recorded.intent

def usageOf (history : List Recorded) (ordinal : U64) : Option PolicyAttemptUsageV6 :=
  history.findSome? (Recorded.usage ordinal)

/-- The larger of the reservation of an attempt and of what was observed of it. -/
def exposureOf (history : List Recorded) (dimension : Dimension) (intent : PolicyAttemptIntentV6) :
    Int :=
  larger (intent.reservation.reserved dimension)
    ((usageOf history intent.reservation.ordinal).bind (·.observation dimension))

def reservedTotal (history : List Recorded) (dimension : Dimension) : Int :=
  ((intentsOf history).map fun intent => intent.reservation.reserved dimension).sum

def exposureTotal (history : List Recorded) (dimension : Dimension) : Int :=
  ((intentsOf history).map (exposureOf history dimension)).sum

/-- The exposure of a history, and a reservation after it, are within limits. -/
structure Within (limits : ModelBudgetLimits) (history : List Recorded)
    (reservation : PolicyAttemptReservationV6) : Prop where
  calls : (intentsOf history).length < limits.maxCalls.val
  context : reservation.reservedContextTokens.val ≤ limits.maxContextTokens.val
  output : reservation.reservedOutputTokens.val ≤ limits.maxOutputTokens.val
  aggregate : exposureTotal history .contextTokens + exposureTotal history .outputTokens +
    reservation.reserved .contextTokens + reservation.reserved .outputTokens ≤
      limits.maxAggregateTokens.val
  cost : exposureTotal history .costMicros + reservation.reserved .costMicros ≤
    limits.maxCostMicros.val

/-- An intent was admitted within the limits of its own invocation. -/
def Admitted (history : List Recorded) (recorded : Recorded) : Prop :=
  ∀ intent, recorded.intent = some intent → Within recorded.limits history intent.reservation

structure Conserved (history : List Recorded) (totals : SourcePolicyTotalsV6) : Prop where
  calls : totals.calls.val = (intentsOf history).length
  nextOrdinal : totals.nextOrdinal.val = (intentsOf history).length
  ordinals : (intentsOf history).map (·.reservation.ordinal.val) =
    List.range (intentsOf history).length
  reserved : ∀ dimension, totals.reserved dimension = reservedTotal history dimension
  exposure : ∀ dimension, totals.exposure dimension = exposureTotal history dimension
  admitted : Throughout Admitted history

/-- The fold over the last journal of a history. -/
structure Tells (history : List Recorded) (folded : PolicyFoldV6) : Prop
    extends Conserved history folded.totals where
  reservations : folded.reservations = (intentsOf history).map (·.reservation)
  costs : ∀ intent ∈ intentsOf history, 0 ≤ intent.reservation.reservedCostMicros.val
  used : ∀ ordinal, usageOf history ordinal ≠ none → ordinal.val < (intentsOf history).length
  known : ∀ intent ∈ folded.intents, intent ∈ intentsOf history
  closed : ∀ intent ∈ folded.intents, intent.reservation.ordinal ∉ folded.usedOrdinals →
    usageOf history intent.reservation.ordinal = none

section Entries

variable {history : List Recorded} {recorded : Recorded}

variable {totals : SourcePolicyTotalsV6}

theorem intentsOf_append :
    intentsOf (history ++ [recorded]) = intentsOf history ++ recorded.intent.toList := by
  unfold intentsOf
  rw [List.filterMap_append]
  cases here : recorded.intent with
  | none => rw [List.filterMap_cons_none here]; rfl
  | some intent => rw [List.filterMap_cons_some here]; rfl

theorem usageOf_append (ordinal : U64) : usageOf (history ++ [recorded]) ordinal =
      (usageOf history ordinal).or (recorded.usage ordinal) := by
  unfold usageOf
  rw [List.findSome?_append, List.findSome?_singleton]

/-- An entry that tells nothing of use leaves the exposure of every attempt. -/
theorem exposureOf_append (silent : ∀ ordinal, recorded.usage ordinal = none)
    (dimension : Dimension) :
    exposureOf (history ++ [recorded]) dimension = exposureOf history dimension := by
  funext intent
  unfold exposureOf
  rw [usageOf_append, silent, Option.or_none]

theorem Conserved.eq_of_ordinal
    (conserved : Conserved history totals) {intent other : PolicyAttemptIntentV6} (here : intent ∈ intentsOf history)
    (there : other ∈ intentsOf history)
    (same : intent.reservation.ordinal = other.reservation.ordinal) : intent = other := by
  have distinct : ((intentsOf history).map (·.reservation.ordinal.val)).Nodup := by
    rw [conserved.ordinals]
    exact List.nodup_range
  exact List.inj_on_of_nodup_map distinct here there (congrArg Word.val same)

theorem Conserved.ordinal_lt (conserved : Conserved history totals)
    {intent : PolicyAttemptIntentV6} (here : intent ∈ intentsOf history) :
    intent.reservation.ordinal.val < (intentsOf history).length := by
  rw [← List.mem_range, ← conserved.ordinals]
  exact List.mem_map_of_mem here

theorem reservedTotal_le (dimension : Dimension) :
    reservedTotal history dimension ≤ exposureTotal history dimension :=
  List.sum_le_sum fun _ _ => le_larger _ _

end Entries

section Steps

variable {sum : U64} {usage : PolicyAttemptUsageV6}

theorem addU64_eq_ok {left right : U64} :
    addU64 left right = .ok sum ↔ left.val + right.val = sum.val := by
  unfold addU64
  rw [okOr_eq_ok, Word.checkedAdd_eq_some]

theorem addI64_eq_ok {left right sum : I64} :
    addI64 left right = .ok sum ↔ left.val + right.val = sum.val := by
  unfold addI64 I64.checkedAdd
  rw [okOr_eq_ok, I64.checked_eq_some]

theorem addTokens_eq_some {first second third fourth : U64} :
    addTokens first second third fourth = some sum ↔
      first.val + second.val + third.val + fourth.val = sum.val := by
  unfold addTokens
  simp only [Option.bind_eq_bind, Option.bind_eq_some_iff, Word.checkedAdd_eq_some]
  constructor
  · rintro ⟨two, twos, three, threes, all⟩
    omega
  · intro all
    have upper := sum.upper
    refine ⟨⟨first.val + second.val, by omega⟩, rfl,
      ⟨first.val + second.val + third.val, by omega⟩, rfl, ?_⟩
    exact all

theorem cast_sum {first second sum : Nat} (equal : first + second = sum) :
    (sum : Int) = first + second := by
  rw [← equal, Nat.cast_add]

theorem raiseU64_eq_ok {exposure used reserved raised : U64}
    (equal : PolicyFoldV6.raiseU64 exposure used reserved = .ok raised) :
    (raised.val : Int) = exposure.val + (max (reserved.val : Int) used.val - reserved.val) := by
  unfold PolicyFoldV6.raiseU64 at equal
  by_cases more : reserved < used
  · rw [if_pos more] at equal
    have sum := addU64_eq_ok.mp equal
    rw [Word.saturatingSub_val] at sum
    have more : reserved.val < used.val := more
    omega
  · rw [if_neg more] at equal
    obtain rfl := Except.ok.inj equal
    have less : used.val ≤ reserved.val := not_lt.mp more
    omega

theorem raiseI64_eq_ok {exposure used reserved raised : I64} (nonneg : 0 ≤ reserved.val)
    (equal : PolicyFoldV6.raiseI64 exposure used reserved = .ok raised) :
    raised.val = exposure.val + (max reserved.val used.val - reserved.val) := by
  unfold PolicyFoldV6.raiseI64 at equal
  by_cases more : reserved < used
  · rw [if_pos more] at equal
    have sum := addI64_eq_ok.mp equal
    have more : reserved.val < used.val := more
    have upper := used.upper
    have lowest : minI64 ≤ 0 := by decide
    have exact : (used.saturatingSub reserved).val = used.val - reserved.val :=
      I64.saturate_val (by omega) (by omega)
    omega
  · rw [if_neg more] at equal
    obtain rfl := Except.ok.inj equal
    have less : used.val ≤ reserved.val := not_lt.mp more
    omega

variable {binding : SourcePolicyBindingV6} {result after : PolicyFoldV6}
  {intent : PolicyAttemptIntentV6}

/-- What an intent must be to reserve. -/
structure Fits (binding : SourcePolicyBindingV6) (result : PolicyFoldV6)
    (intent : PolicyAttemptIntentV6) : Prop where
  ordinal : intent.reservation.ordinal = result.totals.nextOrdinal
  kind : intent.reservation.kind = .fresh
  provider : intent.reservation.providerId = binding.providerId
  nonneg : 0 ≤ intent.reservation.reservedCostMicros.val
  context : intent.reservation.reservedContextTokens ≤ binding.limits.maxContextTokens
  output : intent.reservation.reservedOutputTokens ≤ binding.limits.maxOutputTokens
  units : 0 < intent.reservedUnits.val
  response : intent.responseLimit ≠ 0
  calls : result.totals.calls < binding.limits.maxCalls
  aggregate : result.totals.exposure .contextTokens + result.totals.exposure .outputTokens +
    intent.reservation.reserved .contextTokens + intent.reservation.reserved .outputTokens ≤
      binding.limits.maxAggregateTokens.val
  cost : result.totals.exposure .costMicros + intent.reservation.reserved .costMicros ≤
    binding.limits.maxCostMicros.val

/-- What an intent changes. -/
structure Reserves (result : PolicyFoldV6) (intent : PolicyAttemptIntentV6) (after : PolicyFoldV6) :
    Prop where
  calls : after.totals.calls.val = result.totals.calls.val + 1
  nextOrdinal : after.totals.nextOrdinal.val = result.totals.nextOrdinal.val + 1
  reserved : ∀ dimension, after.totals.reserved dimension =
    result.totals.reserved dimension + intent.reservation.reserved dimension
  exposure : ∀ dimension, after.totals.exposure dimension =
    result.totals.exposure dimension + intent.reservation.reserved dimension
  reservations : after.reservations = result.reservations ++ [intent.reservation]
  intents : after.intents = result.intents ++ [intent]
  usedOrdinals : after.usedOrdinals = result.usedOrdinals

theorem reserve_spec (reserved : result.reserve binding intent = .ok after) :
    Fits binding result intent ∧ Reserves result intent after := by
  unfold PolicyFoldV6.reserve at reserved
  simp only [bind_eq_ok, insist_eq_ok, okOr_eq_ok, addU64_eq_ok, addI64_eq_ok, addTokens_eq_some,
    Word.checkedAdd_eq_some] at reserved
  obtain ⟨_, ⟨ordinal, kind, provider, nonneg, context, output, units, response⟩, aggregate, tokens,
    cost, costs, _, ⟨calls, aggregateBelow, costBelow⟩, count, counted, reservedContext, one,
    reservedOutput, two, reservedCost, three, exposureContext, four, exposureOutput, five, next,
    nexts, same⟩ := reserved
  obtain rfl := Except.ok.inj same
  have aggregateBelow : aggregate.val ≤ binding.limits.maxAggregateTokens.val := aggregateBelow
  have costBelow : cost.val ≤ binding.limits.maxCostMicros.val := costBelow
  have unit : (1 : U32).val = 1 := rfl
  have unit' : (1 : U64).val = 1 := rfl
  refine ⟨⟨ordinal, kind, provider, nonneg, context, output, units, response, calls, ?_, ?_⟩,
    ⟨?_, ?_, ?_, ?_, rfl, rfl, rfl⟩⟩
  · show (result.totals.exposureContextTokens.val : Int) + result.totals.exposureOutputTokens.val +
      intent.reservation.reservedContextTokens.val +
        intent.reservation.reservedOutputTokens.val ≤ _
    omega
  · show result.totals.exposureCostMicros.val + intent.reservation.reservedCostMicros.val ≤ _
    omega
  · show count.val = _
    omega
  · show next.val = _
    omega
  · intro dimension
    cases dimension with
    | contextTokens => exact cast_sum one
    | outputTokens => exact cast_sum two
    | costMicros => exact three.symm
  · intro dimension
    cases dimension with
    | contextTokens => exact cast_sum four
    | outputTokens => exact cast_sum five
    | costMicros => exact costs.symm

theorem observe_spec {totals raised : SourcePolicyTotalsV6}
    {reservation : PolicyAttemptReservationV6}
    (nonneg : 0 ≤ reservation.reservedCostMicros.val)
    (observed : PolicyFoldV6.observe totals reservation usage = .ok raised) :
    raised.calls = totals.calls ∧ raised.nextOrdinal = totals.nextOrdinal ∧
      (∀ dimension, raised.reserved dimension = totals.reserved dimension) ∧
      ∀ dimension, raised.exposure dimension = totals.exposure dimension +
        (larger (reservation.reserved dimension) (usage.observation dimension) -
          reservation.reserved dimension) := by
  cases usage with
  | unknown =>
    obtain rfl := Except.ok.inj observed
    refine ⟨rfl, rfl, fun _ => rfl, fun dimension => ?_⟩
    show _ = _ + (reservation.reserved dimension - reservation.reserved dimension)
    rw [sub_self, add_zero]
  | observed contextTokens outputTokens costMicros =>
    unfold PolicyFoldV6.observe at observed
    simp only [bind_eq_ok] at observed
    obtain ⟨_, -, _, -, _, -, context, contexts, output, outputs, cost, costs, same⟩ := observed
    obtain rfl := Except.ok.inj same
    refine ⟨rfl, rfl, fun dimension => by cases dimension <;> rfl, fun dimension => ?_⟩
    cases dimension with
    | contextTokens => exact raiseU64_eq_ok contexts
    | outputTokens => exact raiseU64_eq_ok outputs
    | costMicros => exact raiseI64_eq_ok nonneg costs

theorem use_spec {previous : Option SourceJournalEntry} {turn attempt : U32} {ordinal : U64}
    (used : result.use previous turn attempt ordinal usage = .ok after) :
    ∃ intent ∈ result.intents, intent.reservation.ordinal = ordinal ∧
      ordinal ∉ result.usedOrdinals ∧
      PolicyFoldV6.observe result.totals intent.reservation usage = .ok after.totals ∧
      after.reservations = result.reservations ∧ after.intents = result.intents ∧
      after.usedOrdinals = result.usedOrdinals ++ [ordinal] := by
  unfold PolicyFoldV6.use at used
  simp only [bind_eq_ok, insist_eq_ok, okOr_eq_ok] at used
  obtain ⟨intent, found, _, ⟨-, unused, -⟩, totals, observed, same⟩ := used
  obtain rfl := Except.ok.inj same
  have matched := List.find?_some found
  rw [decide_eq_true_eq] at matched
  exact ⟨intent, List.mem_of_find?_eq_some found, matched.2.2, unused, observed, rfl, rfl, rfl⟩

end Steps

section Runs

variable {previous : Option SourceJournalEntry}

theorem sum_map_raise {A : Type} {items : List A} {f g : A → Int} {item : A}
    (distinct : items.Nodup) (here : item ∈ items)
    (same : ∀ other ∈ items, other ≠ item → g other = f other) :
    (items.map g).sum = (items.map f).sum + (g item - f item) := by
  induction items with
  | nil => cases here
  | cons first rest ih =>
    obtain ⟨absent, distinct⟩ := List.nodup_cons.mp distinct
    rw [List.map_cons, List.map_cons, List.sum_cons, List.sum_cons]
    rcases List.mem_cons.mp here with rfl | here
    · have others : rest.map g = rest.map f := List.map_congr_left fun other there =>
        same other (List.mem_cons_of_mem _ there) fun equal => absent (equal ▸ there)
      rw [others]
      ring
    · have unchanged : g first = f first :=
        same first List.mem_cons_self fun equal => absent (equal ▸ here)
      rw [unchanged, ih distinct here fun other there => same other (List.mem_cons_of_mem _ there)]
      ring

variable {history : List Recorded} {binding : SourcePolicyBindingV6} {before after : PolicyFoldV6}

section Telling

variable (tells : Tells history before)

include tells

theorem reserve_tells {intent : PolicyAttemptIntentV6}
    (reserved : before.reserve binding intent = .ok after) :
    Tells (history ++ [⟨binding.limits, .policyAttemptIntent intent⟩]) after := by
  obtain ⟨fits, reserves⟩ := reserve_spec reserved
  have intents : intentsOf (history ++ [⟨binding.limits, .policyAttemptIntent intent⟩]) =
      intentsOf history ++ [intent] := intentsOf_append
  have usages : ∀ ordinal,
      usageOf (history ++ [⟨binding.limits, .policyAttemptIntent intent⟩]) ordinal =
        usageOf history ordinal := fun ordinal => (usageOf_append ordinal).trans Option.or_none
  have exposures :=
    @exposureOf_append history ⟨binding.limits, .policyAttemptIntent intent⟩ fun _ => rfl
  have ordinal : intent.reservation.ordinal.val = (intentsOf history).length := by
    rw [fits.ordinal, tells.nextOrdinal]
  -- nothing is told of an attempt before its intent
  have fresh : usageOf history intent.reservation.ordinal = none := by
    by_contra told
    exact absurd (tells.used _ told) (not_lt.mpr ordinal.ge)
  constructor
  · constructor
    · rw [intents, List.length_append, reserves.calls, tells.calls]
      rfl
    · rw [intents, List.length_append, reserves.nextOrdinal, tells.nextOrdinal]
      rfl
    · rw [intents, List.map_append, List.length_append, tells.ordinals]
      show _ ++ [intent.reservation.ordinal.val] = List.range ((intentsOf history).length + 1)
      rw [List.range_succ, ordinal]
    · intro dimension
      unfold reservedTotal
      rw [intents, List.map_append, List.sum_append, reserves.reserved, tells.reserved]
      show _ = _ + (intent.reservation.reserved dimension + 0)
      rw [add_zero]
      rfl
    · intro dimension
      unfold exposureTotal
      rw [intents, exposures, List.map_append, List.sum_append, reserves.exposure, tells.exposure]
      show _ = _ + (exposureOf history dimension intent + 0)
      unfold exposureOf
      rw [fresh, add_zero]
      rfl
    · refine throughout_append.mpr ⟨tells.admitted, fun other here => ?_⟩
      obtain rfl := Option.some.inj here
      refine ⟨tells.calls.ge.trans_lt fits.calls, fits.context, fits.output, ?_, ?_⟩
      · rw [← tells.exposure, ← tells.exposure]
        exact fits.aggregate
      · rw [← tells.exposure]
        exact fits.cost
  · rw [intents, List.map_append, reserves.reservations, tells.reservations]
    rfl
  · intro other here
    rw [intents, List.mem_append, List.mem_singleton] at here
    rcases here with here | rfl
    · exact tells.costs other here
    · exact fits.nonneg
  · intro other told
    rw [usages] at told
    rw [intents, List.length_append]
    exact Nat.lt_add_right _ (tells.used other told)
  · intro other here
    rw [reserves.intents, List.mem_append] at here
    rw [intents, List.mem_append]
    exact here.imp_left (tells.known other)
  · intro other here unused
    rw [reserves.intents, List.mem_append, List.mem_singleton] at here
    rw [reserves.usedOrdinals] at unused
    rw [usages]
    rcases here with here | rfl
    · exact tells.closed other here unused
    · exact fresh

theorem use_tells {turn attempt : U32} {ordinal : U64} {usage : PolicyAttemptUsageV6}
    (used : before.use previous turn attempt ordinal usage = .ok after) :
    Tells (history ++ [⟨binding.limits, .policyAttemptUsage turn attempt ordinal usage⟩])
      after := by
  obtain ⟨intent, here, rfl, unused, observed, reservations, kept, marked⟩ := use_spec used
  have known := tells.known intent here
  obtain ⟨calls, next, reserved, raised⟩ := observe_spec (tells.costs intent known) observed
  have intents := (@intentsOf_append history
    ⟨binding.limits, .policyAttemptUsage turn attempt intent.reservation.ordinal usage⟩).trans
      (List.append_nil _)
  have usages := @usageOf_append history
    ⟨binding.limits, .policyAttemptUsage turn attempt intent.reservation.ordinal usage⟩
  have told : ∀ other, Recorded.usage other
      ⟨binding.limits, .policyAttemptUsage turn attempt intent.reservation.ordinal usage⟩ =
        if intent.reservation.ordinal = other then some usage else none := fun _ => rfl
  have fresh := tells.closed intent here unused
  constructor
  · constructor
    · rw [intents, calls, tells.calls]
    · rw [intents, next, tells.nextOrdinal]
    · rw [intents, tells.ordinals]
    · intro dimension
      unfold reservedTotal
      rw [intents, reserved, tells.reserved]
      rfl
    · intro dimension
      have distinct : (intentsOf history).Nodup := by
        refine List.Nodup.of_map (·.reservation.ordinal.val) ?_
        rw [tells.ordinals]
        exact List.nodup_range
      -- only the exposure of the attempt itself changes
      have others := sum_map_raise (g := exposureOf (history ++ [⟨binding.limits,
        .policyAttemptUsage turn attempt intent.reservation.ordinal usage⟩]) dimension)
          (f := exposureOf history dimension) distinct known fun other there different => by
            unfold exposureOf
            have other := fun same => different (tells.eq_of_ordinal there known same)
            rw [usages, told, if_neg fun same => other same.symm, Option.or_none]
      unfold exposureTotal
      rw [intents, others, raised, tells.exposure]
      unfold exposureTotal exposureOf
      rw [usages, told, if_pos rfl, fresh]
      rfl
    · exact throughout_append.mpr ⟨tells.admitted, fun _ intends => by cases intends⟩
  · rw [intents, reservations, tells.reservations]
  · rw [intents]
    exact tells.costs
  · intro other recorded
    rw [intents]
    rw [usages, told] at recorded
    by_cases same : intent.reservation.ordinal = other
    · rw [← same]
      exact tells.ordinal_lt known
    · rw [if_neg same, Option.or_none] at recorded
      exact tells.used other recorded
  · rw [intents, kept]
    exact tells.known
  · intro other there unmarked
    rw [kept] at there
    rw [marked, List.mem_append, List.mem_singleton, not_or] at unmarked
    rw [usages, told, if_neg fun same => unmarked.2 same.symm, Option.or_none]
    exact tells.closed other there unmarked.1

/-- An entry that says nothing of the policy. -/
theorem other_tells {recorded : Recorded}
    (none : recorded.intent = none) (silent : ∀ ordinal, recorded.usage ordinal = .none) :
    Tells (history ++ [recorded]) before := by
  have intents : intentsOf (history ++ [recorded]) = intentsOf history := by
    rw [intentsOf_append, none]
    exact List.append_nil _
  have usages : usageOf (history ++ [recorded]) = usageOf history := by
    funext ordinal
    rw [usageOf_append, silent, Option.or_none]
  have admitted : Throughout Admitted (history ++ [recorded]) :=
    throughout_append.mpr ⟨tells.admitted, fun _ here => by rw [none] at here; cases here⟩
  constructor
  · refine ⟨?_, ?_, ?_, ?_, ?_, admitted⟩
    · rw [intents, tells.calls]
    · rw [intents, tells.nextOrdinal]
    · rw [intents, tells.ordinals]
    · unfold reservedTotal
      rw [intents]
      exact tells.reserved
    · unfold exposureTotal exposureOf
      rw [intents, usages]
      exact tells.exposure
  · rw [intents, tells.reservations]
  · rw [intents]
    exact tells.costs
  · rw [intents, usages]
    exact tells.used
  · rw [intents]
    exact tells.known
  · rw [usages]
    exact tells.closed

theorem step_tells {entry : SourceJournalEntry} (stepped : before.step binding previous entry = .ok after) :
    Tells (history ++ [⟨binding.limits, entry⟩]) after := by
  unfold PolicyFoldV6.step at stepped
  split at stepped
  · exact reserve_tells tells stepped
  · exact use_tells tells stepped
  · next intends uses =>
      obtain rfl := Except.ok.inj stepped
      refine other_tells tells ?_ fun ordinal => ?_
      · unfold Recorded.intent
        split
        · next intent equal => exact absurd equal (intends intent)
        · rfl
      · unfold Recorded.usage
        split
        · next turn attempt told usage equal => exact absurd equal (uses turn attempt told usage)
        · rfl

theorem steps_tells {entries : List SourceJournalEntry}
    (stepped : PolicyFoldV6.steps binding previous before entries = .ok after) :
    Tells (history ++ entries.map fun entry => ⟨binding.limits, entry⟩) after := by
  induction entries generalizing history previous before with
  | nil =>
    obtain rfl := Except.ok.inj stepped
    rw [List.map_nil, List.append_nil]
    exact tells
  | cons entry rest ih =>
    obtain ⟨next, first, others⟩ := bind_eq_ok.mp stepped
    rw [List.map_cons, List.append_cons]
    exact ih (step_tells tells first) others

theorem Tells.restart : Tells history ⟨before.totals, before.reservations, [], []⟩ where
  toConserved := tells.toConserved
  reservations := tells.reservations
  costs := tells.costs
  used := tells.used
  known := List.forall_mem_nil _
  closed := List.forall_mem_nil _

end Telling

theorem tells_start : Tells [] (.start none) where
  calls := rfl
  nextOrdinal := rfl
  ordinals := rfl
  reserved := fun dimension => by cases dimension <;> rfl
  exposure := fun dimension => by cases dimension <;> rfl
  admitted := throughout_nil
  reservations := rfl
  costs := List.forall_mem_nil _
  used := fun _ told => absurd rfl told
  known := List.forall_mem_nil _
  closed := List.forall_mem_nil _

end Runs

section Offers

variable {binding : SourcePolicyBindingV6} {result : PolicyFoldV6} {intent : PolicyAttemptIntentV6}

theorem exists_addU64 {left right : U64} (limit : U64) (fits : left.val + right.val ≤ limit.val) :
    ∃ sum, addU64 left right = .ok sum :=
  ⟨⟨left.val + right.val, fits.trans limit.upper⟩, addU64_eq_ok.mpr rfl⟩

theorem exists_addI64 {left right : I64} (limit : I64) (nonneg : 0 ≤ right.val)
    (fits : left.val + right.val ≤ limit.val) : ∃ sum, addI64 left right = .ok sum :=
  ⟨⟨left.val + right.val, left.lower.trans (le_add_of_nonneg_right nonneg),
    fits.trans limit.upper⟩, addI64_eq_ok.mpr rfl⟩

/-- An intent that fits reserves: the sums of the reservations are within those of the exposure. -/
theorem reserve_of_fits {history : List Recorded} (tells : Tells history result)
    (fits : Fits binding result intent) : ∃ after, result.reserve binding intent = .ok after := by
  have below : ∀ dimension, result.totals.reserved dimension ≤ result.totals.exposure dimension :=
    fun dimension => by
      rw [tells.reserved, tells.exposure]
      exact reservedTotal_le dimension
  have belowContext : (result.totals.reservedContextTokens.val : Int) ≤
      result.totals.exposureContextTokens.val := below .contextTokens
  have belowOutput : (result.totals.reservedOutputTokens.val : Int) ≤
      result.totals.exposureOutputTokens.val := below .outputTokens
  have belowCost : result.totals.reservedCostMicros.val ≤ result.totals.exposureCostMicros.val :=
    below .costMicros
  have aggregate : (result.totals.exposureContextTokens.val : Int) +
      result.totals.exposureOutputTokens.val + intent.reservation.reservedContextTokens.val +
        intent.reservation.reservedOutputTokens.val ≤ binding.limits.maxAggregateTokens.val :=
    fits.aggregate
  have cost : result.totals.exposureCostMicros.val + intent.reservation.reservedCostMicros.val ≤
    binding.limits.maxCostMicros.val := fits.cost
  have calls : result.totals.calls.val < binding.limits.maxCalls.val := fits.calls
  have top := binding.limits.maxCalls.upper
  have one : (1 : U32).val = 1 := rfl
  have one' : (1 : U64).val = 1 := rfl
  have same : result.totals.nextOrdinal.val = result.totals.calls.val :=
    tells.nextOrdinal.trans tells.calls.symm
  obtain ⟨costs, costSum⟩ := exists_addI64 _ fits.nonneg cost
  have costSum' := addI64_eq_ok.mp costSum
  obtain ⟨reservedContext, first⟩ : ∃ sum, addU64 result.totals.reservedContextTokens
    intent.reservation.reservedContextTokens = .ok sum :=
      exists_addU64 binding.limits.maxAggregateTokens (by omega)
  obtain ⟨reservedOutput, second⟩ : ∃ sum, addU64 result.totals.reservedOutputTokens
    intent.reservation.reservedOutputTokens = .ok sum :=
      exists_addU64 binding.limits.maxAggregateTokens (by omega)
  obtain ⟨reservedCost, third⟩ : ∃ sum, addI64 result.totals.reservedCostMicros
    intent.reservation.reservedCostMicros = .ok sum :=
      exists_addI64 binding.limits.maxCostMicros fits.nonneg (by omega)
  obtain ⟨exposureContext, fourth⟩ : ∃ sum, addU64 result.totals.exposureContextTokens
    intent.reservation.reservedContextTokens = .ok sum :=
      exists_addU64 binding.limits.maxAggregateTokens (by omega)
  obtain ⟨exposureOutput, fifth⟩ : ∃ sum, addU64 result.totals.exposureOutputTokens
    intent.reservation.reservedOutputTokens = .ok sum :=
      exists_addU64 binding.limits.maxAggregateTokens (by omega)
  unfold PolicyFoldV6.reserve
  simp only [bind_eq_ok, insist_eq_ok, okOr_eq_ok, addTokens_eq_some, Word.checkedAdd_eq_some]
  refine ⟨_, (), ⟨fits.ordinal, fits.kind, fits.provider, fits.nonneg, fits.context, fits.output,
    fits.units, fits.response⟩, ⟨result.totals.exposureContextTokens.val +
      result.totals.exposureOutputTokens.val + intent.reservation.reservedContextTokens.val +
        intent.reservation.reservedOutputTokens.val, ?_⟩, rfl, costs, costSum, (),
    ⟨fits.calls, ?_, ?_⟩, ⟨result.totals.calls.val + 1, by omega⟩, rfl, reservedContext, first,
    reservedOutput, second, reservedCost, third, exposureContext, fourth, exposureOutput, fifth,
    ⟨result.totals.nextOrdinal.val + 1, ?_⟩, rfl, rfl⟩
  · have upper := binding.limits.maxAggregateTokens.upper
    omega
  · show _ + _ + _ + _ ≤ binding.limits.maxAggregateTokens.val
    omega
  · show costs.val ≤ binding.limits.maxCostMicros.val
    omega
  · omega

theorem within_eq_true {A : Type} [LE A] [DecidableLE A] {sum : Option A} {limit : A} :
    within sum limit = true ↔ ∃ value, sum = some value ∧ value ≤ limit := by
  unfold within
  rw [Option.any_eq_true]
  exact exists_congr fun value => and_congr_right fun _ => decide_eq_true_iff

variable {sha256 : Bytes → Bytes}

theorem policyAttemptIntent_fits {journal : SourceJournal} {turn attempt : U32}
    {requestDigest promptDigest : String} {requestBytes : Nat} {quote : SourcePolicyQuoteV6}
    (built : journal.policyAttemptIntent sha256 turn attempt requestDigest promptDigest requestBytes
      quote = .ok intent) :
    ∃ folded, fold journal.binding journal.entries = .ok folded ∧
      Fits journal.binding.policy folded intent := by
  unfold SourceJournal.policyAttemptIntent at built
  simp only [bind_eq_ok, insist_eq_ok, within_eq_true, addTokens_eq_some] at built
  obtain ⟨_, ⟨-, -, -, nonneg, -⟩, folded, here, _,
    ⟨calls, context, output, ⟨tokens, sum, aggregate⟩, ⟨money, costs, cost⟩⟩, same⟩ := built
  obtain rfl := Except.ok.inj same
  refine ⟨folded, here, rfl, rfl, rfl, nonneg, context, output, journal.binding.reserving,
    journal.binding.responding, calls, ?_, ?_⟩
  · have aggregate : tokens.val ≤ journal.binding.policy.limits.maxAggregateTokens.val := aggregate
    show (folded.totals.exposureContextTokens.val : Int) + folded.totals.exposureOutputTokens.val +
      quote.contextTokens.val + quote.outputTokens.val ≤ _
    omega
  · have sum : folded.totals.exposureCostMicros.val + quote.estimatedCostMicros.val = money.val :=
      I64.checked_eq_some.mp costs
    show folded.totals.exposureCostMicros.val + quote.estimatedCostMicros.val ≤ _
    rw [sum]
    exact cost

theorem steps_append {previous : Option SourceJournalEntry} {before after : PolicyFoldV6}
    {entries : List SourceJournalEntry}
    (stepped : PolicyFoldV6.steps binding previous before entries = .ok result)
    (reserved : result.reserve binding intent = .ok after) :
    PolicyFoldV6.steps binding previous before (entries ++ [.policyAttemptIntent intent]) =
      .ok after := by
  induction entries generalizing previous before with
  | nil =>
    obtain rfl := Except.ok.inj stepped
    exact bind_eq_ok.mpr ⟨after, reserved, rfl⟩
  | cons entry rest ih =>
    obtain ⟨next, first, others⟩ := bind_eq_ok.mp stepped
    exact bind_eq_ok.mpr ⟨next, first, ih others⟩

end Offers

section Chains

variable (sha256 : Bytes → Bytes) (checks : CausalChecks)

/-- A journal that was accepted, after the closed ones of its chain. The first invocation takes over
nothing; every other one is bound to a carry that was made from the checkpoint before it. -/
inductive Chain : List SourceJournal → SourceJournal → ExecutionFold → Prop
  | opened {journal : SourceJournal} {folded : ExecutionFold} (first : journal.binding.carry = none)
      (accepted : validate sha256 checks journal.binding journal.entries = .ok folded) :
      Chain [] journal folded
  | migrated {earlier : List SourceJournal} {predecessor journal : SourceJournal}
      {closed folded : ExecutionFold} {generation : U64} {chain : String}
      {checkpoint : RecoveredSourceCheckpoint} {base : SourceMigrationCarry}
      {destination : SourcePolicyBindingV6} {carry : PolicyMigrationCarryV6}
      (before : Chain earlier predecessor closed)
      (recovered : recoverSourceCheckpoint sha256 checks predecessor generation chain =
        .ok checkpoint)
      (carried : PolicyMigrationCarryV6.fromPredecessor sha256 base predecessor.binding checkpoint
        destination = .ok carry)
      (bound : journal.binding.carry = some carry)
      (accepted : validate sha256 checks journal.binding journal.entries = .ok folded) :
      Chain (earlier ++ [predecessor]) journal folded

variable {sha256 checks}

variable {folded : ExecutionFold}

theorem validate_policy {binding : SourceInvocationBinding} {entries : List SourceJournalEntry}
    (accepted : validate sha256 checks binding entries = .ok folded) :
    ∃ policy, fold binding entries = .ok policy ∧ folded.policy = some policy := by
  unfold validate at accepted
  simp only [bind_eq_ok] at accepted
  obtain ⟨_, -, _, -, policy, here, _, -, same⟩ := accepted
  obtain rfl := Except.ok.inj same
  exact ⟨policy, here, rfl⟩

theorem fromPredecessor_policy {predecessor : SourceJournal} {generation : U64} {chain : String}
    {checkpoint : RecoveredSourceCheckpoint} {base : SourceMigrationCarry}
    {destination : SourcePolicyBindingV6} {carry : PolicyMigrationCarryV6} {policy : PolicyFoldV6}
    (here : fold predecessor.binding predecessor.entries = .ok policy)
    (recovered : recoverSourceCheckpoint sha256 checks predecessor generation chain =
      .ok checkpoint)
    (carried : PolicyMigrationCarryV6.fromPredecessor sha256 base predecessor.binding checkpoint
      destination = .ok carry) :
    carry.totals = policy.totals ∧ carry.reservations = policy.reservations := by
  obtain ⟨folded, accepted, same⟩ := bind_eq_ok.mp recovered
  obtain rfl := Except.ok.inj same
  obtain ⟨found, again, told⟩ := validate_policy accepted
  obtain rfl := Except.ok.inj (here.symm.trans again)
  unfold PolicyMigrationCarryV6.fromPredecessor at carried
  simp only [bind_eq_ok, okOr_eq_ok, told] at carried
  obtain ⟨totals, total, _, -, rest⟩ := carried
  obtain rfl := Option.some.inj total
  split at rest
  · simp only [bind_eq_ok] at rest
    obtain ⟨_, -, _, -, _, -, same⟩ := rest
    obtain rfl := Except.ok.inj same
    exact ⟨rfl, rfl⟩
  · cases rest

theorem chain_tells {earlier : List SourceJournal} {journal : SourceJournal}
    (linked : Chain sha256 checks earlier journal folded) :
    ∃ policy, fold journal.binding journal.entries = .ok policy ∧ folded.policy = some policy ∧
      Tells (historyOf (earlier ++ [journal])) policy := by
  induction linked with
  | @opened journal folded first accepted =>
    obtain ⟨policy, here, told⟩ := validate_policy accepted
    refine ⟨policy, here, told, ?_⟩
    unfold fold at here
    rw [first] at here
    have all := steps_tells tells_start here
    rw [List.nil_append] at all
    rwa [List.nil_append, historyOf, List.flatMap_singleton]
  | @migrated earlier predecessor journal closed folded generation chain checkpoint base destination
      carry before recovered carried bound accepted ih =>
    obtain ⟨past, closing, -, tells⟩ := ih
    obtain ⟨policy, here, told⟩ := validate_policy accepted
    refine ⟨policy, here, told, ?_⟩
    obtain ⟨totals, reservations⟩ := fromPredecessor_policy closing recovered carried
    unfold fold at here
    rw [bound] at here
    have start : PolicyFoldV6.start (some carry) =
        ⟨past.totals, past.reservations, [], []⟩ := by
      rw [← totals, ← reservations]
      rfl
    rw [start] at here
    have all := steps_tells tells.restart here
    rwa [historyOf, List.flatMap_append, List.flatMap_singleton]

end Chains

def twoCalls : SourcePolicyBindingV6 where
  modelBindingDigest := "model"
  policyBindingDigest := "policy"
  providerId := "provider.a"
  limits := ⟨2, 0, 0, 10, 10, 12, 100, 0⟩

theorem three_units_pos : 0 < (3 : I64).val := by decide

/-- An invocation that takes over nothing, before its first entry. -/
def openedJournal : SourceJournal where
  binding := {
    invocation := "invocation", proposalSource := "source", responseLimit := 32, maxIterations := 2
    maxStages := 8, maxAttempts := 2, ceiling := 6, reservationUnits := 3, unit := "fixed_units"
    clockDomain := "stable_ms", initialMillis := 0, deadlineMillis := 100, evaluator := "evaluator"
    maxStepsPerStage := 10, maxTotalSteps := 100, policy := twoCalls, carry := none, io := none
    programRoot := none, reserving := three_units_pos
    responding := by decide }
  entries := []
  lastCheckedMillis := 0

/-- What the other checks say of a journal without entries. -/
def emptyChecks : CausalChecks where
  validateInner := fun _ _ => .ok ⟨0, 0, 0, 0, 0, none, none⟩
  ioFold := fun _ _ => .ok none

end Semaprax.SourceJournals
