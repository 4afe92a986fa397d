/-
**The layered invariant of the breadth-first loop.**

`Layered` is what holds of the loop's variables between two pops. Every visited state carries a
depth; the frontier is sorted by depth and spans at most two neighbouring levels; a visited state
that is no longer queued is either fully expanded (its successors are visited, at most one deeper)
or was cut at `maxDepth`, which sets `depthBoundHit`; and the parent index takes every visited state
that is not initial one level up along an enabled event.

* `ReachesIn.visited` — everything reachable in fewer steps than the first uncut, unexpanded depth
  has been visited, hence checked.
* `reconstructTrace_spec` — the parent index spells a path from an initial state of exactly that
  depth, within the fuel.
* `exploreEvents_meets`, `exploreState_meets`, `exploreLoop_meets` — one event, one pop, the whole
  loop: the invariant is kept, or the report meets its specification `Outcome.Meets`.
* `explore_meets` — the exploration always returns, and its outcome meets the specification.
-/

import Semaprax.Library.Reachability
import Semaprax.ModelChecking.Engine

namespace Semaprax.ModelChecking

open Library

section Specification

variable {S E D : Type*}

def TransitionSystem.Initial (system : TransitionSystem S E) (state : S) : Prop :=
  state ∈ system.initialStates

/-- One step: an enabled event that `apply` accepts. -/
def TransitionSystem.Next (system : TransitionSystem S E) (state next : S) : Prop :=
  ∃ event ∈ system.enabledEvents state, system.apply state event = some next

/-- The chain of steps `trace` leads from `first` to `last`: each event is enabled in the state it
leaves, `apply` takes it to the state recorded, and consecutive steps agree. -/
def TransitionSystem.Leads (system : TransitionSystem S E) : S → Trace S E → S → Prop
  | first, [], last => first = last
  | first, step :: rest, last =>
    step.source = first ∧ step.event ∈ system.enabledEvents step.source ∧
      system.apply step.source step.event = some step.target ∧
      system.Leads step.target rest last

theorem TransitionSystem.Leads.snoc {system : TransitionSystem S E} {first last next : S}
    {event : E} {trace : Trace S E} (leads : system.Leads first trace last)
    (enabled : event ∈ system.enabledEvents last) (applied : system.apply last event = some next) :
    system.Leads first (trace ++ [⟨last, event, next⟩]) next := by
  induction trace generalizing first with
  | nil =>
    obtain rfl : first = last := leads
    exact ⟨rfl, enabled, applied, rfl⟩
  | cons step rest ih =>
    obtain ⟨source, stepEnabled, stepApplied, tail⟩ := leads
    exact ⟨source, stepEnabled, stepApplied, ih tail⟩

/-- What each outcome of the shared loop promises. -/
def Outcome.Meets (system : TransitionSystem S E) (bounds : Bounds) (defect : S → Option D) :
    Outcome S E D → Prop
  | .closed => ∀ state, Reaches system.Initial system.Next state →
      defect state = none ∧ (system.enabledEvents state = [] → system.isTerminal state = true)
  | .found trace name => ∃ first last, system.Initial first ∧ system.Leads first trace last ∧
      defect last = some name ∧
      ∀ n state, ReachesIn system.Initial system.Next n state → n < trace.length →
        defect state = none
  | .deadState trace => ∃ first last, system.Initial first ∧ system.Leads first trace last ∧
      system.enabledEvents last = [] ∧ system.isTerminal last = false
  | .emptyStateSpace => system.initialStates = []
  | .boundExhausted .maxDepth => ∀ n state, ReachesIn system.Initial system.Next n state →
      n ≤ bounds.maxDepth → defect state = none
  | .boundExhausted _ => True

end Specification

variable {S E D : Type*} [LinearOrder S]

/-- The successors of `state` have been visited, at most one level deeper. -/
def Search.Expanded (system : TransitionSystem S E) (depthOf : S → Nat) (search : Search S E)
    (state : S) : Prop :=
  (∀ next, system.Next state next → next ∈ search.visited ∧ depthOf next ≤ depthOf state + 1) ∧
  (system.enabledEvents state = [] → system.isTerminal state = true)

/-- How a visited state came to be: it is initial and has no parent, or its parent is a visited
state one level up. -/
def Search.Parented (system : TransitionSystem S E) (depthOf : S → Nat) (search : Search S E)
    (state : S) : Prop :=
  (search.parent[state]? = none ∧ system.Initial state ∧ depthOf state = 0) ∨
  ∃ previous event, search.parent[state]? = some (previous, event) ∧
    previous ∈ search.visited ∧ event ∈ system.enabledEvents previous ∧
    system.apply previous event = some state ∧ depthOf state = depthOf previous + 1

/-- The layered invariant. `level` is a lower bound of the queued depths, and `busy` is the state
whose events are being tried, if there is one. -/
structure Layered (system : TransitionSystem S E) (bounds : Bounds) (defect : S → Option D)
    (depthOf : S → Nat) (level : Nat) (busy : Option S) (search : Search S E) : Prop where
  initials : ∀ state, system.Initial state → state ∈ search.visited ∧ depthOf state = 0
  clean : ∀ state ∈ search.visited, defect state = none
  queued : ∀ entry ∈ search.frontier, entry.1 ∈ search.visited ∧ entry.2 = depthOf entry.1
  sorted : search.frontier.Pairwise (·.2 ≤ ·.2)
  spans : ∀ entry ∈ search.frontier, level ≤ entry.2 ∧ entry.2 ≤ level + 1
  shallow : ∀ state ∈ search.visited, depthOf state ≤ level + 1
  settled : ∀ state ∈ search.visited, (∃ entry ∈ search.frontier, entry.1 = state) ∨
    busy = some state ∨ search.Expanded system depthOf state ∨
    (bounds.maxDepth ≤ depthOf state ∧ search.depthBoundHit = true)
  parents : ∀ state ∈ search.visited, search.Parented system depthOf state
  indexed : ∀ state ∈ search.visited, depthOf state ≤ search.parent.size
  unindexed : ∀ state, state ∉ search.visited → search.parent[state]? = none

variable {system : TransitionSystem S E} {bounds : Bounds} {defect : S → Option D}
  {depthOf : S → Nat} {level : Nat} {busy : Option S} {search : Search S E}

variable {n depth : Nat}

section Layers

variable (inv : Layered system bounds defect depthOf level busy search)

include inv

/-- Everything reachable in at most `limit` steps has been visited, as soon as every visited state
above that level is expanded. -/
theorem Layered.visited_of_reachesIn
    {limit : Nat} (expanded : ∀ state ∈ search.visited, depthOf state < limit →
      search.Expanded system depthOf state)
    {state : S} (reached : ReachesIn system.Initial system.Next n state)
    (within : n ≤ limit) : state ∈ search.visited :=
  (reached.covered (P := (· ∈ search.visited)) (d := depthOf) inv.initials
    (fun s t seen shallow move => (expanded s seen shallow).1 t move) within).1

/-- A visited state above the current level and above the depth bound is expanded: it is neither
queued, nor busy, nor cut. -/
theorem Layered.expanded_of_lt
    (busyDepth : ∀ state, busy = some state → level ≤ depthOf state) {state : S}
    (seen : state ∈ search.visited) (above : depthOf state < level)
    (uncut : depthOf state < bounds.maxDepth) : search.Expanded system depthOf state := by
  rcases inv.settled state seen with ⟨entry, member, rfl⟩ | same | expanded | ⟨cut, _⟩
  · have depth := (inv.queued entry member).2
    have lower := (inv.spans entry member).1
    omega
  · have := busyDepth state same
    omega
  · exact expanded
  · omega

/-- From a visited state the parent walk ends at an initial state, after `depthOf` steps. -/
theorem Layered.reconstructSteps_spec :
    ∀ (depth fuel : Nat) (state : S), state ∈ search.visited → depthOf state = depth →
      depth < fuel →
      ∃ steps first, reconstructSteps search.parent fuel state = some steps ∧
        system.Initial first ∧ system.Leads first steps.reverse state ∧ steps.length = depth := by
  intro depth
  induction depth with
  | zero =>
    intro fuel state seen atTop enough
    obtain ⟨fuel, rfl⟩ : ∃ k, fuel = k + 1 := ⟨fuel - 1, by omega⟩
    rcases inv.parents state seen with ⟨noParent, initial, _⟩ | ⟨_, _, _, _, _, _, deeper⟩
    · exact ⟨[], state, by simp [reconstructSteps, noParent], initial, rfl, rfl⟩
    · omega
  | succ depth ih =>
    intro fuel state seen atDepth enough
    obtain ⟨fuel, rfl⟩ : ∃ k, fuel = k + 1 := ⟨fuel - 1, by omega⟩
    rcases inv.parents state seen with
      ⟨_, _, atTop⟩ | ⟨previous, event, parent, seenPrevious, enabled, applied, deeper⟩
    · omega
    · obtain ⟨steps, first, walked, initial, leads, count⟩ :=
        ih fuel previous seenPrevious (by omega) (by omega)
      refine ⟨⟨previous, event, state⟩ :: steps, first, ?_, initial, ?_, ?_⟩
      · simp [reconstructSteps, parent, walked]
      · rw [List.reverse_cons]
        exact leads.snoc enabled applied
      · rw [List.length_cons, count]

theorem Layered.reconstructTrace_spec {state : S} (seen : state ∈ search.visited) :
    ∃ trace first, reconstructTrace search.parent state = some trace ∧ system.Initial first ∧
      system.Leads first trace state ∧ trace.length = depthOf state := by
  obtain ⟨steps, first, walked, initial, leads, count⟩ :=
    inv.reconstructSteps_spec (depthOf state) (search.parent.size + 1) state seen rfl
      (by have := inv.indexed state seen; omega)
  exact ⟨steps.reverse, first, by simp [reconstructTrace, walked], initial, leads, by simp [count]⟩

end Layers

/-- The states queued so far are exactly the visited ones, all at depth `0`, without parents. -/
structure Fresh (system : TransitionSystem S E) (search : Search S E) : Prop where
  initials : ∀ state ∈ search.visited, system.Initial state
  queued : ∀ entry ∈ search.frontier, entry.1 ∈ search.visited ∧ entry.2 = 0
  covers : ∀ state ∈ search.visited, ∃ entry ∈ search.frontier, entry.1 = state
  noParent : ∀ state : S, search.parent[state]? = none
  uncounted : search.exploredStates = 0

theorem initial_foldl_fresh (states : List S) (search : Search S E) (fresh : Fresh system search)
    (initial : ∀ state ∈ states, system.Initial state) :
    let after := states.foldl
      (fun search state =>
        if search.visited.contains state then search
        else
          { search with
            visited := search.visited.insert state
            frontier := search.frontier ++ [(state, 0)] }) search
    Fresh system after ∧ (∀ state ∈ search.visited, state ∈ after.visited) ∧
      ∀ state ∈ states, state ∈ after.visited := by
  induction states generalizing search with
  | nil => exact ⟨fresh, fun _ seen => seen, by simp⟩
  | cons head tail ih =>
    have tailInitial : ∀ state ∈ tail, system.Initial state := fun state member =>
      initial state (List.mem_cons_of_mem _ member)
    rw [List.foldl_cons]
    by_cases known : search.visited.contains head
    · rw [if_pos known]
      obtain ⟨after, keeps, covers⟩ := ih search fresh tailInitial
      refine ⟨after, keeps, fun state member => ?_⟩
      rcases List.mem_cons.mp member with rfl | member
      · exact keeps _ (Std.TreeSet.contains_iff_mem.mp known)
      · exact covers state member
    · rw [if_neg known]
      have grown : Fresh system { search with
          visited := search.visited.insert head
          frontier := search.frontier ++ [(head, 0)] } := by
        refine ⟨fun state member => ?_, fun entry member => ?_, fun state member => ?_,
          fresh.noParent, fresh.uncounted⟩
        · rcases (BTreeSet.mem_insert_iff _ _ _).mp member with rfl | member
          · exact initial _ List.mem_cons_self
          · exact fresh.initials state member
        · rcases List.mem_append.mp member with member | member
          · obtain ⟨seen, depth⟩ := fresh.queued entry member
            exact ⟨(BTreeSet.mem_insert_iff _ _ _).mpr (.inr seen), depth⟩
          · obtain rfl := List.mem_singleton.mp member
            exact ⟨(BTreeSet.mem_insert_iff _ _ _).mpr (.inl rfl), rfl⟩
        · rcases (BTreeSet.mem_insert_iff _ _ _).mp member with rfl | member
          · exact ⟨(_, 0), List.mem_append_right _ (List.mem_singleton.mpr rfl), rfl⟩
          · obtain ⟨entry, member, same⟩ := fresh.covers state member
            exact ⟨entry, List.mem_append_left _ member, same⟩
      obtain ⟨after, keeps, covers⟩ := ih _ grown tailInitial
      refine ⟨after, fun state seen => keeps _ ((BTreeSet.mem_insert_iff _ _ _).mpr (.inr seen)),
        fun state member => ?_⟩
      rcases List.mem_cons.mp member with rfl | member
      · exact keeps _ ((BTreeSet.mem_insert_iff _ _ _).mpr (.inl rfl))
      · exact covers state member

/-- Before the loop the invariant holds with every depth `0`, for any list of initial states
without the defect. -/
theorem initial_layered (clean : ∀ state ∈ system.initialStates, defect state = none) :
    Layered system bounds defect (fun _ => 0) 0 none
        (Search.initial (E := E) system.initialStates) ∧
      (Search.initial (E := E) system.initialStates).exploredStates = 0 := by
  have nothing : Fresh system (⟨∅, ∅, [], 0, 0, 0, false⟩ : Search S E) :=
    ⟨fun _ member => absurd member Std.TreeSet.not_mem_emptyc, by simp,
      fun _ member => absurd member Std.TreeSet.not_mem_emptyc,
      fun _ => Std.TreeMap.getElem?_emptyc, rfl⟩
  obtain ⟨fresh, _, covers⟩ :=
    initial_foldl_fresh system.initialStates _ nothing fun _ member => member
  refine ⟨⟨fun state initial => ⟨covers state initial, rfl⟩,
    fun state seen => clean state (fresh.initials state seen),
    fun entry member => fresh.queued entry member, ?_, fun entry member => ?_,
    fun _ _ => Nat.zero_le _, fun state seen => .inl (fresh.covers state seen),
    fun state seen => .inl ⟨fresh.noParent state, fresh.initials state seen, rfl⟩,
    fun _ _ => Nat.zero_le _, fun state _ => fresh.noParent state⟩, fresh.uncounted⟩
  · refine List.pairwise_of_forall_mem_list fun first inFirst second inSecond => ?_
    rw [(fresh.queued first inFirst).2, (fresh.queued second inSecond).2]
  · rw [(fresh.queued entry member).2]
    exact ⟨le_rfl, Nat.zero_le _⟩

/-- What one pass of a loop body owes: the invariant, if the search goes on; a report that meets
the specification, if the function returns. -/
def Flow.Meets (system : TransitionSystem S E) (bounds : Bounds) (defect : S → Option D)
    (exploredStates : Nat) : Flow S E D → Prop
  | .goOn search => search.exploredStates = exploredStates ∧
      ∃ depthOf level, Layered system bounds defect depthOf level none search
  | .stop report => ∃ result, report = some result ∧ result.outcome.Meets system bounds defect

theorem Layered.recount (inv : Layered system bounds defect depthOf level busy search)
    (counted : Search S E) (visited : counted.visited = search.visited)
    (parent : counted.parent = search.parent) (frontier : counted.frontier = search.frontier)
    (hit : counted.depthBoundHit = search.depthBoundHit) :
    Layered system bounds defect depthOf level busy counted := by
  obtain ⟨_, _, _, _, _, _, _⟩ := counted
  obtain ⟨_, _, _, _, _, _, _⟩ := search
  simp only at visited parent frontier hit
  subst visited parent frontier hit
  exact ⟨inv.initials, inv.clean, inv.queued, inv.sorted, inv.spans, inv.shallow, inv.settled,
    inv.parents, inv.indexed, inv.unindexed⟩

theorem Layered.discover {state next : S} {event : E}
    (inv : Layered system bounds defect depthOf depth (some state) search)
    (atDepth : depthOf state = depth)
    (seen : state ∈ search.visited) (enabled : event ∈ system.enabledEvents state)
    (applied : system.apply state event = some next) (cleanNext : defect next = none)
    (fresh : next ∉ search.visited) :
    Layered system bounds defect (Function.update depthOf next (depth + 1)) depth (some state)
      (search.discover state depth event next) := by
  subst atDepth
  have differs : ∀ x ∈ search.visited, x ≠ next := fun x member same => fresh (same ▸ member)
  have kept : ∀ x ∈ search.visited,
      Function.update depthOf next (depthOf state + 1) x = depthOf x := fun x member =>
    Function.update_of_ne (differs x member) _ _
  have grows : ∀ x ∈ search.visited,
      x ∈ (search.discover state (depthOf state) event next).visited := fun x member =>
    (BTreeSet.mem_insert_iff _ _ _).mpr (.inr member)
  have parentKept : ∀ x, x ≠ next →
      (search.discover state (depthOf state) event next).parent[x]? = search.parent[x]? := by
    intro x differ
    rw [Search.discover, BTreeMap.getElem?_insert_eq, if_neg (Ne.symm differ)]
  have size : (search.discover state (depthOf state) event next).parent.size
      = search.parent.size + 1 :=
    BTreeMap.size_insert_fresh _ _ _ (inv.unindexed next fresh)
  constructor
  case initials =>
    intro x initial
    obtain ⟨member, depth⟩ := inv.initials x initial
    exact ⟨grows x member, by rw [kept x member, depth]⟩
  case clean =>
    intro x member
    rcases (BTreeSet.mem_insert_iff _ _ _).mp member with rfl | member
    · exact cleanNext
    · exact inv.clean x member
  case queued =>
    intro entry member
    rcases List.mem_append.mp member with member | member
    · obtain ⟨inside, depth⟩ := inv.queued entry member
      exact ⟨grows _ inside, by rw [kept _ inside, depth]⟩
    · obtain rfl := List.mem_singleton.mp member
      refine ⟨(BTreeSet.mem_insert_iff _ _ _).mpr (.inl rfl), ?_⟩
      show depthOf state + 1 = Function.update depthOf next (depthOf state + 1) next
      rw [Function.update_self]
  case sorted =>
    refine List.pairwise_append.mpr ⟨inv.sorted, List.pairwise_singleton _ _, ?_⟩
    intro first inFirst second inSecond
    obtain rfl := List.mem_singleton.mp inSecond
    exact (inv.spans first inFirst).2
  case spans =>
    intro entry member
    rcases List.mem_append.mp member with member | member
    · exact inv.spans entry member
    · obtain rfl := List.mem_singleton.mp member
      exact ⟨Nat.le_succ _, le_rfl⟩
  case shallow =>
    intro x member
    rcases (BTreeSet.mem_insert_iff _ _ _).mp member with rfl | member
    · rw [Function.update_self]
    · rw [kept x member]
      exact inv.shallow x member
  case settled =>
    intro x member
    rcases (BTreeSet.mem_insert_iff _ _ _).mp member with rfl | member
    · exact .inl ⟨(_, _), List.mem_append_right _ (List.mem_singleton.mpr rfl), rfl⟩
    · rcases inv.settled x member with ⟨entry, inside, same⟩ | same | ⟨closed, terminal⟩ | cut
      · exact .inl ⟨entry, List.mem_append_left _ inside, same⟩
      · exact .inr (.inl same)
      · refine .inr (.inr (.inl ⟨fun y move => ?_, terminal⟩))
        obtain ⟨inside, depth⟩ := closed y move
        exact ⟨grows y inside, by rw [kept y inside, kept x member]; exact depth⟩
      · refine .inr (.inr (.inr ?_))
        rw [kept x member]
        exact cut
  case parents =>
    intro x member
    rcases (BTreeSet.mem_insert_iff _ _ _).mp member with rfl | member
    · refine .inr ⟨state, event, ?_, grows state seen, enabled, applied, ?_⟩
      · rw [Search.discover, BTreeMap.getElem?_insert_eq, if_pos rfl]
      · rw [Function.update_self, kept state seen]
    · rcases inv.parents x member with
        ⟨noParent, initial, depth⟩ | ⟨previous, by', parent, inside, enabled', applied', depth⟩
      · exact .inl ⟨by rw [parentKept x (differs x member), noParent], initial,
          by rw [kept x member, depth]⟩
      · exact .inr ⟨previous, by', by rw [parentKept x (differs x member), parent],
          grows _ inside, enabled', applied', by rw [kept x member, kept _ inside, depth]⟩
  case indexed =>
    intro x member
    rw [size]
    rcases (BTreeSet.mem_insert_iff _ _ _).mp member with rfl | member
    · rw [Function.update_self]
      exact Nat.succ_le_succ (inv.indexed state seen)
    · rw [kept x member]
      exact Nat.le_succ_of_le (inv.indexed x member)
  case unindexed =>
    intro x absent
    have notNext : x ≠ next := fun same =>
      absent ((BTreeSet.mem_insert_iff _ _ _).mpr (.inl same.symm))
    rw [parentKept x notNext]
    exact inv.unindexed x fun member => absent (grows x member)

theorem Layered.finish {state : S}
    (inv : Layered system bounds defect depthOf level (some state) search)
    (expanded : search.Expanded system depthOf state) :
    Layered system bounds defect depthOf level none search := by
  refine { inv with settled := fun x member => ?_ }
  rcases inv.settled x member with queued | same | expanded' | cut
  · exact .inl queued
  · obtain rfl := Option.some.inj same
    exact .inr (.inr (.inl expanded))
  · exact .inr (.inr (.inl expanded'))
  · exact .inr (.inr (.inr cut))

theorem Layered.minimal {state : S}
    (inv : Layered system bounds defect depthOf depth (some state) search)
    (atDepth : depthOf state = depth) (uncut : depth < bounds.maxDepth) {x : S}
    (reached : ReachesIn system.Initial system.Next n x) (closer : n ≤ depth) :
    defect x = none := by
  refine inv.clean x (inv.visited_of_reachesIn ?_ reached closer)
  intro y seen above
  refine inv.expanded_of_lt (fun z same => ?_) seen above (above.trans uncut)
  obtain rfl := Option.some.inj same
  exact atDepth.ge

/-- The event loop: with `tried` already tried and `events` still to try, it ends with the state
expanded, or with a report that meets its specification. -/
theorem exploreEvents_meets (state : S) (uncut : depth < bounds.maxDepth)
    (nonempty : system.enabledEvents state ≠ []) (tried events : List E)
    (split : system.enabledEvents state = tried ++ events)
    (inv : Layered system bounds defect depthOf depth (some state) search)
    (atDepth : depthOf state = depth) (seen : state ∈ search.visited)
    (done : ∀ event ∈ tried, ∀ next, system.apply state event = some next → next ∈ search.visited) :
    (exploreEvents system bounds defect state depth events search).Meets system bounds defect
      search.exploredStates := by
  induction events generalizing tried depthOf search with
  | nil =>
    refine ⟨rfl, depthOf, depth, inv.finish ⟨fun next move => ?_, fun empty => ?_⟩⟩
    · obtain ⟨event, enabled, applied⟩ := move
      rw [split, List.append_nil] at enabled
      have member := done event enabled next applied
      exact ⟨member, by rw [atDepth]; exact inv.shallow next member⟩
    · exact absurd empty nonempty
  | cons event events ih =>
    have split' : system.enabledEvents state = (tried ++ [event]) ++ events := by
      rw [split, List.append_assoc, List.singleton_append]
    have enabled : event ∈ system.enabledEvents state := by
      rw [split]
      exact List.mem_append_right _ List.mem_cons_self
    rw [exploreEvents]
    by_cases full : search.exploredTransitions ≥ bounds.maxTransitions
    · rw [if_pos full]
      exact ⟨_, rfl, trivial⟩
    rw [if_neg full]
    cases applied : system.apply state event with
    | none =>
      refine ih (tried ++ [event]) split' inv atDepth seen fun other member next applied' => ?_
      rcases List.mem_append.mp member with member | member
      · exact done other member next applied'
      · obtain rfl := List.mem_singleton.mp member
        rw [applied] at applied'
        cases applied'
    | some next =>
      have counted : Layered system bounds defect depthOf depth (some state)
          { search with exploredTransitions := search.exploredTransitions + 1 } :=
        inv.recount _ rfl rfl rfl rfl
      have doneNext : ∀ visited : BTreeSet S, (∀ x ∈ search.visited, x ∈ visited) →
          next ∈ visited → ∀ other ∈ tried ++ [event], ∀ target,
            system.apply state other = some target → target ∈ visited := by
        intro visited grows member other inside target applied'
        rcases List.mem_append.mp inside with inside | inside
        · exact grows _ (done other inside target applied')
        · obtain rfl := List.mem_singleton.mp inside
          rw [applied] at applied'
          obtain rfl := Option.some.inj applied'
          exact member
      cases found : defect next with
      | some name =>
        obtain ⟨trace, first, walked, initial, leads, count⟩ :=
          inv.reconstructTrace_spec seen
        simp only [found, walked, Option.map_some]
        refine ⟨_, rfl, first, next, initial, leads.snoc enabled applied, found,
          fun n x reached shorter => inv.minimal atDepth uncut reached ?_⟩
        rw [List.length_append, count, atDepth, List.length_singleton] at shorter
        exact Nat.le_of_lt_succ shorter
      | none =>
        simp only [found]
        by_cases known : search.visited.contains next
        · rw [if_pos known]
          exact ih (tried ++ [event]) split' counted atDepth seen
            (doneNext _ (fun _ member => member) (Std.TreeSet.contains_iff_mem.mp known))
        · rw [if_neg known]
          have fresh : next ∉ search.visited := fun member =>
            known (Std.TreeSet.contains_iff_mem.mpr member)
          have differs : state ≠ next := fun same => fresh (same ▸ seen)
          refine ih (tried ++ [event]) split'
            (counted.discover atDepth seen enabled applied found fresh) ?_
            ((BTreeSet.mem_insert_iff _ _ _).mpr (.inr seen))
            (doneNext _ (fun _ member => (BTreeSet.mem_insert_iff _ _ _).mpr (.inr member))
              ((BTreeSet.mem_insert_iff _ _ _).mpr (.inl rfl)))
          rw [Function.update_of_ne differs, atDepth]

theorem Layered.pop {state : S} {rest : List (S × Nat)}
    (inv : Layered system bounds defect depthOf level none search)
    (popped : search.frontier = (state, depth) :: rest) :
    Layered system bounds defect depthOf depth (some state) (search.pop depth rest) ∧
      depthOf state = depth ∧ state ∈ search.visited := by
  have head : (state, depth) ∈ search.frontier := by
    rw [popped]
    exact List.mem_cons_self
  have inRest : ∀ entry ∈ rest, entry ∈ search.frontier := fun entry member => by
    rw [popped]
    exact List.mem_cons_of_mem _ member
  have sorted := inv.sorted
  rw [popped, List.pairwise_cons] at sorted
  have lower : level ≤ depth := (inv.spans _ head).1
  refine ⟨⟨inv.initials, inv.clean, fun entry member => inv.queued entry (inRest entry member),
    sorted.2, fun entry member => ⟨sorted.1 entry member, ?_⟩,
    fun x seen => (inv.shallow x seen).trans (by omega), fun x seen => ?_, inv.parents,
    inv.indexed, inv.unindexed⟩, (inv.queued _ head).2.symm, (inv.queued _ head).1⟩
  · exact (inv.spans entry (inRest entry member)).2.trans (by omega)
  · rcases inv.settled x seen with ⟨entry, member, rfl⟩ | same | expanded | cut
    · rw [popped] at member
      rcases List.mem_cons.mp member with rfl | member
      · exact .inr (.inl rfl)
      · exact .inl ⟨entry, member, rfl⟩
    · cases same
    · exact .inr (.inr (.inl expanded))
    · exact .inr (.inr (.inr cut))

theorem exploreState_meets {state : S}
    (inv : Layered system bounds defect depthOf depth (some state) search)
    (atDepth : depthOf state = depth) (seen : state ∈ search.visited) :
    (exploreState system bounds defect state depth search).Meets system bounds defect
      search.exploredStates := by
  rw [exploreState]
  by_cases full : search.exploredStates > bounds.maxStates
  · rw [if_pos full]
    exact ⟨_, rfl, trivial⟩
  rw [if_neg full]
  cases events : system.enabledEvents state with
  | nil =>
    simp only []
    by_cases terminal : system.isTerminal state
    · rw [if_pos terminal]
      refine ⟨rfl, depthOf, depth, inv.finish ⟨fun next move => ?_, fun _ => terminal⟩⟩
      obtain ⟨event, enabled, _⟩ := move
      rw [events] at enabled
      cases enabled
    · rw [if_neg terminal]
      obtain ⟨trace, first, walked, initial, leads, _⟩ := inv.reconstructTrace_spec seen
      rw [walked]
      exact ⟨_, rfl, first, state, initial, leads, events, Bool.eq_false_iff.mpr terminal⟩
  | cons event rest =>
    simp only []
    by_cases cut : depth ≥ bounds.maxDepth
    · rw [if_pos cut]
      refine ⟨rfl, depthOf, depth, { inv with settled := fun x member => ?_ }⟩
      rcases inv.settled x member with queued | same | expanded | ⟨below, _⟩
      · exact .inl queued
      · obtain rfl := Option.some.inj same
        exact .inr (.inr (.inr ⟨by omega, rfl⟩))
      · exact .inr (.inr (.inl expanded))
      · exact .inr (.inr (.inr ⟨below, rfl⟩))
    · rw [if_neg cut]
      exact exploreEvents_meets state (by omega) (by rw [events]; simp) [] _ events inv atDepth
        seen (by simp)

theorem Layered.closing_meets (inv : Layered system bounds defect depthOf level none search)
    (drained : search.frontier = []) :
    (search.closing bounds : Report S E D).outcome.Meets system bounds defect := by
  have settled : ∀ x ∈ search.visited, search.Expanded system depthOf x ∨
      (bounds.maxDepth ≤ depthOf x ∧ search.depthBoundHit = true) := by
    intro x seen
    rcases inv.settled x seen with ⟨entry, member, _⟩ | same | expanded | cut
    · rw [drained] at member
      cases member
    · cases same
    · exact .inl expanded
    · exact .inr cut
  cases hit : search.depthBoundHit with
  | true =>
    simp only [Search.closing, hit, if_true]
    intro n state reached within
    refine inv.clean state (inv.visited_of_reachesIn (fun x seen above => ?_) reached within)
    rcases settled x seen with expanded | ⟨below, _⟩
    · exact expanded
    · omega
  | false =>
    simp only [Search.closing, hit, Bool.false_eq_true, if_false]
    have expanded : ∀ x ∈ search.visited, search.Expanded system depthOf x := by
      intro x seen
      rcases settled x seen with expanded | ⟨_, flag⟩
      · exact expanded
      · rw [hit] at flag
        cases flag
    intro state reached
    have seen : state ∈ search.visited :=
      reached.invariant (P := (· ∈ search.visited)) (fun x initial => (inv.initials x initial).1)
        fun x next seen move => ((expanded x seen).1 next move).1
    exact ⟨inv.clean state seen, (expanded state seen).2⟩

/-- The loop returns within `maxStates + 2` pops, counting those already made, and its report
meets the specification. -/
theorem exploreLoop_meets (fuel : Nat)
    (inv : Layered system bounds defect depthOf level none search)
    (enough : bounds.maxStates + 2 ≤ fuel + search.exploredStates)
    (within : search.exploredStates ≤ bounds.maxStates) :
    ∃ report, exploreLoop system bounds defect fuel search = some report ∧
      report.outcome.Meets system bounds defect := by
  induction fuel generalizing depthOf level search with
  | zero => omega
  | succ fuel ih =>
    rw [exploreLoop]
    cases popped : search.frontier with
    | nil => exact ⟨_, rfl, inv.closing_meets popped⟩
    | cons entry rest =>
      obtain ⟨state, depth⟩ := entry
      obtain ⟨inv', atDepth, seen⟩ := inv.pop popped
      have meets := exploreState_meets inv' atDepth seen
      by_cases full : search.exploredStates + 1 > bounds.maxStates
      · have stops : exploreState system bounds defect state depth (search.pop depth rest)
            = .stop (some ⟨.boundExhausted .maxStates, { (search.pop depth rest).counters with
                  exploredStates := search.exploredStates + 1 - 1 }, bounds⟩) := by
          rw [exploreState]
          exact if_pos full
        simp only [stops]
        exact ⟨_, rfl, trivial⟩
      · cases flow : exploreState system bounds defect state depth (search.pop depth rest) with
        | stop report =>
          rw [flow] at meets
          obtain ⟨result, rfl, good⟩ := meets
          simp only [flow]
          exact ⟨result, rfl, good⟩
        | goOn after =>
          rw [flow] at meets
          obtain ⟨counted, _, _, inv''⟩ := meets
          have counted : after.exploredStates = search.exploredStates + 1 := counted
          simp only [flow]
          exact ih inv'' (by omega) (by omega)

theorem explore_meets (system : TransitionSystem S E) (bounds : Bounds) (defect : S → Option D) :
    ∃ report, explore system bounds defect = some report ∧
      report.outcome.Meets system bounds defect := by
  rw [explore]
  by_cases empty : system.initialStates.isEmpty
  · rw [if_pos empty]
    exact ⟨_, rfl, List.isEmpty_iff.mp empty⟩
  rw [if_neg empty]
  cases found : system.initialStates.findSome? defect with
  | some name =>
    obtain ⟨state, initial, defective⟩ := List.exists_of_findSome?_eq_some found
    refine ⟨_, rfl, state, state, initial, rfl, defective, fun n x _ shorter => ?_⟩
    exact absurd shorter (Nat.not_lt_zero n)
  | none =>
    have clean : ∀ state ∈ system.initialStates, defect state = none :=
      List.findSome?_eq_none_iff.mp found
    obtain ⟨inv, uncounted⟩ := initial_layered clean
    exact exploreLoop_meets _ inv (by omega) (by omega)

end Semaprax.ModelChecking
