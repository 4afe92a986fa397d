/-
**Whether the forms of branching agree.**

The bindings that the verifier reaches are sound, so a join of any number of branches reports a path as
available exactly when all of them do, and as moved only if all of them do. For two branches the form
for matches reports the same as the form for `if` exactly when it is not needed to look for places that
are partly moved.

* `Reached` — the bindings that the verifier reaches; `Reached.sound`.
* `joinAll_exact` — what the join of any branches reports.
* `frames_exact` — the scopes after a match and after an `if`.
* `joins_agree_iff` — when the two forms report the same.
-/

import Semaprax.SourceOwnership.Joins

namespace Semaprax.SourceOwnership

open Library

/-- The join after an `if` looks at both sides as they were. -/
theorem joins_joinBranches (binding left right : Binding) :
    Joins left right (binding.joinBranches left right) :=
  ⟨rfl, rfl, fun _ member => mem_joinDefinitelyPartial.mp member⟩

theorem joins_joinConditional (left right : Binding) :
    Joins left right (left.joinConditional right) :=
  ⟨rfl, rfl, fun _ member => mem_joinDefinitelyPartial.mp member⟩

/-- The first side of a match join when it looks for what is partly moved: its availability and its
moved places are those of the join already. -/
def Binding.updated (left right : Binding) : Binding where
  availability := left.availability.join right.availability
  movedPlaces := joinMovedPlaces left right
  definitelyPartial := left.definitelyPartial

theorem mem_joinArm {left right : Binding} {place : Path} :
    place ∈ (left.joinArm right).definitelyPartial ↔
      (∃ around, place <+: around ∧ Recorded (left.updated right) right around) ∧
        overlappingPlaceState (left.updated right) place = .moved ∧
        overlappingPlaceState right place = .moved := mem_joinDefinitelyPartial

theorem recorded_of_updated {left right : Binding} {place : Path}
    (recorded : Recorded (left.updated right) right place) : Recorded left right place := by
  rcases recorded with member | recorded
  · have found : (joinMovedPlaces left right)[place]?.isSome :=
      Std.TreeMap.mem_iff_isSome_getElem?.mp member
    unfold joinMovedPlaces at found
    rw [BTreeMap.getElem?_collect] at found
    split_ifs at found with known
    · rcases List.mem_append.mp known with one | other
      · exact Or.inl ((BTreeMap.mem_keys_iff _ _).mp one)
      · exact Or.inr (Or.inl ((BTreeMap.mem_keys_iff _ _).mp other))
    · exact absurd found (by simp)
  · exact Or.inr recorded

theorem gone_updated {left right : Binding} {path : Path} (gone : Gone (left.updated right) path) :
    (∃ place, left.movedPlaces[place]? = some .moved ∧ right.movedPlaces[place]? = some .moved ∧
      Overlap place path) ∨ ∃ place ∈ left.definitelyPartial, path <+: place := by
  rcases gone with ⟨place, recorded, overlap⟩ | partly
  · obtain ⟨one, other⟩ := (joins_joinBranches left left right).recorded_moved_iff.mp recorded
    exact Or.inl ⟨place, one, other, overlap⟩
  · exact Or.inr partly

theorem joins_joinArm (left right : Binding) : Joins left right (left.joinArm right) := by
  refine ⟨rfl, rfl, fun place member => ?_⟩
  obtain ⟨⟨around, into, recorded⟩, first, second⟩ := mem_joinArm.mp member
  refine ⟨⟨around, into, recorded_of_updated recorded⟩, ?_, second⟩
  rw [report_moved_iff] at first ⊢
  rcases first with whole | ⟨whole, gone⟩
  · exact Or.inl (Availability.join_eq_moved.mp whole).1
  · refine Or.inr ⟨(Availability.join_eq_available.mp whole).1, ?_⟩
    rcases gone_updated gone with ⟨place, one, -, overlap⟩ | partly
    · exact Or.inl ⟨place, one, overlap⟩
    · exact Or.inr partly

/-- The bindings that the verifier reaches. A variable that is assigned anew is fresh again. -/
inductive Reached : Binding → Prop
  | fresh : Reached .fresh
  | move {binding : Binding} (reached : Reached binding) : Reached binding.move
  | movePlace {binding : Binding} (reached : Reached binding) (projections : Path) :
      Reached (binding.movePlace projections)
  | joinBranches (binding : Binding) {left right : Binding} (first : Reached left)
      (second : Reached right) : Reached (binding.joinBranches left right)
  | joinArm {left right : Binding} (first : Reached left) (second : Reached right) :
      Reached (left.joinArm right)
  | joinConditional {left right : Binding} (first : Reached left) (second : Reached right) :
      Reached (left.joinConditional right)

theorem Reached.sound {binding : Binding} (reached : Reached binding) : Sound binding := by
  induction reached with
  | fresh => exact sound_fresh
  | move _ ih => exact ih.move
  | movePlace _ projections ih => exact ih.movePlace projections
  | joinBranches binding _ _ left right => exact (joins_joinBranches binding _ _).sound left right
  | joinArm _ _ left right => exact (joins_joinArm _ _).sound left right
  | joinConditional _ _ left right => exact (joins_joinConditional _ _).sound left right

/-- The join of the arms of a match. -/
def joinAll (first : Binding) (rest : List Binding) : Binding := rest.foldl Binding.joinArm first

/-- A join reports a path as available exactly when every branch does, and as moved only if none
reports it as available. -/
structure Exact (joined : Binding) (branches : List Binding) : Prop where
  available : ∀ path, overlappingPlaceState joined path = .available ↔
    ∀ branch ∈ branches, overlappingPlaceState branch path = .available
  moved : ∀ path, overlappingPlaceState joined path = .moved →
    ∀ branch ∈ branches, overlappingPlaceState branch path ≠ .available

/-- **The join of any branches of a match is exact.** -/
theorem joinAll_exact {first : Binding} {rest : List Binding}
    (sound : ∀ branch ∈ first :: rest, Sound branch) :
    Exact (joinAll first rest) (first :: rest) := by
  suffices both : (∀ path, overlappingPlaceState (joinAll first rest) path = .available ↔
      ∀ branch ∈ first :: rest, overlappingPlaceState branch path = .available) ∧
    (∀ path, overlappingPlaceState (joinAll first rest) path = .moved →
      ∀ branch ∈ first :: rest, overlappingPlaceState branch path = .moved) by
    refine ⟨both.1, fun path report branch member => ?_⟩
    rw [both.2 path report branch member]
    exact fun equal => nomatch equal
  induction rest generalizing first with
  | nil => simp [joinAll]
  | cons second rest ih =>
    have one := sound first List.mem_cons_self
    have other := sound second (List.mem_cons_of_mem _ List.mem_cons_self)
    have joins := joins_joinArm first second
    obtain ⟨available, moved⟩ := @ih (first.joinArm second) (by
      intro branch member
      rcases List.mem_cons.mp member with rfl | later
      · exact joins.sound one other
      · exact sound branch (List.mem_cons_of_mem _ (List.mem_cons_of_mem _ later)))
    refine ⟨fun path => (available path).trans ?_, fun path report => ?_⟩
    · rw [List.forall_mem_cons, List.forall_mem_cons, List.forall_mem_cons,
        joins.available_iff one other, and_assoc]
    · have all := moved path report
      rw [List.forall_mem_cons] at all ⊢
      rw [List.forall_mem_cons]
      obtain ⟨left, right⟩ := joins.moved_both all.1
      exact ⟨left, right, all.2⟩

/-- The join after an `if` is exact. -/
theorem joinBranches_exact (binding : Binding) {left right : Binding} (first : Sound left)
    (second : Sound right) : Exact (binding.joinBranches left right) [left, right] := by
  have joins := joins_joinBranches binding left right
  refine ⟨fun path => ?_, fun path report branch member => ?_⟩
  · rw [joins.available_iff first second]
    simp
  · obtain ⟨one, other⟩ := joins.moved_both report
    rcases List.mem_pair.mp member with rfl | rfl
    · rw [one]
      exact fun equal => nomatch equal
    · rw [other]
      exact fun equal => nomatch equal

section Scopes

variable {names : List String} {name : String}

theorem getElem?_frameResumeIfElse (distinct : names.Nodup) (among : name ∈ names)
    {parent thenBindings elseBindings : Scope} {binding left right : Binding}
    (here : parent[name]? = some binding) (first : thenBindings[name]? = some left)
    (second : elseBindings[name]? = some right) :
    (frameResumeIfElse parent thenBindings elseBindings names)[name]? =
      some (binding.joinBranches left right) := by
  unfold frameResumeIfElse
  rw [BTreeMap.getElem?_updateAll _ distinct, if_pos among, here, Option.map_some]
  simp only [first, second]

theorem getElem?_framePrepareMatchArm (distinct : names.Nodup) (among : name ∈ names)
    {parent first : Scope} {rest : List Scope} {binding left : Binding} {others : List Binding}
    (here : parent[name]? = some binding) (head : first[name]? = some left)
    (tail : List.Forall₂ (fun (scope : Scope) other => scope[name]? = some other) rest others) :
    (framePrepareMatchArm parent (first :: rest) names)[name]? = some (joinAll left others) := by
  have folded : ∀ joined : Scope, joined[name]? = some left →
      (rest.foldl (fun joined branch => joined.updateAll (fun name binding =>
        branch[name]?.elim binding fun other => binding.joinArm other) names) joined)[name]? =
        some (joinAll left others) := by
    clear head
    induction tail generalizing left with
    | nil => exact fun joined start => start
    | cons found _ ih =>
      intro joined start
      rw [List.foldl_cons]
      refine ih _ ?_
      rw [BTreeMap.getElem?_updateAll _ distinct, if_pos among, start, Option.map_some]
      simp only [found, Option.elim_some]
  unfold framePrepareMatchArm joinArms mergeMoved
  simp only [Option.elim_some]
  rw [BTreeMap.getElem?_updateAll _ distinct, if_pos among, here, Option.map_some,
    folded first head, Option.getD_some]

/-- **The scope after a match, and the one after an `if`, are exact about every name of the scope
before.** -/
theorem frames_exact (distinct : names.Nodup) (among : name ∈ names) {parent first second : Scope}
    {rest : List Scope} {binding left right : Binding} {others : List Binding}
    (here : parent[name]? = some binding) (head : first[name]? = some left)
    (tail : List.Forall₂ (fun (scope : Scope) other => scope[name]? = some other) rest others)
    (found : second[name]? = some right)
    (reached : ∀ branch ∈ left :: right :: others, Reached branch) :
    (∃ after, (framePrepareMatchArm parent (first :: rest) names)[name]? = some after ∧
        Exact after (left :: others)) ∧
      ∃ after, (frameResumeIfElse parent first second names)[name]? = some after ∧
        Exact after [left, right] := by
  have sound (branch) (member) := (reached branch member).sound
  refine ⟨⟨_, getElem?_framePrepareMatchArm distinct among here head tail,
    joinAll_exact fun branch member => sound branch ?_⟩,
    _, getElem?_frameResumeIfElse distinct among here head found,
    joinBranches_exact binding (sound left (by simp)) (sound right (by simp))⟩
  rcases List.mem_cons.mp member with rfl | later
  · exact List.mem_cons_self
  · exact List.mem_cons_of_mem _ (List.mem_cons_of_mem _ later)

/-- One of two branches moves a place. -/
theorem frames_exact_moved : ∃ after,
    (frameResumeIfElse ((∅ : Scope).insert "x" .fresh)
      ((∅ : Scope).insert "x" (Binding.fresh.movePlace ["a"])) ((∅ : Scope).insert "x" .fresh)
      ["x"])["x"]? = some after ∧ Exact after [Binding.fresh.movePlace ["a"], .fresh] :=
  (frames_exact (List.nodup_singleton "x") (List.mem_singleton_self "x")
    (Std.TreeMap.getElem?_insert_self ..) (Std.TreeMap.getElem?_insert_self ..) .nil
    (Std.TreeMap.getElem?_insert_self ..) (by
      rintro _ (_ | ⟨_, _ | ⟨_, none⟩⟩)
      · exact .movePlace .fresh _
      · exact .fresh
      · cases none)).2

end Scopes

/-- The form for matches loses nothing: where both branches report a path to a recorded place as
moved, they have moved an overlapping place in common, or the first one lists a place in it as partly
moved. -/
def Agreeable (left right : Binding) : Prop :=
  left.availability = .available → right.availability = .available →
    ∀ path around, path <+: around → Recorded left right around →
      overlappingPlaceState left path = .moved → overlappingPlaceState right path = .moved →
        (∃ place, left.movedPlaces[place]? = some .moved ∧
          right.movedPlaces[place]? = some .moved ∧ Overlap place path) ∨
        ∃ place ∈ left.definitelyPartial, path <+: place

section Agreement

variable {binding left right : Binding}

/-- The form for matches finds no more than the form for `if`. -/
theorem gone_of_joinArm {path : Path} (gone : Gone (left.joinArm right) path) :
    Gone (binding.joinBranches left right) path := by
  rcases gone with ⟨place, recorded, overlap⟩ | ⟨place, member, into⟩
  · exact Or.inl ⟨place, recorded, overlap⟩
  · exact Or.inr ⟨place, mem_joinDefinitelyPartial.mpr ((joins_joinArm left right).inside place
      member), into⟩

theorem report_eq_iff {first second : Binding} (availability : first.availability = .available)
    (moved : second.movedPlaces = first.movedPlaces)
    (same : second.availability = first.availability) {path : Path} :
    overlappingPlaceState first path = overlappingPlaceState second path ↔
      (Gone first path ↔ Gone second path) := by
  have touched : Touched second path ↔ Touched first path := by
    unfold Touched
    rw [moved]
  rw [availability] at same
  rcases overlappingPlaceState_eq first path with
    ⟨whole, -⟩ | ⟨-, ⟨gone, report⟩ | ⟨gone, touch, report⟩ | ⟨gone, touch, report⟩⟩
  · exact absurd availability whole
  all_goals
    rcases overlappingPlaceState_eq second path with
      ⟨whole, -⟩ | ⟨-, ⟨gone', report'⟩ | ⟨gone', touch', report'⟩ | ⟨gone', touch', report'⟩⟩
    · exact absurd same whole
    all_goals
      rw [report, report']
      simp only [gone, gone', iff_self, iff_false, not_true_eq_false, iff_true, reduceCtorEq]
      try exact absurd (touched.mp touch') touch
      try exact absurd (touched.mpr touch) touch'

/-- **When the two forms report the same of every path.** -/
theorem agree_iff : (∀ path, overlappingPlaceState (binding.joinBranches left right) path =
    overlappingPlaceState (left.joinArm right) path) ↔ Agreeable left right := by
  by_cases whole : left.availability.join right.availability = .available
  swap
  · constructor
    · exact fun _ first second => absurd (Availability.join_eq_available.mpr ⟨first, second⟩) whole
    · intro _ path
      have one := (overlappingPlaceState_eq (binding.joinBranches left right) path).resolve_right
        fun other => whole other.1
      have other := (overlappingPlaceState_eq (left.joinArm right) path).resolve_right
        fun other => whole other.1
      rw [one.2, other.2]
      rfl
  obtain ⟨first, second⟩ := Availability.join_eq_available.mp whole
  have same : ∀ path, overlappingPlaceState (binding.joinBranches left right) path =
      overlappingPlaceState (left.joinArm right) path ↔
        (Gone (binding.joinBranches left right) path → Gone (left.joinArm right) path) := by
    intro path
    have reports := @report_eq_iff (binding.joinBranches left right) (left.joinArm right) whole rfl
      rfl path
    exact reports.trans ⟨Iff.mp, fun more => ⟨more, gone_of_joinArm⟩⟩
  rw [forall_congr' same]
  constructor
  · intro more _ _ path around into recorded one other
    have member : path ∈ (binding.joinBranches left right).definitelyPartial :=
      mem_joinDefinitelyPartial.mpr ⟨⟨around, into, recorded⟩, one, other⟩
    rcases more path (Or.inr ⟨path, member, List.prefix_rfl⟩) with
      ⟨place, recorded, overlap⟩ | ⟨place, member, inside⟩
    · obtain ⟨one, other⟩ := (joins_joinArm left right).recorded_moved_iff.mp recorded
      exact Or.inl ⟨place, one, other, overlap⟩
    · obtain ⟨-, report, -⟩ := mem_joinArm.mp member
      rcases report_moved_iff.mp report with gone | ⟨-, gone⟩
      · exact absurd (gone.symm.trans whole) (by simp)
      rcases gone_updated gone with ⟨place', one, other, overlap⟩ | ⟨place', listed, within⟩
      · exact Or.inl ⟨place', one, other, overlap.around inside⟩
      · exact Or.inr ⟨place', listed, inside.trans within⟩
  · rintro agreeable path (⟨place, recorded, overlap⟩ | ⟨place, member, into⟩)
    · exact Or.inl ⟨place, recorded, overlap⟩
    obtain ⟨⟨around, inside, recorded⟩, one, other⟩ := mem_joinDefinitelyPartial.mp member
    rcases agreeable first second place around inside recorded one other with
      ⟨common, moved, moved', overlap⟩ | ⟨listed, known, within⟩
    · exact Or.inl ⟨common, (joins_joinArm left right).recorded_moved_iff.mpr ⟨moved, moved'⟩,
        overlap.around into⟩
    · have report : overlappingPlaceState (left.updated right) place = .moved :=
        report_moved_iff.mpr (Or.inr ⟨whole, Or.inr ⟨listed, known, within⟩⟩)
      exact Or.inr ⟨place, mem_joinArm.mpr
        ⟨⟨listed, within, Or.inr (Or.inr (Or.inl known))⟩, report, other⟩, into⟩

end Agreement

/-- **Branch joins are exact, and agree between the forms exactly when they are agreeable.** -/
theorem joins_agree_iff {first : Binding} {rest : List Binding}
    (reached : ∀ branch ∈ first :: rest, Reached branch) (binding : Binding)
    {left right : Binding} (one : Reached left) (other : Reached right) :
    Exact (joinAll first rest) (first :: rest) ∧
    Exact (binding.joinBranches left right) [left, right] ∧
    ((∀ path, overlappingPlaceState (binding.joinBranches left right) path =
      overlappingPlaceState (joinAll left [right]) path) ↔ Agreeable left right) :=
  ⟨joinAll_exact fun branch member => (reached branch member).sound,
    joinBranches_exact binding one.sound other.sound, agree_iff⟩

theorem joins_agree_iff_sibling :
    (∀ path, overlappingPlaceState (Binding.joinBranches .fresh (Binding.fresh.movePlace ["a"])
      (Binding.fresh.movePlace ["b"])) path =
        overlappingPlaceState (joinAll (Binding.fresh.movePlace ["a"])
          [Binding.fresh.movePlace ["b"]]) path) ↔
      Agreeable (Binding.fresh.movePlace ["a"]) (Binding.fresh.movePlace ["b"]) :=
  (joins_agree_iff (fun _ member => List.mem_singleton.mp member ▸ .fresh) .fresh
    (.movePlace .fresh ["a"]) (.movePlace .fresh ["b"])).2.2

/-- One branch moves a place, and the other one a place in it: the form for `if` reports the outer
place as moved, and the form for matches as one that may have been moved. -/
theorem joins_disagree : Reached (Binding.fresh.movePlace ["a"]) ∧
    Reached (Binding.fresh.movePlace ["a", "b"]) ∧
    overlappingPlaceState (Binding.joinBranches .fresh (Binding.fresh.movePlace ["a"])
      (Binding.fresh.movePlace ["a", "b"])) ["a"] = .moved ∧
    overlappingPlaceState (joinAll (Binding.fresh.movePlace ["a"])
      [Binding.fresh.movePlace ["a", "b"]]) ["a"] = .maybeMoved :=
  ⟨.movePlace .fresh _, .movePlace .fresh _, by decide⟩

end Semaprax.SourceOwnership
