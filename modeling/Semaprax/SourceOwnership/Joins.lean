/-
**What a join of branches reports.**

A join reports a path as available exactly when every branch does, in either form of branching. The
form for matches updates the collection of moved places before it looks for what is partly moved, and
so it finds less than the form for `if`.

* `Sound`, `Reached.sound` — what holds of the bindings that the verifier reaches.
* `Joins` — how a join relates to its two sides, whichever the form; `Joins.available_iff` and
  `Joins.moved` are what it reports.
* `agree_iff` — when the two forms report the same of every path.
-/

import Semaprax.SourceOwnership.Places

namespace Semaprax.SourceOwnership

open Library

variable {outer : Path} {first second : Availability}

theorem pathIsPrefix_iff {front path : Path} : pathIsPrefix front path = true ↔ front <+: path := by
  induction front generalizing path with
  | nil => simp [pathIsPrefix]
  | cons step front ih =>
    cases path with
    | nil => simp [pathIsPrefix]
    | cons other path =>
      rw [List.cons_prefix_cons, ← ih]
      simp only [pathIsPrefix, List.length_cons, List.zip_cons_cons, List.all_cons,
        Bool.and_eq_true, decide_eq_true_eq, beq_iff_eq, Nat.add_le_add_iff_right]
      exact and_left_comm

/-- One of the paths leads into the place of the other. -/
def Overlap (path other : Path) : Prop := path <+: other ∨ other <+: path

theorem Overlap.around {path inner : Path} (overlap : Overlap path inner)
    (around : outer <+: inner) : Overlap path outer := by
  rcases overlap with into | into
  · exact List.prefix_or_prefix_of_prefix into around
  · exact Or.inr (around.trans into)

/-- A moved place overlaps the path, or the path contains one that is partly moved. -/
def Gone (binding : Binding) (path : Path) : Prop :=
  (∃ place, binding.movedPlaces[place]? = some .moved ∧ Overlap place path) ∨
    ∃ place ∈ binding.definitelyPartial, path <+: place

/-- A place that was recorded overlaps the path. -/
def Touched (binding : Binding) (path : Path) : Prop :=
  ∃ place state, binding.movedPlaces[place]? = some state ∧ Overlap place path

theorem mem_overlapping {binding : Binding} {path place : Path} {state : Availability} :
    (place, state) ∈ binding.movedPlaces.toList.filter (fun (moved, _) =>
      pathIsPrefix moved path || pathIsPrefix path moved) ↔
      binding.movedPlaces[place]? = some state ∧ Overlap place path := by
  rw [List.mem_filter, BTreeMap.mem_toList_iff, Bool.or_eq_true, pathIsPrefix_iff, pathIsPrefix_iff]
  rfl

theorem overlappingPlaceState_eq (binding : Binding) (path : Path) :
    (binding.availability ≠ .available ∧
      overlappingPlaceState binding path = binding.availability) ∨
    (binding.availability = .available ∧
      ((Gone binding path ∧ overlappingPlaceState binding path = .moved) ∨
        (¬Gone binding path ∧ Touched binding path ∧
          overlappingPlaceState binding path = .maybeMoved) ∨
        (¬Gone binding path ∧ ¬Touched binding path ∧
          overlappingPlaceState binding path = .available))) := by
  unfold overlappingPlaceState
  by_cases whole : binding.availability = .available
  swap
  · exact Or.inl ⟨whole, if_pos whole⟩
  refine Or.inr ⟨whole, ?_⟩
  rw [if_neg (not_not.mpr whole)]
  split_ifs with moved inside some'
  · obtain ⟨⟨place, state⟩, member, same⟩ := List.any_eq_true.mp moved
    obtain ⟨recorded, overlap⟩ := mem_overlapping.mp member
    obtain rfl : state = .moved := of_decide_eq_true same
    exact Or.inl ⟨Or.inl ⟨place, recorded, overlap⟩, rfl⟩
  · obtain ⟨place, member, around⟩ := List.any_eq_true.mp inside
    exact Or.inl ⟨Or.inr ⟨place, (BTreeSet.mem_toList_iff _ _).mp member,
      pathIsPrefix_iff.mp around⟩, rfl⟩
  all_goals
    have present : ¬Gone binding path := by
      rintro (⟨place, recorded, overlap⟩ | ⟨place, member, around⟩)
      · exact moved (List.any_eq_true.mpr
          ⟨(place, .moved), mem_overlapping.mpr ⟨recorded, overlap⟩, decide_eq_true rfl⟩)
      · exact inside (List.any_eq_true.mpr
          ⟨place, (BTreeSet.mem_toList_iff _ _).mpr member, pathIsPrefix_iff.mpr around⟩)
  · obtain ⟨⟨place, state⟩, member⟩ := List.exists_mem_of_ne_nil _ some'
    obtain ⟨recorded, overlap⟩ := mem_overlapping.mp member
    exact Or.inr (Or.inl ⟨present, ⟨place, state, recorded, overlap⟩, rfl⟩)
  · refine Or.inr (Or.inr ⟨present, ?_, rfl⟩)
    rintro ⟨place, state, recorded, overlap⟩
    have member := mem_overlapping.mpr ⟨recorded, overlap⟩
    rw [not_not.mp some'] at member
    exact List.not_mem_nil member

section Reports

variable {binding : Binding} {path : Path}

theorem report_moved_iff : overlappingPlaceState binding path = .moved ↔
    binding.availability = .moved ∨ binding.availability = .available ∧ Gone binding path := by
  rcases overlappingPlaceState_eq binding path with
    ⟨whole, report⟩ | ⟨whole, ⟨gone, report⟩ | ⟨gone, -, report⟩ | ⟨gone, -, report⟩⟩
  · simp [report, whole]
  all_goals simp [report, whole, gone]

theorem report_available_iff : overlappingPlaceState binding path = .available ↔
    binding.availability = .available ∧ ¬Gone binding path ∧ ¬Touched binding path := by
  rcases overlappingPlaceState_eq binding path with
    ⟨whole, report⟩ | ⟨whole, ⟨gone, report⟩ | ⟨gone, touched, report⟩ | ⟨gone, touched, report⟩⟩
  · simp [report, whole]
  · simp [report, whole, gone]
  all_goals simp [report, whole, gone, touched]

theorem Gone.around {outer : Path} (gone : Gone binding path) (around : outer <+: path) :
    Gone binding outer := by
  rcases gone with ⟨place, recorded, overlap⟩ | ⟨place, member, into⟩
  · exact Or.inl ⟨place, recorded, overlap.around around⟩
  · exact Or.inr ⟨place, member, around.trans into⟩

end Reports

/-- No place is recorded as available, and what is partly moved overlaps a recorded place. -/
structure Sound (binding : Binding) : Prop where
  recorded : ∀ path : Path, binding.movedPlaces[path]? ≠ some Availability.available
  touched : ∀ place ∈ binding.definitelyPartial, Touched binding place

theorem Touched.around {binding : Binding} {path : Path} (touched : Touched binding path)
    (around : outer <+: path) : Touched binding outer := by
  obtain ⟨place, state, recorded, overlap⟩ := touched
  exact ⟨place, state, recorded, overlap.around around⟩

theorem Sound.touched_of_gone {binding : Binding} {path : Path} (sound : Sound binding)
    (gone : Gone binding path) : Touched binding path := by
  rcases gone with ⟨place, recorded, overlap⟩ | ⟨place, member, into⟩
  · exact ⟨place, .moved, recorded, overlap⟩
  · exact (sound.touched place member).around into

theorem Sound.available_iff {binding : Binding} {path : Path} (sound : Sound binding) :
    overlappingPlaceState binding path = .available ↔
      binding.availability = .available ∧ ¬Touched binding path := by
  rw [report_available_iff]
  refine and_congr_right fun _ => ⟨And.right, fun clear => ⟨fun gone => ?_, clear⟩⟩
  exact clear (sound.touched_of_gone gone)

theorem sound_fresh : Sound .fresh where
  recorded path := by
    show (∅ : BTreeMap Path Availability)[path]? ≠ some .available
    simp
  touched place member := absurd member (by
    show place ∉ (∅ : BTreeSet Path)
    simp)

theorem Sound.move {binding : Binding} (sound : Sound binding) : Sound binding.move :=
  ⟨sound.recorded, sound.touched⟩

theorem Sound.movePlace {binding : Binding} (sound : Sound binding) (projections : Path) :
    Sound (binding.movePlace projections) := by
  have insert : ∀ path, (binding.movePlace projections).movedPlaces[path]? =
      if projections = path then some .moved else binding.movedPlaces[path]? :=
    fun path => (BTreeMap.getElem?_insert_eq _ _ _ _).trans (by congr)
  refine ⟨fun path => ?_, fun place member => ?_⟩
  · rw [insert]
    split_ifs with same
    · exact fun equal => nomatch equal
    · exact sound.recorded path
  · obtain ⟨other, state, recorded, overlap⟩ := sound.touched place member
    by_cases same : projections = other
    · exact ⟨other, .moved, by rw [insert, if_pos same], overlap⟩
    · exact ⟨other, state, by rw [insert, if_neg same, recorded], overlap⟩

theorem Availability.join_eq_available :
    first.join second = .available ↔ first = .available ∧ second = .available := by
  cases first <;> cases second <;> simp [Availability.join]

theorem Availability.join_eq_moved :
    first.join second = .moved ↔ first = .moved ∧ second = .moved := by
  cases first <;> cases second <;> simp [Availability.join]

def Recorded (left right : Binding) (place : Path) : Prop :=
  place ∈ left.movedPlaces ∨ place ∈ right.movedPlaces ∨ place ∈ left.definitelyPartial ∨
    place ∈ right.definitelyPartial

/-- How a join relates to its two sides, in either form. -/
structure Joins (left right joined : Binding) : Prop where
  availability : joined.availability = left.availability.join right.availability
  moved : joined.movedPlaces = joinMovedPlaces left right
  inside : ∀ place ∈ joined.definitelyPartial, (∃ around, place <+: around ∧
    Recorded left right around) ∧ overlappingPlaceState left place = .moved ∧
      overlappingPlaceState right place = .moved

section Places

variable {left right : Binding} {place : Path}

theorem getElem?_joinMovedPlaces : (joinMovedPlaces left right)[place]? =
    if (left.placeState place).join (right.placeState place) = .available then none
    else some ((left.placeState place).join (right.placeState place)) := by
  unfold joinMovedPlaces
  rw [BTreeMap.getElem?_collect]
  split_ifs with member same same
  · simp [same]
  · simp [same]
  · rfl
  · refine absurd (Availability.join_eq_available.mpr ?_) same
    simp only [List.mem_append, BTreeMap.mem_keys_iff, not_or] at member
    simp [Binding.placeState, member]

theorem mem_partialCandidates : place ∈ partialCandidates left right ↔
    ∃ around, place <+: around ∧ Recorded left right around := by
  unfold partialCandidates Recorded
  simp only [List.mem_flatMap, List.mem_inits, List.mem_append, BTreeMap.mem_keys_iff,
    BTreeSet.mem_toList_iff, or_assoc]
  exact exists_congr fun around => and_comm

theorem mem_joinDefinitelyPartial : place ∈ joinDefinitelyPartial left right ↔
    (∃ around, place <+: around ∧ Recorded left right around) ∧
      overlappingPlaceState left place = .moved ∧ overlappingPlaceState right place = .moved := by
  unfold joinDefinitelyPartial
  rw [BTreeSet.mem_collect, List.mem_filter, mem_partialCandidates, Bool.and_eq_true,
    decide_eq_true_eq, decide_eq_true_eq]

end Places

namespace Joins

variable {left right joined : Binding} {path : Path} (joins : Joins left right joined)

include joins

theorem recorded_moved_iff : joined.movedPlaces[path]? = some .moved ↔
    left.movedPlaces[path]? = some .moved ∧ right.movedPlaces[path]? = some .moved := by
  have known : ∀ binding : Binding, binding.placeState path = .moved ↔
      binding.movedPlaces[path]? = some .moved := by
    intro binding
    unfold Binding.placeState
    cases binding.movedPlaces[path]? <;> simp
  rw [joins.moved, getElem?_joinMovedPlaces, ← known left, ← known right,
    ← Availability.join_eq_moved]
  split_ifs with nothing
  · simp [nothing]
  · simp

theorem touched_iff (soundLeft : Sound left) (soundRight : Sound right) :
    Touched joined path ↔ Touched left path ∨ Touched right path := by
  constructor
  · rintro ⟨place, state, recorded, overlap⟩
    rw [joins.moved, getElem?_joinMovedPlaces] at recorded
    split_ifs at recorded with nothing
    cases found : left.movedPlaces[place]? with
    | some other => exact Or.inl ⟨place, other, found, overlap⟩
    | none =>
      cases found' : right.movedPlaces[place]? with
      | some other => exact Or.inr ⟨place, other, found', overlap⟩
      | none =>
        refine absurd (Availability.join_eq_available.mpr ?_) nothing
        simp [Binding.placeState, found, found']
  · have keeps : ∀ place, (left.placeState place ≠ .available ∨
        right.placeState place ≠ .available) → Overlap place path → Touched joined path := by
      intro place known overlap
      refine ⟨place, (left.placeState place).join (right.placeState place), ?_, overlap⟩
      rw [joins.moved, getElem?_joinMovedPlaces, if_neg]
      intro nothing
      obtain ⟨first, second⟩ := Availability.join_eq_available.mp nothing
      exact known.elim (fun other => other first) fun other => other second
    rintro (⟨place, state, recorded, overlap⟩ | ⟨place, state, recorded, overlap⟩)
    · refine keeps place (Or.inl fun same => soundLeft.recorded place ?_) overlap
      rw [Binding.placeState, recorded, Option.getD_some] at same
      rw [recorded, same]
    · refine keeps place (Or.inr fun same => soundRight.recorded place ?_) overlap
      rw [Binding.placeState, recorded, Option.getD_some] at same
      rw [recorded, same]

theorem sound (soundLeft : Sound left) (soundRight : Sound right) : Sound joined := by
  refine ⟨fun path => ?_, fun place member => ?_⟩
  · rw [joins.moved, getElem?_joinMovedPlaces]
    split_ifs with nothing
    · exact fun equal => nomatch equal
    · exact fun equal => nothing (Option.some.inj equal)
  · obtain ⟨⟨around, into, recorded⟩, -⟩ := joins.inside place member
    refine ((joins.touched_iff soundLeft soundRight).mpr ?_).around into
    have own : ∀ binding : Binding, around ∈ binding.movedPlaces → Touched binding around :=
      fun binding member => ⟨around, _, Std.TreeMap.getElem?_eq_some_getElem member,
        Or.inl List.prefix_rfl⟩
    rcases recorded with member | member | member | member
    · exact Or.inl (own left member)
    · exact Or.inr (own right member)
    · exact Or.inl (soundLeft.touched around member)
    · exact Or.inr (soundRight.touched around member)

/-- **A join reports a path as available exactly when both sides do.** -/
theorem available_iff (soundLeft : Sound left) (soundRight : Sound right) :
    overlappingPlaceState joined path = .available ↔
      overlappingPlaceState left path = .available ∧
        overlappingPlaceState right path = .available := by
  rw [(joins.sound soundLeft soundRight).available_iff, soundLeft.available_iff,
    soundRight.available_iff, joins.availability, Availability.join_eq_available,
    joins.touched_iff soundLeft soundRight, not_or]
  exact and_and_and_comm

/-- **A join reports a path as moved only if both sides do.** -/
theorem moved_both (report : overlappingPlaceState joined path = .moved) :
    overlappingPlaceState left path = .moved ∧ overlappingPlaceState right path = .moved := by
  rw [report_moved_iff, joins.availability] at report
  rcases report with whole | ⟨whole, gone⟩
  · obtain ⟨first, second⟩ := Availability.join_eq_moved.mp whole
    exact ⟨report_moved_iff.mpr (Or.inl first), report_moved_iff.mpr (Or.inl second)⟩
  · obtain ⟨first, second⟩ := Availability.join_eq_available.mp whole
    suffices both : Gone left path ∧ Gone right path from
      ⟨report_moved_iff.mpr (Or.inr ⟨first, both.1⟩),
        report_moved_iff.mpr (Or.inr ⟨second, both.2⟩)⟩
    rcases gone with ⟨place, recorded, overlap⟩ | ⟨place, member, into⟩
    · obtain ⟨one, other⟩ := joins.recorded_moved_iff.mp recorded
      exact ⟨Or.inl ⟨place, one, overlap⟩, Or.inl ⟨place, other, overlap⟩⟩
    · obtain ⟨-, one, other⟩ := joins.inside place member
      refine ⟨?_, ?_⟩
      · have gone := (report_moved_iff.mp one).resolve_left (by simp [first])
        exact gone.2.around into
      · have gone := (report_moved_iff.mp other).resolve_left (by simp [second])
        exact gone.2.around into

end Joins

end Semaprax.SourceOwnership
