/-
**Links with counted targets.**

A table of links, owner by owner, kept together with a counter for every target. The counters count
the owners that link to the target, whatever is linked, unlinked or dropped.

* `owners` — who links to a target; `Counted` — the counters say how many they are.
* `Counted.link` / `Counted.unlink` / `Counted.drop` — one link more, one less, and all links of one
  owner less, the counters following.
* `decrement` fails where a counter is missing or zero, which never happens while the table is
  counted.
-/

import Semaprax.Library.Collections

namespace Library

variable {K : Type} [LinearOrder K]

/-- The targets that each owner links to. -/
abbrev Links (K : Type) [LinearOrder K] := BTreeMap K (BTreeSet K)

def targetsOf (links : Links K) (owner : K) : List K :=
  match links[owner]? with
  | some targets => targets.toList
  | none => []

def owners (links : Links K) (target : K) : Finset K :=
  (links.keys.filter fun owner => target ∈ targetsOf links owner).toFinset

def countOf (counts : BTreeMap K Nat) (target : K) : Nat := counts.getD target 0

/-- Every counter says how many owners link to its target. -/
def Counted (links : Links K) (counts : BTreeMap K Nat) : Prop :=
  ∀ target, countOf counts target = (owners links target).card

/-- One more (`or_default`, `+= 1`). -/
def increment (counts : BTreeMap K Nat) (target : K) : BTreeMap K Nat :=
  counts.insert target (countOf counts target + 1)

/-- One less, and no counter at zero; `none` where there is nothing to count down. -/
def decrement (counts : BTreeMap K Nat) (target : K) : Option (BTreeMap K Nat) :=
  match counts[target]? with
  | none => none
  | some 0 => none
  | some 1 => some (counts.erase target)
  | some (count + 2) => some (counts.insert target (count + 1))

def decrementAll (counts : BTreeMap K Nat) : List K → Option (BTreeMap K Nat)
  | [] => some counts
  | target :: targets => do
      let counts ← decrement counts target
      decrementAll counts targets

theorem countOf_eq (counts : BTreeMap K Nat) (target : K) :
    countOf counts target = (counts[target]?).getD 0 := Std.TreeMap.getD_eq_getD_getElem?

theorem countOf_insert (counts : BTreeMap K Nat) (target other : K) (count : Nat) :
    countOf (counts.insert target count) other =
      if target = other then count else countOf counts other := by
  rw [countOf_eq, countOf_eq, BTreeMap.getElem?_insert_eq]
  split_ifs <;> rfl

theorem countOf_erase (counts : BTreeMap K Nat) (target other : K) :
    countOf (counts.erase target) other = if target = other then 0 else countOf counts other := by
  rw [countOf_eq, countOf_eq, BTreeMap.getElem?_erase_eq]
  split_ifs <;> rfl

theorem decrement_some {counts : BTreeMap K Nat} {target : K} (positive : 0 < countOf counts target) :
    ∃ after, decrement counts target = some after ∧
      ∀ other, countOf after other =
        if target = other then countOf counts other - 1 else countOf counts other := by
  rw [countOf_eq] at positive
  unfold decrement
  cases found : counts[target]? with
  | none => rw [found] at positive; exact absurd positive (lt_irrefl 0)
  | some count =>
    have here : countOf counts target = count := by
      rw [countOf_eq, found]
      rfl
    rcases count with _ | _ | count
    · rw [found] at positive
      exact absurd positive (lt_irrefl 0)
    · refine ⟨_, rfl, fun other => ?_⟩
      rw [countOf_erase]
      by_cases same : target = other
      · rw [if_pos same, if_pos same, ← same, here]
      · rw [if_neg same, if_neg same]
    · refine ⟨_, rfl, fun other => ?_⟩
      rw [countOf_insert]
      by_cases same : target = other
      · rw [if_pos same, if_pos same, ← same, here]
        rfl
      · rw [if_neg same, if_neg same]

theorem decrementAll_some {counts : BTreeMap K Nat} {targets : List K} (distinct : targets.Nodup)
    (positive : ∀ target ∈ targets, 0 < countOf counts target) :
    ∃ after, decrementAll counts targets = some after ∧
      ∀ other, countOf after other =
        if other ∈ targets then countOf counts other - 1 else countOf counts other := by
  induction targets generalizing counts with
  | nil => exact ⟨counts, rfl, fun other => rfl⟩
  | cons target targets ih =>
    rw [List.nodup_cons] at distinct
    obtain ⟨between, first, counted⟩ := decrement_some (positive target List.mem_cons_self)
    obtain ⟨after, rest, countedRest⟩ := ih distinct.2 fun other member => by
      have different : target ≠ other := fun same => distinct.1 (same ▸ member)
      rw [counted, if_neg different]
      exact positive other (List.mem_cons_of_mem _ member)
    refine ⟨after, ?_, fun other => ?_⟩
    · unfold decrementAll
      rw [first]
      exact rest
    · rw [countedRest, counted]
      by_cases same : target = other
      · have fresh : other ∉ targets := same ▸ distinct.1
        simp [same, fresh]
      · simp [same, Ne.symm same]

variable {links : Links K} {counts : BTreeMap K Nat} {owner target : K}

theorem mem_owners : owner ∈ owners links target ↔ target ∈ targetsOf links owner := by
  unfold owners
  rw [List.mem_toFinset, List.mem_filter, decide_eq_true_iff, BTreeMap.mem_keys_iff]
  refine and_iff_right_of_imp fun member => ?_
  rw [Std.TreeMap.mem_iff_isSome_getElem?]
  unfold targetsOf at member
  cases found : links[owner]? with
  | none => rw [found] at member; exact absurd member List.not_mem_nil
  | some targets => rfl

theorem targetsOf_nodup (links : Links K) (owner : K) : (targetsOf links owner).Nodup := by
  unfold targetsOf
  cases links[owner]? with
  | none => exact List.nodup_nil
  | some targets =>
    exact Std.TreeSet.distinct_toList.imp fun differ equal =>
      differ (Std.LawfulEqCmp.compare_eq_iff_eq.mpr equal)

theorem owners_congr {other : Links K}
    (same : ∀ owner, target ∈ targetsOf other owner ↔ target ∈ targetsOf links owner) :
    owners other target = owners links target := by
  ext owner
  rw [mem_owners, mem_owners, same]

theorem countOf_pos (counted : Counted links counts) (linked : target ∈ targetsOf links owner) :
    0 < countOf counts target := by
  rw [counted]
  exact Finset.card_pos.mpr ⟨owner, mem_owners.mpr linked⟩

theorem Counted.link {after : Links K} (counted : Counted links counts)
    (fresh : target ∉ targetsOf links owner)
    (adds : ∀ other aim, aim ∈ targetsOf after other ↔
      aim ∈ targetsOf links other ∨ (other = owner ∧ aim = target)) :
    Counted after (increment counts target) := by
  intro aim
  unfold increment
  rw [countOf_insert]
  by_cases same : target = aim
  · have grown : owners after aim = insert owner (owners links aim) := by
      ext other
      rw [mem_owners, adds, Finset.mem_insert, mem_owners]
      constructor
      · rintro (old | ⟨here, -⟩)
        · exact .inr old
        · exact .inl here
      · rintro (here | old)
        · exact .inr ⟨here, same.symm⟩
        · exact .inl old
    rw [if_pos same, grown, Finset.card_insert_of_notMem (by rwa [mem_owners, ← same]), counted,
      same]
  · rw [if_neg same, counted]
    exact congrArg Finset.card (owners_congr fun other => by
      rw [adds]
      exact (or_iff_left fun here => same here.2.symm)).symm

theorem Counted.unlink {after : Links K} (counted : Counted links counts)
    (linked : target ∈ targetsOf links owner)
    (removes : ∀ other aim, aim ∈ targetsOf after other ↔
      aim ∈ targetsOf links other ∧ ¬ (other = owner ∧ aim = target)) :
    ∃ counts', decrement counts target = some counts' ∧ Counted after counts' := by
  obtain ⟨counts', ran, less⟩ := decrement_some (countOf_pos counted linked)
  refine ⟨counts', ran, fun aim => ?_⟩
  rw [less]
  by_cases same : target = aim
  · have shrunk : owners after aim = (owners links aim).erase owner := by
      ext other
      rw [mem_owners, removes, Finset.mem_erase, mem_owners]
      constructor
      · exact fun kept => ⟨fun here => kept.2 ⟨here, same.symm⟩, kept.1⟩
      · exact fun kept => ⟨kept.2, fun gone => kept.1 gone.1⟩
    rw [if_pos same, shrunk, Finset.card_erase_of_mem (by rwa [mem_owners, ← same]), counted]
  · rw [if_neg same, counted]
    exact congrArg Finset.card (owners_congr fun other => by
      rw [removes]
      exact and_iff_left fun gone => same gone.2.symm).symm

theorem targetsOf_erase (links : Links K) (owner other : K) :
    targetsOf (links.erase owner) other = if owner = other then [] else targetsOf links other := by
  unfold targetsOf
  rw [BTreeMap.getElem?_erase_eq]
  split_ifs <;> rfl

theorem Counted.drop (counted : Counted links counts) (owner : K) :
    ∃ counts', decrementAll counts (targetsOf links owner) = some counts' ∧
      Counted (links.erase owner) counts' := by
  obtain ⟨counts', ran, less⟩ := decrementAll_some (targetsOf_nodup links owner)
    fun target linked => countOf_pos counted linked
  refine ⟨counts', ran, fun aim => ?_⟩
  have shrunk : owners (links.erase owner) aim = (owners links aim).erase owner := by
    ext other
    rw [mem_owners, targetsOf_erase, Finset.mem_erase, mem_owners]
    split_ifs with here
    · exact ⟨fun member => absurd member List.not_mem_nil, fun kept => absurd here.symm kept.1⟩
    · exact ⟨fun member => ⟨fun same => here same.symm, member⟩, fun kept => kept.2⟩
  rw [less, shrunk, counted]
  by_cases linked : aim ∈ targetsOf links owner
  · rw [if_pos linked, Finset.card_erase_of_mem (mem_owners.mpr linked)]
  · rw [if_neg linked, Finset.erase_eq_of_notMem fun member => linked (mem_owners.mp member)]

end Library
