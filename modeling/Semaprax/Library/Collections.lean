/-
**Ordered collections.**

The names `BTreeMap` and `BTreeSet` for the standard library's balanced trees over a linear order,
and the handful of facts about them in the form in which the developments below use them: the
comparison that the general lemmas speak of is replaced by equality of keys.
-/

import Mathlib

namespace Library

/-- An ordered map. -/
abbrev BTreeMap (K V : Type*) [LinearOrder K] := Std.TreeMap K V compare

/-- An ordered set. -/
abbrev BTreeSet (K : Type*) [LinearOrder K] := Std.TreeSet K compare

section Map

variable {K V : Type*} [LinearOrder K]

theorem BTreeMap.getElem?_insert_eq (map : BTreeMap K V) (key other : K) (value : V) :
    (map.insert key value)[other]? = if key = other then some value else map[other]? := by
  rw [Std.TreeMap.getElem?_insert]
  simp only [Std.LawfulEqCmp.compare_eq_iff_eq]

theorem BTreeMap.getElem?_erase_eq (map : BTreeMap K V) (key other : K) :
    (map.erase key)[other]? = if key = other then none else map[other]? := by
  rw [Std.TreeMap.getElem?_erase]
  simp only [Std.LawfulEqCmp.compare_eq_iff_eq]

theorem BTreeMap.mem_insert_iff (map : BTreeMap K V) (key other : K) (value : V) :
    other ∈ map.insert key value ↔ key = other ∨ other ∈ map := by
  rw [Std.TreeMap.mem_insert, Std.LawfulEqCmp.compare_eq_iff_eq]

theorem BTreeMap.mem_keys_iff (map : BTreeMap K V) (key : K) : key ∈ map.keys ↔ key ∈ map :=
  Std.TreeMap.mem_keys

theorem BTreeMap.mem_toList_iff (map : BTreeMap K V) (key : K) (value : V) :
    (key, value) ∈ map.toList ↔ map[key]? = some value :=
  Std.TreeMap.mem_toList_iff_getElem?_eq_some

theorem BTreeMap.size_insert_fresh (map : BTreeMap K V) (key : K) (value : V)
    (fresh : map[key]? = none) : (map.insert key value).size = map.size + 1 := by
  have absent : map.contains key = false := by
    rw [Std.TreeMap.contains_eq_isSome_getElem?, fresh]
    rfl
  rw [Std.TreeMap.size_insert, absent]
  rfl

theorem BTreeMap.getElem?_insertIfNew_eq (map : BTreeMap K V) (key other : K) (value : V) :
    (map.insertIfNew key value)[other]? =
      if key = other then (map[other]?).or (some value) else map[other]? := by
  rw [Std.TreeMap.getElem?_insertIfNew]
  simp only [Std.LawfulEqCmp.compare_eq_iff_eq, Std.TreeMap.mem_iff_isSome_getElem?]
  by_cases same : key = other
  · subst same
    cases map[key]? <;> simp
  · simp [same]

def BTreeMap.ofKeys (keys : List K) (value : V) : BTreeMap K V :=
  keys.foldl (fun map key => map.insert key value) ∅

theorem BTreeMap.getElem?_ofKeys (keys : List K) (value : V) (key : K) :
    (BTreeMap.ofKeys keys value)[key]? = if key ∈ keys then some value else none := by
  have grow : ∀ map : BTreeMap K V,
      (keys.foldl (fun map key => map.insert key value) map)[key]? =
        if key ∈ keys then some value else map[key]? := by
    induction keys with
    | nil => simp
    | cons first rest ih =>
      intro map
      rw [List.foldl_cons, ih, BTreeMap.getElem?_insert_eq]
      by_cases inside : key ∈ rest
      · simp [inside]
      · by_cases same : first = key
        · simp [same]
        · simp [inside, same, Ne.symm same]
  rw [BTreeMap.ofKeys, grow]
  simp

theorem BTreeMap.nodup_keys (map : BTreeMap K V) : map.keys.Nodup :=
  Std.TreeMap.distinct_keys.imp fun differ equal =>
    differ (Std.LawfulEqCmp.compare_eq_iff_eq.mpr equal)

theorem BTreeMap.getElem?_foldl_insertIfNew (keys : List K) (map : BTreeMap K V) (value : V)
    (key : K) : (keys.foldl (fun map key => map.insertIfNew key value) map)[key]? =
      if key ∈ keys then (map[key]?).or (some value) else map[key]? := by
  induction keys generalizing map with
  | nil => simp
  | cons first rest ih =>
    rw [List.foldl_cons, ih, BTreeMap.getElem?_insertIfNew_eq]
    by_cases inside : key ∈ rest <;> by_cases same : first = key <;>
      cases map[key]? <;> simp [inside, same, Ne.symm]

theorem BTreeMap.size_eq_length {map : BTreeMap K V} {keys : List K} (distinct : keys.Nodup)
    (same : ∀ key, key ∈ map ↔ key ∈ keys) : map.size = keys.length := by
  rw [← Std.TreeMap.length_keys]
  exact ((List.perm_ext_iff_of_nodup map.nodup_keys distinct).mpr fun key =>
    Std.TreeMap.mem_keys.trans (same key)).length_eq

def BTreeMap.collect (value : K → Option V) (keys : List K) : BTreeMap K V :=
  keys.foldl (fun map key => (value key).elim map fun found => map.insert key found) ∅

theorem BTreeMap.getElem?_collect (value : K → Option V) (keys : List K) (key : K) :
    (BTreeMap.collect value keys)[key]? = if key ∈ keys then value key else none := by
  have grow : ∀ map : BTreeMap K V, (∀ other, map[other]? = none ∨ map[other]? = value other) →
      (keys.foldl (fun map key => (value key).elim map fun found => map.insert key found) map)[key]? =
        if key ∈ keys then value key else map[key]? := by
    induction keys with
    | nil => simp
    | cons first rest ih =>
      intro map agrees
      rw [List.foldl_cons]
      cases known : value first with
      | none =>
        rw [Option.elim_none, ih map agrees]
        by_cases inside : key ∈ rest
        · simp [inside]
        · by_cases same : key = first
          · have absent : map[key]? = none := (agrees key).elim id fun equal => by
              rw [equal, same, known]
            rw [if_neg inside, absent, if_pos (same ▸ List.mem_cons_self), same, known]
          · simp [inside, same]
      | some found =>
        have agrees' : ∀ other, (map.insert first found)[other]? = none ∨
            (map.insert first found)[other]? = value other := by
          intro other
          rw [BTreeMap.getElem?_insert_eq]
          split_ifs with same
          · exact Or.inr (by rw [← same, known])
          · exact agrees other
        rw [Option.elim_some, ih _ agrees', BTreeMap.getElem?_insert_eq]
        by_cases inside : key ∈ rest
        · simp [inside]
        · by_cases same : first = key
          · subst same
            simp [known]
          · simp [inside, same, Ne.symm same]
  rw [BTreeMap.collect, grow ∅ (by simp)]
  simp

/-- Change the values of some keys, where there are any. -/
def BTreeMap.updateAll (change : K → V → V) (keys : List K) (map : BTreeMap K V) : BTreeMap K V :=
  keys.foldl (fun map key => map[key]?.elim map fun value => map.insert key (change key value)) map

theorem BTreeMap.getElem?_updateAll (change : K → V → V) {keys : List K} (distinct : keys.Nodup)
    (map : BTreeMap K V) (key : K) : (map.updateAll change keys)[key]? =
      if key ∈ keys then map[key]?.map (change key) else map[key]? := by
  induction keys generalizing map with
  | nil => simp [BTreeMap.updateAll]
  | cons first rest ih =>
    obtain ⟨fresh, distinct⟩ := List.nodup_cons.mp distinct
    have step : (map.updateAll change (first :: rest)) =
        BTreeMap.updateAll change rest
          (map[first]?.elim map fun value => map.insert first (change first value)) := rfl
    rw [step, ih distinct]
    by_cases same : key = first
    · subst same
      rw [if_neg fresh, if_pos List.mem_cons_self]
      cases found : map[key]? with
      | none => simp [found]
      | some value => simp
    · have other : (map[first]?.elim map fun value =>
          map.insert first (change first value))[key]? = map[key]? := by
        cases map[first]? with
        | none => rfl
        | some value =>
          rw [Option.elim_some, BTreeMap.getElem?_insert_eq, if_neg (Ne.symm same)]
      rw [other]
      simp [same]

end Map

section Set

variable {K : Type*} [LinearOrder K]

theorem BTreeSet.mem_insert_iff (set : BTreeSet K) (key other : K) :
    other ∈ set.insert key ↔ key = other ∨ other ∈ set := by
  rw [Std.TreeSet.mem_insert]
  simp only [Std.LawfulEqCmp.compare_eq_iff_eq]

theorem BTreeSet.mem_toList_iff (set : BTreeSet K) (key : K) : key ∈ set.toList ↔ key ∈ set :=
  Std.TreeSet.mem_toList

theorem BTreeSet.nodup_toList (set : BTreeSet K) : set.toList.Nodup :=
  Std.TreeSet.distinct_toList.imp fun differ equal =>
    differ (Std.LawfulEqCmp.compare_eq_iff_eq.mpr equal)

def BTreeSet.collect (keys : List K) : BTreeSet K := keys.foldl (fun set key => set.insert key) ∅

theorem BTreeSet.mem_collect (keys : List K) (key : K) :
    key ∈ BTreeSet.collect keys ↔ key ∈ keys := by
  have grow : ∀ set : BTreeSet K, key ∈ keys.foldl (fun set key => set.insert key) set ↔
      key ∈ keys ∨ key ∈ set := by
    induction keys with
    | nil => simp
    | cons first rest ih =>
      intro set
      rw [List.foldl_cons, ih, BTreeSet.mem_insert_iff, List.mem_cons]
      constructor
      · rintro (inside | rfl | before)
        · exact Or.inl (Or.inr inside)
        · exact Or.inl (Or.inl rfl)
        · exact Or.inr before
      · rintro ((rfl | inside) | before)
        · exact Or.inr (Or.inl rfl)
        · exact Or.inl inside
        · exact Or.inr (Or.inr before)
  rw [BTreeSet.collect, grow ∅]
  simp

theorem BTreeSet.exists_not_mem [Infinite K] (set : BTreeSet K) : ∃ key, key ∉ set := by
  obtain ⟨key, fresh⟩ := Infinite.exists_notMem_finset set.toList.toFinset
  exact ⟨key, fun member => fresh (List.mem_toFinset.mpr (Std.TreeSet.mem_toList.mpr member))⟩

/-- The least element (`first`), read off the sorted list so that it evaluates. -/
def BTreeSet.first? (set : BTreeSet K) : Option K := set.toList.head?

theorem BTreeSet.mem_of_first? {set : BTreeSet K} {key : K} (least : set.first? = some key) :
    key ∈ set :=
  Std.TreeSet.mem_toList.mp (List.mem_of_head? least)

theorem BTreeSet.not_mem_of_first? {set : BTreeSet K} (none : set.first? = none) (key : K) :
    key ∉ set := by
  rw [← Std.TreeSet.mem_toList, List.head?_eq_none_iff.mp none]
  exact List.not_mem_nil

end Set

end Library
