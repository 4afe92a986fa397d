/-
**The bounds of a derived type graph** (`agent_interaction_schema/shape.rs`).

The budgets are checked where a type is entered, against the path that leads there first and the types
that are finished by then. A type that is met again by a longer path is not looked at, and the types
that are still open are not counted.

* `TypeGraph.Bounded` — what the bounds of a graph say; `Reordered` — the fields in another order.
* `WithinBounds`, `AllAdmitted`, `Overruns` — the types that can be reached from a root, and the walk.
* `derive_bounded_iff` — **when a derivation respects its bounds in every order of the fields**.
-/

import Semaprax.InteractionSchema.Decode
import Semaprax.InteractionSchema.Derivation

namespace Semaprax.InteractionSchema

open Library
open LiveInvocation (Value Object)

def TypeGraph.Refers (graph : TypeGraph) (first second : String) : Prop :=
  ∃ decl, graph.get first = some decl ∧ second ∈ decl.shape.references

structure TypeGraph.Bounded (graph : TypeGraph) : Prop where
  few : graph.types.length ≤ maxTypes
  root : graph.rootTypeId ∈ names graph.types
  once : (names graph.types).Nodup
  ordered : ∀ before decl after, graph.types = before ++ decl :: after →
    ∀ id ∈ decl.shape.references, id ∈ names before
  resolves : ∀ decl ∈ graph.types, ∀ id ∈ decl.shape.references, (graph.get id).isSome
  acyclic : ∀ id, ¬ Relation.TransGen graph.Refers id id
  shallow : ∀ n id, ReachesIn (· = graph.rootTypeId) graph.Refers n id → n ≤ maxDepth
  decodes : ∀ value, decodeType graph (maxDepth + 1) graph.rootTypeId value ≠
    .error (decodeInvariant "value.max_depth")

section Decoding

variable {graph : TypeGraph} {descend : String → Value → Except Diagnostic TypedValue}

def tooDeep : Diagnostic := decodeInvariant "value.max_depth"

theorem decodeBytes_deep (elements : List Value) : decodeBytes elements ≠ .error tooDeep := by
  induction elements with
  | nil => simp [decodeBytes]
  | cons element elements ih =>
    intro failed
    rw [decodeBytes, bind_eq_error] at failed
    rcases failed with failed | ⟨_, -, failed⟩
    · exact absurd (okOr_eq_error.mp failed).2 (by decide)
    · rcases bind_eq_error.mp failed with failed | ⟨_, -, failed⟩
      · exact ih failed
      · cases failed

theorem decodeInteger_deep (representation : Representation) (text : String) :
    decodeInteger representation text ≠ .error tooDeep := by
  have signed : ∀ bounds number, decodeSigned bounds number ≠ .error tooDeep := by
    intro bounds number failed
    rcases bind_eq_error.mp failed with failed | ⟨_, -, failed⟩
    · exact absurd (okOr_eq_error.mp failed).2 (by decide)
    · split_ifs at failed
      exact absurd (Except.error.inj failed) (by decide)
  have unsigned : ∀ bounds negative magnitude,
      decodeUnsigned bounds negative magnitude ≠ .error tooDeep := by
    intro bounds negative magnitude failed
    unfold decodeUnsigned at failed
    split_ifs at failed
    exact absurd (Except.error.inj failed) (by decide)
  intro failed
  unfold decodeInteger at failed
  split_ifs at failed
  · cases representation
    case i32 | i64 => exact signed _ _ failed
    case u8 | u64 => exact unsigned _ _ _ failed
    all_goals exact absurd (Except.error.inj failed) (by decide)
  · exact absurd (Except.error.inj failed) (by decide)

theorem decodeScalar_deep (representation : Representation) (value : Value) :
    decodeScalar representation value ≠ .error tooDeep := by
  intro failed
  cases representation
  case bool => exact absurd (okOr_eq_error.mp failed).2 (by decide)
  case text =>
    rcases bind_eq_error.mp failed with failed | ⟨_, -, failed⟩
    · exact absurd (okOr_eq_error.mp failed).2 (by decide)
    · split_ifs at failed
      exact absurd (Except.error.inj failed) (by decide)
  case bytes =>
    rcases bind_eq_error.mp failed with failed | ⟨_, -, failed⟩
    · exact absurd (okOr_eq_error.mp failed).2 (by decide)
    · split_ifs at failed
      · exact absurd (Except.error.inj failed) (by decide)
      · rcases bind_eq_error.mp failed with failed | ⟨_, -, failed⟩
        · exact decodeBytes_deep _ failed
        · cases failed
  all_goals
    rcases bind_eq_error.mp failed with failed | ⟨_, -, failed⟩
    · exact absurd (okOr_eq_error.mp failed).2 (by decide)
    · exact decodeInteger_deep _ _ failed

theorem map_eq_error {A B : Type} {f : A → B} {first : Except Diagnostic A} {failure : Diagnostic} :
    (f <$> first) = .error failure ↔ first = .error failure := by
  cases first with
  | error failure | ok value => simp

theorem decodeFields_deep {rows : List FieldRow} {object : Object}
    (failed : decodeFields descend rows object = .error tooDeep) :
    ∃ id ∈ rowReferences rows, ∃ value, descend id value = .error tooDeep := by
  unfold decodeFields at failed
  split_ifs at failed with known
  · clear known
    induction rows with
    | nil => cases failed
    | cons row rows ih =>
      have later : decodeRows descend object rows = .error tooDeep →
          ∃ id ∈ rowReferences (row :: rows), ∃ value, descend id value = .error tooDeep := by
        intro failed
        obtain ⟨id, member, deep⟩ := ih failed
        exact ⟨id, List.mem_append_right _ member, deep⟩
      rcases bind_eq_error.mp failed with failed | ⟨value, -, failed⟩
      · exact absurd (okOr_eq_error.mp failed).2 (by decide)
      · obtain ⟨stableId, ty⟩ := row
        cases ty with
        | scalar representation =>
          rcases bind_eq_error.mp failed with failed | ⟨_, -, failed⟩
          · exact absurd (map_eq_error.mp failed) (decodeScalar_deep _ _)
          · rcases bind_eq_error.mp failed with failed | ⟨_, -, failed⟩
            · exact later failed
            · cases failed
        | nested id =>
          rcases bind_eq_error.mp failed with failed | ⟨_, -, failed⟩
          · exact ⟨id, List.mem_append_left _ (List.mem_singleton_self id), value,
              map_eq_error.mp failed⟩
          · rcases bind_eq_error.mp failed with failed | ⟨_, -, failed⟩
            · exact later failed
            · cases failed
  · exact absurd (Except.error.inj failed) (by decide)

/-- **A value is refused for its depth only where the types refer on for as many steps.** -/
theorem decodeType_deep {left : Nat} {id : String} {value : Value}
    (failed : decodeType graph left id value = .error tooDeep) :
    ∃ last, ReachesIn (· = id) graph.Refers left last := by
  induction left generalizing id value with
  | zero => exact ⟨id, .base rfl⟩
  | succ left ih =>
    have below : ∀ {decl : TypeDecl} {rows : List FieldRow} {object : Object},
        graph.get id = some decl → (∀ next ∈ rowReferences rows, next ∈ decl.shape.references) →
        decodeFields (decodeType graph left) rows object = .error tooDeep →
        ∃ last, ReachesIn (· = id) graph.Refers (left + 1) last := by
      intro decl rows object found refers failed
      obtain ⟨next, member, value, failed⟩ := decodeFields_deep failed
      obtain ⟨last, reached⟩ := ih failed
      refine ⟨last, reached.under ?_⟩
      rintro _ rfl
      exact ⟨id, rfl, decl, found, refers _ member⟩
    rw [decodeType] at failed
    rcases bind_eq_error.mp failed with failed | ⟨decl, found, failed⟩
    · exact absurd (okOr_eq_error.mp failed).2 (by decide)
    have found : graph.get id = some decl := okOr_eq_ok.mp found
    rcases bind_eq_error.mp failed with failed | ⟨object, -, failed⟩
    · exact absurd (okOr_eq_error.mp failed).2 (by decide)
    obtain ⟨stableId, shape⟩ := decl
    cases shape with
    | record fields =>
      dsimp only at failed
      split_ifs at failed
      · rcases bind_eq_error.mp failed with failed | ⟨object, -, failed⟩
        · exact absurd (okOr_eq_error.mp failed).2 (by decide)
        rcases bind_eq_error.mp failed with failed | ⟨_, -, failed⟩
        · exact below found (fun next member => member) failed
        · cases failed
      · exact absurd (Except.error.inj failed) (by decide)
    | variant cases =>
      dsimp only at failed
      split_ifs at failed
      · rcases bind_eq_error.mp failed with failed | ⟨selected, -, failed⟩
        · exact absurd (okOr_eq_error.mp failed).2 (by decide)
        rcases bind_eq_error.mp failed with failed | ⟨case, chosen, failed⟩
        · exact absurd (okOr_eq_error.mp failed).2 (by decide)
        rcases bind_eq_error.mp failed with failed | ⟨object, -, failed⟩
        · exact absurd (okOr_eq_error.mp failed).2 (by decide)
        rcases bind_eq_error.mp failed with failed | ⟨_, -, failed⟩
        · refine below found (fun next member => ?_) failed
          exact List.mem_flatMap.mpr
            ⟨case, List.mem_of_find?_eq_some (okOr_eq_ok.mp chosen), member⟩
        · cases failed
      · exact absurd (Except.error.inj failed) (by decide)

end Decoding

section Reach

variable (resolved : ResolvedProgram) (rootTypeId : String)

/-- The types that a root refers to, by any number of steps. -/
def reachable : Set String :=
  {id | Reaches (· = rootTypeId) (Follows (references resolved)) id}

/-- Few types are reached from the root, and each by short paths only. -/
structure WithinBounds : Prop where
  few : (reachable resolved rootTypeId).encard ≤ maxTypes
  shallow : ∀ n id, ReachesIn (· = rootTypeId) (Follows (references resolved)) n id → n ≤ maxDepth

/-- The declarations of all types that are reached are admitted. -/
def AllAdmitted : Prop := ∀ id ∈ reachable resolved rootTypeId, (admittedShape resolved id).isSome

/-- A depth-first walk from the root meets some type below the deepest nesting, or when the most types
are finished; a walk around a cycle has no end. -/
def Overruns : Prop :=
  ∀ after meetings, Walk (references resolved) 0 [] [rootTypeId] after meetings →
    ∃ meeting ∈ meetings, maxDepth < meeting.depth ∨ maxTypes ≤ meeting.finished

end Reach

section Derives

variable {resolved : ResolvedProgram} {rootTypeId : String} {after : List String}
  {meetings : List (Meeting String)}

theorem mem_after_iff (walk : Walk (references resolved) 0 [] [rootTypeId] after meetings)
    {id : String} : id ∈ after ↔ id ∈ reachable resolved rootTypeId := by
  constructor
  · intro member
    obtain ⟨meeting, met, rfl⟩ :=
      List.mem_map.mp ((walk.mem_iff.mp member).resolve_left List.not_mem_nil)
    obtain ⟨n, -, reached⟩ := walk.meeting_reached met
    exact ⟨n, reached.mono fun _ => List.mem_singleton.mp⟩
  · intro reached
    refine Reaches.invariant (P := (· ∈ after)) ?_ ?_ reached
    · rintro _ rfl
      exact walk.visited (List.mem_singleton_self _)
    · exact fun first second => (walk.layered .nil).closed

/-- **A graph is derived** when the declarations are admitted and some walk keeps the budgets. -/
theorem derives_iff : (∃ graph, derive resolved rootTypeId = .ok graph) ↔
    AllAdmitted resolved rootTypeId ∧ ¬ Overruns resolved rootTypeId := by
  constructor
  · rintro ⟨graph, derived⟩
    obtain ⟨rfl, -, meetings, walk, passes⟩ := derive_eq_ok_iff.mp derived
    refine ⟨fun id reached => ?_, fun overruns => ?_⟩
    · obtain ⟨meeting, met, rfl⟩ := List.mem_map.mp
        ((walk.mem_iff.mp ((mem_after_iff walk).mpr reached)).resolve_left List.not_mem_nil)
      exact (passes meeting met).admitted
    · obtain ⟨meeting, met, past⟩ := overruns _ _ walk
      rcases past with deep | full
      · exact absurd (passes meeting met).depth (Nat.not_le.mpr deep)
      · exact absurd (passes meeting met).room (Nat.not_lt.mpr full)
  · rintro ⟨admitted, kept⟩
    unfold Overruns at kept
    push Not at kept
    obtain ⟨after, meetings, walk, kept⟩ := kept
    have passes : ∀ meeting ∈ meetings, Passes resolved meeting := fun meeting met => by
      obtain ⟨shallow, room⟩ := kept meeting met
      refine ⟨shallow, room, admitted _ ((mem_after_iff walk).mp ?_)⟩
      exact walk.mem_iff.mpr (Or.inr (List.mem_map_of_mem met))
    obtain ⟨types, derived, named⟩ := @derive_of_walk resolved _ 0 (Nat.zero_add _) [] _ _ [] _ walk
      .nil fun meeting met => ⟨passes meeting met, List.not_mem_nil⟩
    obtain ⟨-, -, -, faithful⟩ := walk_of_derive (Nat.zero_add _) derived
    subst named
    exact ⟨⟨rootTypeId, types⟩, derive_eq_ok_iff.mpr
      ⟨rfl, faithful (List.forall_mem_nil _), meetings, walk, passes⟩⟩

theorem WithinBounds.keeps (within : WithinBounds resolved rootTypeId) :
    ¬ Overruns resolved rootTypeId := by
  intro overruns
  obtain ⟨after, meetings, walk⟩ := Walk.exists_of_bounded (references resolved) (maxDepth + 1) 0 []
    [rootTypeId] fun n id reached => Nat.lt_succ_of_le
      (within.shallow n id (reached.mono fun _ => List.mem_singleton.mp))
  obtain ⟨meeting, met, past⟩ := overruns after meetings walk
  rcases past with deep | full
  · obtain ⟨n, depth, reached⟩ := walk.meeting_reached met
    have shallow := within.shallow n _ (reached.mono fun _ => List.mem_singleton.mp)
    omega
  · obtain ⟨l, length, distinct, inside⟩ := walk.meeting_finished .nil List.nodup_nil met
    have few : ((l ++ [meeting.node]).toFinset : Set String).encard ≤ maxTypes := by
      refine (Set.encard_le_encard fun id member => ?_).trans within.few
      exact (mem_after_iff walk).mp (inside (List.mem_toFinset.mp member))
    rw [Set.encard_coe_eq_coe_finsetCard, List.toFinset_card_of_nodup distinct, List.length_append,
      List.length_singleton] at few
    have : l.length + 1 ≤ maxTypes := by exact_mod_cast few
    omega

end Derives

section Derived

variable {resolved : ResolvedProgram} {rootTypeId : String} {graph : TypeGraph}

variable {decl : TypeDecl} {id : String}

theorem get_of_mem (once : (names graph.types).Nodup)
    (member : decl ∈ graph.types) : graph.get decl.stableId = some decl := by
  unfold TypeGraph.get
  generalize graph.types = types at once member
  induction types with
  | nil => cases member
  | cons head types ih =>
    obtain ⟨fresh, once⟩ := List.nodup_cons.mp once
    rcases List.mem_cons.mp member with rfl | member
    · rw [List.find?_cons_of_pos (by simp)]
    · rw [List.find?_cons_of_neg, ih once member]
      intro same
      have named : head.stableId = decl.stableId := by simpa using same
      exact fresh (named ▸ List.mem_map_of_mem member)

theorem get_isSome_iff : (graph.get id).isSome ↔ id ∈ names graph.types := by
  unfold TypeGraph.get names
  rw [List.find?_isSome, List.mem_map]
  simp only [decide_eq_true_eq]

theorem get_mem (found : graph.get id = some decl) : decl ∈ graph.types ∧ decl.stableId = id :=
  ⟨List.mem_of_find?_eq_some found, by simpa using List.find?_some found⟩

/-- What a derived graph is: the types that the root reaches, each once and after those it refers to,
with the references of their declarations. -/
structure Derived (resolved : ResolvedProgram) (graph : TypeGraph) : Prop where
  faithful : Faithful resolved graph.types
  layered : Layered (references resolved) (names graph.types)
  once : (names graph.types).Nodup
  reaches : ∀ id, id ∈ names graph.types ↔ id ∈ reachable resolved graph.rootTypeId

theorem derived_of_ok (derived : derive resolved rootTypeId = .ok graph) :
    graph.rootTypeId = rootTypeId ∧ Derived resolved graph := by
  obtain ⟨rfl, faithful, meetings, walk, -⟩ := derive_eq_ok_iff.mp derived
  exact ⟨rfl, faithful, walk.layered .nil, walk.nodup .nil List.nodup_nil,
    fun id => mem_after_iff walk⟩

namespace Derived

variable (derived : Derived resolved graph)

include derived

theorem references_of_mem {decl : TypeDecl} (member : decl ∈ graph.types) :
    references resolved decl.stableId = decl.shape.references :=
  references_eq (derived.faithful decl member)

theorem refers_iff {first second : String} : graph.Refers first second ↔
    first ∈ names graph.types ∧ Follows (references resolved) first second := by
  constructor
  · rintro ⟨decl, found, refers⟩
    obtain ⟨member, rfl⟩ := get_mem found
    refine ⟨List.mem_map_of_mem member, ?_⟩
    unfold Follows
    rwa [derived.references_of_mem member]
  · rintro ⟨member, follows⟩
    obtain ⟨decl, inside, rfl⟩ := List.mem_map.mp member
    refine ⟨decl, get_of_mem derived.once inside, ?_⟩
    rwa [← derived.references_of_mem inside]

theorem root_mem : graph.rootTypeId ∈ names graph.types :=
  (derived.reaches _).mpr (.base rfl)

theorem reachesIn_iff {n : Nat} {id : String} : ReachesIn (· = graph.rootTypeId) graph.Refers n id ↔
      ReachesIn (· = graph.rootTypeId) (Follows (references resolved)) n id := by
  constructor
  · intro reached
    induction reached with
    | base initial => exact .base initial
    | step _ move ih => exact .step ih (derived.refers_iff.mp move).2
  · intro reached
    induction reached with
    | base initial => exact .base initial
    | @step n first second prior move ih =>
      exact .step ih (derived.refers_iff.mpr ⟨(derived.reaches first).mpr ⟨n, prior⟩, move⟩)

/-- **Within the bounds of the declarations, a graph is bounded.** -/
theorem bounded (within : WithinBounds resolved graph.rootTypeId) : graph.Bounded where
  few := by
    have few : ((names graph.types).toFinset : Set String).encard ≤ maxTypes := by
      refine (Set.encard_le_encard fun id member => ?_).trans within.few
      exact (derived.reaches id).mp (List.mem_toFinset.mp member)
    rw [Set.encard_coe_eq_coe_finsetCard, List.toFinset_card_of_nodup derived.once, names,
      List.length_map] at few
    exact_mod_cast few
  root := derived.root_mem
  once := derived.once
  ordered := by
    intro before decl after parted id refers
    have member : decl ∈ graph.types := by simp [parted]
    rw [← derived.references_of_mem member] at refers
    refine derived.layered.before derived.once (?_ : names graph.types =
      names before ++ decl.stableId :: names after) id refers
    rw [parted, names_append]
    rfl
  resolves := by
    intro decl member id refers
    rw [← derived.references_of_mem member] at refers
    exact get_isSome_iff.mpr (derived.layered.closed (List.mem_map_of_mem member) refers)
  acyclic := by
    intro id cycle
    obtain ⟨second, first, -⟩ := Relation.TransGen.head'_iff.mp cycle
    refine derived.layered.acyclic (derived.refers_iff.mp first).1 ?_
    exact cycle.lift (fun id => id) fun _ _ refers => (derived.refers_iff.mp refers).2
  shallow := fun n id reached => within.shallow n id (derived.reachesIn_iff.mp reached)
  decodes := by
    intro value failed
    obtain ⟨last, reached⟩ := decodeType_deep failed
    exact absurd (within.shallow _ _ (derived.reachesIn_iff.mp reached)) (Nat.not_succ_le_self _)

theorem within (bounded : graph.Bounded) : WithinBounds resolved graph.rootTypeId where
  few := by
    have covered : reachable resolved graph.rootTypeId ⊆ ((names graph.types).toFinset : Set String) :=
      fun id reached => List.mem_toFinset.mpr ((derived.reaches id).mpr reached)
    refine (Set.encard_le_encard covered).trans ?_
    rw [Set.encard_coe_eq_coe_finsetCard, List.toFinset_card_of_nodup derived.once, names,
      List.length_map]
    exact_mod_cast bounded.few
  shallow := fun n id reached => bounded.shallow n id (derived.reachesIn_iff.mpr reached)

end Derived

end Derived

/-- A declaration with its fields in another order. -/
inductive ResolvedTypeDeclarationKind.Reordered :
    ResolvedTypeDeclarationKind → ResolvedTypeDeclarationKind → Prop
  | resource : Reordered .resource .resource
  | record {fields fields' : List ResolvedFieldDeclaration} (reordered : fields.Perm fields') :
      Reordered (.record fields) (.record fields')
  | class_ : Reordered .class_ .class_
  | variant {cases cases' : List ResolvedVariantCaseDeclaration}
      (reordered : List.Forall₂ (fun case case' => case.id = case'.id ∧
        case.fields.Perm case'.fields) cases cases') : Reordered (.variant cases) (.variant cases')

/-- A program with the fields of its declarations in another order. -/
structure Reordered (resolved resolved' : ResolvedProgram) : Prop where
  declarations : resolved.declarations = resolved'.declarations
  types : List.Forall₂ (fun declaration declaration' => declaration.id = declaration'.id ∧
    declaration.typeParameters = declaration'.typeParameters ∧
    declaration.kind.Reordered declaration'.kind) resolved.types resolved'.types

section Reordered

variable {resolved resolved' : ResolvedProgram} {rootTypeId : String}

variable {kind kind' : ResolvedTypeDeclarationKind}

theorem ResolvedTypeDeclarationKind.Reordered.symm
    (reordered : kind.Reordered kind') : kind'.Reordered kind := by
  cases reordered with
  | resource => exact .resource
  | record fields => exact .record fields.symm
  | class_ => exact .class_
  | variant cases =>
    exact .variant (cases.flip.imp fun _ _ ⟨same, fields⟩ => ⟨same.symm, fields.symm⟩)

theorem ResolvedTypeDeclarationKind.Reordered.refl (kind : ResolvedTypeDeclarationKind) :
    kind.Reordered kind := by
  cases kind with
  | resource => exact .resource
  | record fields => exact .record (.refl _)
  | class_ => exact .class_
  | variant cases => exact .variant (List.forall₂_same.mpr fun _ _ => ⟨rfl, .refl _⟩)

theorem Reordered.refl (resolved : ResolvedProgram) : Reordered resolved resolved where
  declarations := rfl
  types := List.forall₂_same.mpr fun declaration _ => ⟨rfl, rfl, .refl declaration.kind⟩

theorem Reordered.symm (reordered : Reordered resolved resolved') : Reordered resolved' resolved where
  declarations := reordered.declarations.symm
  types := reordered.types.flip.imp fun _ _ ⟨named, generic, kinds⟩ =>
    ⟨named.symm, generic.symm, kinds.symm⟩

theorem mapM_perm {A B : Type} {f : A → Option B} {l l' : List A} (perm : l.Perm l') {rows : List B}
    (read : l.mapM f = some rows) : ∃ rows', l'.mapM f = some rows' ∧ rows.Perm rows' := by
  induction perm generalizing rows with
  | nil => exact ⟨rows, read, .refl _⟩
  | cons a _ ih =>
    simp only [List.mapM_cons, Option.bind_eq_bind, Option.bind_eq_some_iff, Option.pure_def,
      Option.some.injEq] at read ⊢
    obtain ⟨row, first, rest, read, rfl⟩ := read
    obtain ⟨rest', read', perm⟩ := ih read
    exact ⟨row :: rest', ⟨row, first, rest', read', rfl⟩, perm.cons row⟩
  | swap a b l =>
    simp only [List.mapM_cons, Option.bind_eq_bind, Option.bind_eq_some_iff, Option.pure_def,
      Option.some.injEq] at read ⊢
    obtain ⟨first, read, _, ⟨second, read', rest, read'', rfl⟩, rfl⟩ := read
    exact ⟨second :: first :: rest,
      ⟨second, read', first :: rest, ⟨first, read, rest, read'', rfl⟩, rfl⟩, .swap _ _ _⟩
  | trans _ _ ih ih' =>
    obtain ⟨rows', read', perm⟩ := ih read
    obtain ⟨rows'', read'', perm'⟩ := ih' read'
    exact ⟨rows'', read'', perm.trans perm'⟩

theorem rowReferences_perm {rows rows' : List FieldRow} (perm : rows.Perm rows') :
    (rowReferences rows).Perm (rowReferences rows') := perm.flatMap_right _

theorem kindShape_reordered
    (reordered : kind.Reordered kind') {shape : TypeShape} (read : kindShape resolved kind = some shape) :
    ∃ shape', kindShape resolved kind' = some shape' ∧
      shape.references.Perm shape'.references := by
  cases reordered with
  | resource | class_ => cases read
  | record perm =>
    rw [kindShape] at read
    obtain ⟨rows, all, rfl⟩ := Option.map_eq_some_iff.mp read
    obtain ⟨rows', read', perm⟩ := mapM_perm perm all
    exact ⟨.record rows', by rw [kindShape, read']; rfl, rowReferences_perm perm⟩
  | @variant cases cases' reordered =>
    rw [kindShape] at read
    split_ifs at read with none
    obtain ⟨rows, all, rfl⟩ := Option.map_eq_some_iff.mp read
    have some' : cases'.isEmpty = false := by
      cases reordered with
      | nil => exact absurd rfl none
      | cons _ _ => rfl
    have alike : ∃ rows', cases'.mapM (caseOf resolved) = some rows' ∧
        (TypeShape.variant rows).references.Perm (TypeShape.variant rows').references := by
      clear none some' read
      induction reordered generalizing rows with
      | nil =>
        obtain rfl : [] = rows := Option.some.inj all
        exact ⟨[], rfl, .refl _⟩
      | @cons case case' cases cases' same _ ih =>
        simp only [List.mapM_cons, Option.bind_eq_bind, Option.bind_eq_some_iff,
          Option.pure_def, Option.some.injEq] at all ⊢
        obtain ⟨row, first, rest, all, rfl⟩ := all
        obtain ⟨rest', read', perm⟩ := ih rest all
        obtain ⟨named, fields⟩ := same
        unfold caseOf at first
        split_ifs at first with kept
        obtain ⟨rows, typed, rfl⟩ := Option.map_eq_some_iff.mp first
        obtain ⟨rows', first', perm'⟩ := mapM_perm fields typed
        refine ⟨⟨case'.id, rows'⟩ :: rest', ⟨_, ?_, rest', read', rfl⟩, ?_⟩
        · unfold caseOf
          rw [← named, if_pos kept, first']
          rfl
        · exact (rowReferences_perm perm').append perm
    obtain ⟨rows', read', perm⟩ := alike
    exact ⟨.variant rows', by rw [kindShape, some', read']; rfl, perm⟩

namespace Reordered

variable (reordered : Reordered resolved resolved')

include reordered

variable {id : String}

theorem admittedShape {shape : TypeShape}
    (admitted : InteractionSchema.admittedShape resolved id = some shape) :
    ∃ shape', InteractionSchema.admittedShape resolved' id = some shape' ∧
      shape.references.Perm shape'.references := by
  have origins := reordered.declarations
  have found : ∀ {declaration}, resolved.declaration id = some declaration →
      ∃ declaration', resolved'.declaration id = some declaration' ∧
        declaration.typeParameters = declaration'.typeParameters ∧
        declaration.kind.Reordered declaration'.kind := by
    intro declaration found
    unfold ResolvedProgram.declaration at found ⊢
    have types := reordered.types
    generalize resolved.types = types, resolved'.types = types' at found types
    induction types with
    | nil => cases found
    | @cons head head' _ _ same _ ih =>
      obtain ⟨named, generic, kinds⟩ := same
      by_cases here : head.id = id
      · rw [List.find?_cons_of_pos (by simpa using here)] at found
        obtain rfl := Option.some.inj found
        exact ⟨head', by rw [List.find?_cons_of_pos (by simpa using named ▸ here)], generic, kinds⟩
      · rw [List.find?_cons_of_neg (by simpa using here)] at found
        obtain ⟨declaration', found', rest⟩ := ih found
        exact ⟨declaration', by rwa [List.find?_cons_of_neg (by simpa using named ▸ here)], rest⟩
  unfold InteractionSchema.admittedShape at admitted ⊢
  obtain ⟨declaration, here, admitted⟩ := Option.bind_eq_some_iff.mp admitted
  obtain ⟨declaration', here', generic, kinds⟩ := found here
  split_ifs at admitted with plain
  obtain ⟨shape', read, perm⟩ := kindShape_reordered kinds admitted
  refine ⟨shape', ?_, perm⟩
  have same : ∀ kind, kindShape resolved' kind = kindShape resolved kind := by
    intro kind
    have rows : rowOf resolved' = rowOf resolved := by
      funext field
      unfold rowOf isPersistent
      rw [origins]
    have cases : caseOf resolved' = caseOf resolved := by
      funext case
      unfold caseOf isPersistent
      rw [origins, rows]
    cases kind <;> simp only [kindShape, rows, cases]
  have plain' : declaration'.typeParameters.isEmpty = true ∧ isPersistent resolved' id = true := by
    unfold isPersistent at plain ⊢
    rwa [← generic, ← origins]
  rw [here', Option.bind_some, if_pos plain', same, read]

theorem isSome_iff : (InteractionSchema.admittedShape resolved id).isSome ↔
    (InteractionSchema.admittedShape resolved' id).isSome := by
  constructor
  · intro some
    obtain ⟨shape, admitted⟩ := Option.isSome_iff_exists.mp some
    obtain ⟨shape', admitted', -⟩ := reordered.admittedShape admitted
    exact Option.isSome_of_eq_some admitted'
  · intro some
    obtain ⟨shape, admitted⟩ := Option.isSome_iff_exists.mp some
    obtain ⟨shape', admitted', -⟩ := reordered.symm.admittedShape admitted
    exact Option.isSome_of_eq_some admitted'

/-- The types refer to the same types. -/
theorem follows : Follows (references resolved) = Follows (references resolved') := by
  funext first second
  refine propext ?_
  unfold Follows references
  cases here : InteractionSchema.admittedShape resolved first with
  | none =>
    cases here' : InteractionSchema.admittedShape resolved' first with
    | none => exact Iff.rfl
    | some shape' =>
      have some := reordered.isSome_iff.mpr (Option.isSome_of_eq_some here')
      rw [here] at some
      cases some
  | some shape =>
    obtain ⟨shape', here', perm⟩ := reordered.admittedShape here
    rw [here']
    exact perm.mem_iff

theorem reachable_eq (rootTypeId : String) :
    reachable resolved rootTypeId = reachable resolved' rootTypeId := by
  unfold reachable
  rw [reordered.follows]

theorem allAdmitted_iff : AllAdmitted resolved rootTypeId ↔ AllAdmitted resolved' rootTypeId := by
  unfold AllAdmitted
  rw [reordered.reachable_eq]
  exact forall₂_congr fun _ _ => reordered.isSome_iff

theorem withinBounds (within : WithinBounds resolved rootTypeId) :
    WithinBounds resolved' rootTypeId where
  few := reordered.reachable_eq rootTypeId ▸ within.few
  shallow := reordered.follows ▸ within.shallow

end Reordered

end Reordered

/-- **The bounds are respected, in every order of the fields,** exactly when the types that the root
reaches are within them, or some declaration is not admitted, or the walk overruns in every order. -/
theorem derive_bounded_iff (resolved : ResolvedProgram) (rootTypeId : String) :
    ((∀ graph, derive resolved rootTypeId = .ok graph →
        graph.rootTypeId = rootTypeId ∧ graph.Bounded) ∧
      ∀ resolved', Reordered resolved resolved' →
        ((∃ graph, derive resolved' rootTypeId = .ok graph) ↔
          ∃ graph, derive resolved rootTypeId = .ok graph)) ↔
      WithinBounds resolved rootTypeId ∨ ¬ AllAdmitted resolved rootTypeId ∨
        ∀ resolved', Reordered resolved resolved' → Overruns resolved' rootTypeId := by
  have refl := Reordered.refl resolved
  constructor
  · rintro ⟨bounded, alike⟩
    by_contra neither
    obtain ⟨beyond, neither⟩ := not_or.mp neither
    obtain ⟨admitted, kept⟩ := not_or.mp neither
    rw [not_not] at admitted
    push Not at kept
    obtain ⟨resolved', reordered, kept⟩ := kept
    have other := derives_iff.mpr ⟨reordered.allAdmitted_iff.mp admitted, kept⟩
    obtain ⟨graph, derived⟩ := (alike resolved' reordered).mp other
    obtain ⟨rfl, shape⟩ := derived_of_ok derived
    exact beyond (shape.within (bounded graph derived).2)
  · rintro (within | refused)
    · refine ⟨fun graph derived => ?_, fun resolved' reordered => ?_⟩
      · obtain ⟨rfl, shape⟩ := derived_of_ok derived
        exact ⟨rfl, shape.bounded within⟩
      · rw [derives_iff, derives_iff, ← reordered.allAdmitted_iff]
        exact and_congr_right fun _ => iff_of_true (reordered.withinBounds within).keeps within.keeps
    · have none : ∀ resolved', Reordered resolved resolved' →
          ¬ ∃ graph, derive resolved' rootTypeId = .ok graph := by
        intro resolved' reordered derives
        rcases refused with refused | overruns
        · exact refused (reordered.allAdmitted_iff.mpr (derives_iff.mp derives).1)
        · exact (derives_iff.mp derives).2 (overruns resolved' reordered)
      exact ⟨fun graph derived => absurd ⟨graph, derived⟩ (none _ refl),
        fun resolved' reordered => iff_of_false (none _ reordered) (none _ refl)⟩

/-- The types of a chain. -/
def link (index : Nat) : String := String.ofList (List.replicate index 'a')

/-- A field `f` of a type. -/
def reference (id : String) : ResolvedFieldDeclaration := ⟨"f", .nominal id []⟩

/-- A chain of sixteen types; the root refers to it, and to a type that does. -/
def chainProgram (fields : List ResolvedFieldDeclaration) : ResolvedProgram where
  types := ⟨"root", [], .record fields⟩ :: ⟨"middle", [], .record [reference (link 1)]⟩ ::
    ⟨link 16, [], .record []⟩ :: (List.range 15).map fun index =>
      ⟨link (index + 1), [], .record [reference (link (index + 2))]⟩
  declarations := ("root", .explicit) :: ("middle", .explicit) :: ("f", .explicit) ::
    (List.range 16).map fun index => (link (index + 1), .explicit)

/-- The chain is listed before the type that refers to it. -/
def deepProgram : ResolvedProgram := chainProgram [reference (link 1), reference "middle"]

/-- A root that refers to sixty-four types. -/
def crowdedProgram : ResolvedProgram where
  types := ⟨"root", [], .record ((List.range 64).map fun index => reference (link (index + 1)))⟩ ::
    (List.range 64).map fun index => ⟨link (index + 1), [], .record []⟩
  declarations := ("root", .explicit) :: ("f", .explicit) ::
    (List.range 64).map fun index => (link (index + 1), .explicit)

theorem deepProgram_reaches : ReachesIn (· = "root") (Follows (references deepProgram)) 17 (link 16) := by
  have first : Follows (references deepProgram) "root" "middle" :=
    (by decide +kernel : "middle" ∈ references deepProgram "root")
  have second : Follows (references deepProgram) "middle" (link 1) :=
    (by decide +kernel : link 1 ∈ references deepProgram "middle")
  have rest : ∀ index < 15, link (index + 2) ∈ references deepProgram (link (index + 1)) := by
    decide +kernel
  have reached : ∀ index ≤ 15, ReachesIn (· = "root") (Follows (references deepProgram)) (index + 2)
      (link (index + 1)) := by
    intro index within
    induction index with
    | zero => exact .step (.step (.base rfl) first) second
    | succ index ih => exact .step (ih (by omega)) (rest index (by omega))
  exact reached 15 le_rfl

/-- A graph that is nested seventeen deep is derived, and with the fields of its root the other way
round it is refused; and so is a graph of sixty-five types derived. -/
theorem derive_unbounded :
    (∃ graph, derive deepProgram "root" = .ok graph ∧ ¬ graph.Bounded) ∧
      (∃ resolved', Reordered deepProgram resolved' ∧
        derive resolved' "root" = .error (invariant "type.max_depth")) ∧
      ∃ graph, derive crowdedProgram "root" = .ok graph ∧ graph.types.length = 65 := by
  refine ⟨?_, ⟨chainProgram [reference "middle", reference (link 1)], ?_, by decide +kernel⟩, ?_⟩
  · cases derived : derive deepProgram "root" with
    | error failure =>
      have some : (derive deepProgram "root").isOk = true := by decide +kernel
      rw [derived] at some
      cases some
    | ok graph =>
      refine ⟨graph, rfl, fun bounded => ?_⟩
      obtain ⟨same, shape⟩ := derived_of_ok derived
      have within := same ▸ shape.within bounded
      exact absurd (within.shallow 17 _ deepProgram_reaches) (by decide)
  · refine ⟨rfl, .cons ⟨rfl, rfl, .record (.swap _ _ _)⟩ ?_⟩
    exact List.forall₂_same.mpr fun declaration _ => ⟨rfl, rfl, .refl declaration.kind⟩
  · cases derived : derive crowdedProgram "root" with
    | error failure =>
      have some : (derive crowdedProgram "root").isOk = true := by decide +kernel
      rw [derived] at some
      cases some
    | ok graph =>
      refine ⟨graph, rfl, ?_⟩
      have many : (derive crowdedProgram "root").map (·.types.length) = .ok 65 := by decide +kernel
      rw [derived] at many
      exact Except.ok.inj many

end Semaprax.InteractionSchema
