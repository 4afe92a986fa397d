/-
**What a derivation visits** (`agent_interaction_schema/shape.rs`).

The shape of an admitted declaration says nothing about the walk, and the walk needs nothing but the
references of the shapes. `derive` succeeds exactly when the depth-first walk from the root, which
keeps no budget, meets only admitted declarations, and each within the budgets.

* `admittedShape` — the shape of a declaration; `references` — the types that it refers to.
* `deriveOne_eq_ok_iff` — one type; `walk_of_derive`, `derive_of_walk` — a whole walk.
* `derive_eq_ok_iff` — **the graph of a root type**: what the walk finishes, in that order.
-/

import Semaprax.Library.Results
import Semaprax.Library.Traversal
import Semaprax.InteractionSchema.Shape

namespace Semaprax.InteractionSchema

open Library

def FieldType.references : FieldType → List String
  | .scalar _ => []
  | .nested stableId => [stableId]

def rowReferences (rows : List FieldRow) : List String := rows.flatMap fun row => row.ty.references

def TypeShape.references : TypeShape → List String
  | .record fields => rowReferences fields
  | .variant cases => cases.flatMap fun case => rowReferences case.fields

def ResolvedType.fieldType (ty : ResolvedType) : Option FieldType :=
  match Representation.ofScalar ty with
  | some representation => some (.scalar representation)
  | none =>
    match ty with
    | .nominal declaration arguments => if arguments.isEmpty then some (.nested declaration) else none
    | _ => none

section Admitted

variable (resolved : ResolvedProgram)

def isPersistent (id : String) : Bool :=
  (resolved.declarations.lookup id).any IdentityOrigin.isPersistent

def rowOf (field : ResolvedFieldDeclaration) : Option FieldRow :=
  if isPersistent resolved field.id then field.ty.fieldType.map fun ty => ⟨field.id, ty⟩ else none

def caseOf (case : ResolvedVariantCaseDeclaration) : Option CaseRow :=
  if isPersistent resolved case.id then
    (case.fields.mapM (rowOf resolved)).map fun fields => ⟨case.id, fields⟩
  else none

def kindShape : ResolvedTypeDeclarationKind → Option TypeShape
  | .record fields => (fields.mapM (rowOf resolved)).map .record
  | .variant cases => if cases.isEmpty then none else (cases.mapM (caseOf resolved)).map .variant
  | .resource | .class_ => none

def admittedShape (id : String) : Option TypeShape :=
  (resolved.declaration id).bind fun declaration =>
    if declaration.typeParameters.isEmpty ∧ isPersistent resolved id then
      kindShape resolved declaration.kind
    else none

/-- The types that an admitted type refers to. -/
def references (id : String) : List String :=
  (admittedShape resolved id).elim [] TypeShape.references

end Admitted

section One

variable {resolved : ResolvedProgram} {descend : String → List TypeDecl →
  Except Diagnostic (List TypeDecl)} {types types' : List TypeDecl}

def descendAll (descend : String → List TypeDecl → Except Diagnostic (List TypeDecl))
    (ids : List String) (types : List TypeDecl) : Except Diagnostic (List TypeDecl) :=
  ids.foldlM (fun types id => descend id types) types

theorem descendAll_nil : descendAll descend [] types = .ok types' ↔ types = types' :=
  ⟨Except.ok.inj, congrArg Except.ok⟩

theorem descendAll_cons {id : String} {ids : List String} :
    descendAll descend (id :: ids) types = .ok types' ↔
      ∃ middle, descend id types = .ok middle ∧ descendAll descend ids middle = .ok types' := by
  unfold descendAll
  rw [List.foldlM_cons, bind_eq_ok]

theorem descendAll_append {ids more : List String} :
    descendAll descend (ids ++ more) types = .ok types' ↔
      ∃ middle, descendAll descend ids types = .ok middle ∧
        descendAll descend more middle = .ok types' := by
  unfold descendAll
  rw [List.foldlM_append, bind_eq_ok]

theorem persistent_bind {A : Type} {id field : String} {rest : Unit → Except Diagnostic A}
    {result : A} : (persistent resolved id field >>= rest) = .ok result ↔
      isPersistent resolved id = true ∧ rest () = .ok result := by
  unfold persistent isPersistent
  cases resolved.declarations.lookup id with
  | none => simp [bind, Except.bind]
  | some origin =>
    by_cases kept : origin.isPersistent = true
    · simp [kept, bind, Except.bind]
    · simp [kept, bind, Except.bind]

theorem classify_eq_ok {ty : ResolvedType} {row : FieldType} :
    classify descend ty types = .ok (row, types') ↔
      ty.fieldType = some row ∧ descendAll descend row.references types = .ok types' := by
  unfold classify ResolvedType.fieldType
  cases Representation.ofScalar ty with
  | some representation =>
    dsimp only
    constructor
    · intro same
      cases same
      exact ⟨rfl, rfl⟩
    · rintro ⟨same, rest⟩
      cases same
      cases rest
      rfl
  | none =>
    cases ty with
    | nominal declaration arguments =>
      by_cases plain : arguments.isEmpty = true
      · dsimp only
        rw [if_pos plain, if_pos plain, bind_eq_ok]
        constructor
        · rintro ⟨middle, derived, same⟩
          cases same
          exact ⟨rfl, descendAll_cons.mpr ⟨_, derived, rfl⟩⟩
        · rintro ⟨same, derived⟩
          cases same
          obtain ⟨middle, derived, same⟩ := descendAll_cons.mp derived
          exact ⟨middle, derived, by rw [descendAll_nil.mp same]; rfl⟩
      · simp [plain]
    | _ => simp

theorem fieldRows_eq_ok {fields : List ResolvedFieldDeclaration} {rows : List FieldRow} :
    fieldRows resolved descend fields types = .ok (rows, types') ↔
      fields.mapM (rowOf resolved) = some rows ∧
        descendAll descend (rowReferences rows) types = .ok types' := by
  induction fields generalizing types types' rows with
  | nil =>
    constructor
    · intro same
      cases same
      exact ⟨rfl, rfl⟩
    · rintro ⟨same, rest⟩
      cases same
      cases rest
      rfl
  | cons field fields ih =>
    rw [fieldRows, List.mapM_cons, rowOf, persistent_bind]
    simp only [bind_eq_ok, classify_eq_ok, ih, Prod.exists]
    by_cases kept : isPersistent resolved field.id = true
    · rw [if_pos kept]
      simp only [Option.bind_eq_bind, Option.bind_eq_some_iff, Option.map_eq_some_iff,
        Option.pure_def, Option.some.injEq]
      constructor
      · rintro ⟨_, ty, middle, ⟨typed, first⟩, rest, last, ⟨read, second⟩, same⟩
        cases same
        exact ⟨⟨_, ⟨ty, typed, rfl⟩, rest, read, rfl⟩, descendAll_append.mpr ⟨middle, first, second⟩⟩
      · rintro ⟨⟨row, ⟨ty, typed, rfl⟩, rest, read, rfl⟩, derived⟩
        obtain ⟨middle, first, second⟩ := descendAll_append.mp derived
        exact ⟨kept, ty, middle, ⟨typed, first⟩, rest, types', ⟨read, second⟩, rfl⟩
    · simp [kept]

theorem caseRows_eq_ok {cases : List ResolvedVariantCaseDeclaration} {rows : List CaseRow} :
    caseRows resolved descend cases types = .ok (rows, types') ↔
      cases.mapM (caseOf resolved) = some rows ∧
        descendAll descend (rows.flatMap fun row => rowReferences row.fields) types =
          .ok types' := by
  induction cases generalizing types types' rows with
  | nil =>
    constructor
    · intro same
      cases same
      exact ⟨rfl, rfl⟩
    · rintro ⟨same, rest⟩
      cases same
      cases rest
      rfl
  | cons case cases ih =>
    rw [caseRows, List.mapM_cons, caseOf, persistent_bind]
    simp only [bind_eq_ok, fieldRows_eq_ok, ih, Prod.exists]
    by_cases kept : isPersistent resolved case.id = true
    · rw [if_pos kept]
      simp only [Option.bind_eq_bind, Option.bind_eq_some_iff, Option.map_eq_some_iff,
        Option.pure_def, Option.some.injEq]
      constructor
      · rintro ⟨_, fields, middle, ⟨typed, first⟩, rest, last, ⟨read, second⟩, same⟩
        cases same
        exact ⟨⟨_, ⟨fields, typed, rfl⟩, rest, read, rfl⟩,
          descendAll_append.mpr ⟨middle, first, second⟩⟩
      · rintro ⟨⟨row, ⟨fields, typed, rfl⟩, rest, read, rfl⟩, derived⟩
        obtain ⟨middle, first, second⟩ := descendAll_append.mp derived
        exact ⟨kept, fields, middle, ⟨typed, first⟩, rest, types', ⟨read, second⟩, rfl⟩
    · simp [kept]

theorem shapeOf_eq_ok {kind : ResolvedTypeDeclarationKind} {shape : TypeShape} :
    shapeOf resolved descend kind types = .ok (shape, types') ↔
      kindShape resolved kind = some shape ∧
        descendAll descend shape.references types = .ok types' := by
  cases kind with
  | record fields =>
    simp only [shapeOf, kindShape, bind_eq_ok, fieldRows_eq_ok, Prod.exists, Option.map_eq_some_iff]
    constructor
    · rintro ⟨rows, last, ⟨read, derived⟩, same⟩
      cases same
      exact ⟨⟨rows, read, rfl⟩, derived⟩
    · rintro ⟨⟨rows, read, rfl⟩, derived⟩
      exact ⟨rows, types', ⟨read, derived⟩, rfl⟩
  | variant cases =>
    by_cases none : cases.isEmpty = true
    · simp [shapeOf, kindShape, none]
    · simp only [shapeOf, kindShape, none, bind_eq_ok, caseRows_eq_ok, Prod.exists,
        Option.map_eq_some_iff, Bool.false_eq_true, if_false]
      constructor
      · rintro ⟨rows, last, ⟨read, derived⟩, same⟩
        cases same
        exact ⟨⟨rows, read, rfl⟩, derived⟩
      · rintro ⟨⟨rows, read, rfl⟩, derived⟩
        exact ⟨rows, types', ⟨read, derived⟩, rfl⟩
  | resource | class_ => simp [shapeOf, kindShape]

end One

section Types

variable {resolved : ResolvedProgram} {left depth : Nat} {visiting : List String}
  {types types' : List TypeDecl} {id : String}

def names (types : List TypeDecl) : List String := types.map TypeDecl.stableId

theorem names_append (types types' : List TypeDecl) :
    names (types ++ types') = names types ++ names types' := List.map_append

theorem any_iff : (types.any fun decl => decl.stableId = id) = true ↔ id ∈ names types := by
  unfold names
  rw [List.any_eq_true, List.mem_map]
  simp only [decide_eq_true_eq]

theorem deriveOne_again (known : id ∈ names types) :
    deriveOne resolved left visiting id types = .ok types' ↔ types = types' := by
  cases left with
  | zero | succ left =>
    rw [deriveOne, if_pos (any_iff.mpr known)]
    exact ⟨Except.ok.inj, congrArg Except.ok⟩

/-- **Deriving a type.** It is not open, the budgets are kept, and its declaration is admitted; the
types that it refers to are derived before it. -/
theorem deriveOne_eq_ok_iff (fresh : id ∉ names types) :
    deriveOne resolved left visiting id types = .ok types' ↔
      id ∉ visiting ∧ types.length < maxTypes ∧ ∃ below shape middle, left = below + 1 ∧
        admittedShape resolved id = some shape ∧
        descendAll (deriveOne resolved below (visiting ++ [id])) shape.references types =
          .ok middle ∧
        types' = middle ++ [⟨id, shape⟩] := by
  have absent := mt any_iff.mp fresh
  by_cases opened : id ∈ visiting
  · cases left <;> simp [deriveOne, absent, opened]
  · cases left with
    | zero => simp [deriveOne, absent, opened]
    | succ below =>
      rw [deriveOne, if_neg absent, if_neg opened]
      by_cases full : types.length ≥ maxTypes
      · simp [full, Nat.not_lt.mpr full]
      · rw [if_neg full]
        have room : types.length < maxTypes := Nat.lt_of_not_ge full
        unfold admittedShape
        cases resolved.declaration id with
        | none => simp
        | some declaration =>
          by_cases plain : declaration.typeParameters.isEmpty = true
          · dsimp only
            rw [if_pos plain, persistent_bind]
            simp only [bind_eq_ok, shapeOf_eq_ok, Prod.exists, Option.bind_some]
            constructor
            · rintro ⟨kept, shape, middle, ⟨read, derived⟩, same⟩
              cases same
              exact ⟨opened, room, below, shape, middle, rfl, by rw [if_pos ⟨plain, kept⟩, read],
                derived, rfl⟩
            · rintro ⟨-, -, _, shape, middle, same, read, derived, rfl⟩
              cases same
              by_cases kept : isPersistent resolved id = true
              · rw [if_pos ⟨plain, kept⟩] at read
                exact ⟨kept, shape, middle, ⟨read, derived⟩, rfl⟩
              · rw [if_neg fun both => kept both.2] at read
                cases read
          · have generic : declaration.typeParameters ≠ [] := fun none => plain (by simp [none])
            simp [plain, generic]

end Types

section Walks

variable {resolved : ResolvedProgram}

/-- A type is met within the budgets, and its declaration is admitted. -/
structure Passes (resolved : ResolvedProgram) (meeting : Meeting String) : Prop where
  depth : meeting.depth ≤ maxDepth
  room : meeting.finished < maxTypes
  admitted : (admittedShape resolved meeting.node).isSome

/-- The types have the shapes of their declarations. -/
def Faithful (resolved : ResolvedProgram) (types : List TypeDecl) : Prop :=
  ∀ decl ∈ types, admittedShape resolved decl.stableId = some decl.shape

theorem Faithful.eq_of_names {types types' : List TypeDecl} (faithful : Faithful resolved types)
    (faithful' : Faithful resolved types') (named : names types = names types') : types = types' := by
  induction types generalizing types' with
  | nil => exact (List.map_eq_nil_iff.mp named.symm).symm
  | cons decl types ih =>
    cases types' with
    | nil => cases named
    | cons decl' types' =>
      obtain ⟨same, rest⟩ := List.cons.inj named
      have shape := faithful decl List.mem_cons_self
      rw [same, faithful' decl' List.mem_cons_self] at shape
      rw [ih (fun _ member => faithful _ (List.mem_cons_of_mem _ member))
        (fun _ member => faithful' _ (List.mem_cons_of_mem _ member)) rest]
      obtain ⟨stableId, kind⟩ := decl
      obtain ⟨stableId', kind'⟩ := decl'
      obtain rfl : stableId = stableId' := same
      obtain rfl : kind' = kind := Option.some.inj shape
      rfl

theorem references_eq {id : String} {shape : TypeShape}
    (admitted : admittedShape resolved id = some shape) :
    references resolved id = shape.references := by
  unfold references
  rw [admitted, Option.elim_some]

theorem walk_of_derive {left depth : Nat} (deep : depth + left = maxDepth + 1)
    {visiting ids : List String} {types types' : List TypeDecl}
    (derived : descendAll (deriveOne resolved left visiting) ids types = .ok types') :
    ∃ meetings, Walk (references resolved) depth (names types) ids (names types') meetings ∧
      (∀ meeting ∈ meetings, Passes resolved meeting) ∧
      (Faithful resolved types → Faithful resolved types') := by
  induction left generalizing depth visiting ids types types' with
  | zero =>
    induction ids generalizing types with
    | nil =>
      obtain rfl := descendAll_nil.mp derived
      exact ⟨[], .done _ _, List.forall_mem_nil _, id⟩
    | cons head ids ih' =>
      obtain ⟨middle, first, rest⟩ := descendAll_cons.mp derived
      by_cases known : head ∈ names types
      · obtain rfl := (deriveOne_again known).mp first
        obtain ⟨meetings, walk, passes, faithful⟩ := ih' rest
        exact ⟨meetings, .again known walk, passes, faithful⟩
      · obtain ⟨-, -, _, _, _, same, -⟩ := (deriveOne_eq_ok_iff known).mp first
        exact absurd same (by omega)
  | succ left ih =>
    induction ids generalizing types with
    | nil =>
      obtain rfl := descendAll_nil.mp derived
      exact ⟨[], .done _ _, List.forall_mem_nil _, id⟩
    | cons head ids ih' =>
      obtain ⟨middle, first, rest⟩ := descendAll_cons.mp derived
      by_cases known : head ∈ names types
      · obtain rfl := (deriveOne_again known).mp first
        obtain ⟨meetings, walk, passes, faithful⟩ := ih' rest
        exact ⟨meetings, .again known walk, passes, faithful⟩
      · obtain ⟨-, room, _, shape, below, same, admitted, inside, rfl⟩ :=
          (deriveOne_eq_ok_iff known).mp first
        cases same
        obtain ⟨inner, walk, passes, faithful⟩ :=
          @ih (depth + 1) (by omega) _ _ _ _ inside
        obtain ⟨outer, walk', passes', faithful'⟩ := ih' rest
        rw [← references_eq admitted] at walk
        rw [names_append] at walk'
        refine ⟨_, .first known walk walk', ?_, fun before => faithful' ?_⟩
        · intro meeting met
          rcases List.mem_cons.mp met with rfl | met
          · refine ⟨?_, ?_, Option.isSome_of_eq_some admitted⟩
            · show depth ≤ maxDepth
              omega
            · show (names types).length < maxTypes
              rwa [names, List.length_map]
          · exact (List.mem_append.mp met).elim (passes meeting) (passes' meeting)
        · intro decl member
          rcases List.mem_append.mp member with member | last
          · exact faithful before decl member
          · rw [List.mem_singleton.mp last]
            exact admitted

theorem derive_of_walk {left depth : Nat} (deep : depth + left = maxDepth + 1)
    {visiting ids after : List String} {types : List TypeDecl} {meetings : List (Meeting String)}
    (walk : Walk (references resolved) depth (names types) ids after meetings)
    (layered : Layered (references resolved) (names types))
    (passes : ∀ meeting ∈ meetings, Passes resolved meeting ∧ meeting.node ∉ visiting) :
    ∃ types', descendAll (deriveOne resolved left visiting) ids types = .ok types' ∧
      names types' = after := by
  generalize start : names types = finished at walk layered
  induction walk generalizing left visiting types with
  | done depth finished => exact ⟨types, descendAll_nil.mpr rfl, start⟩
  | again known _ ih =>
    obtain ⟨types', derived, named⟩ := ih deep passes start layered
    subst start
    exact ⟨types', descendAll_cons.mpr ⟨types, (deriveOne_again known).mpr rfl, derived⟩, named⟩
  | @first depth finished middle after v vs inner outer fresh below rest ih ih' =>
    subst start
    obtain ⟨⟨shallow, room, admitted⟩, closed⟩ := passes _ (List.mem_cons_self)
    obtain ⟨shape, admitted⟩ := Option.isSome_iff_exists.mp admitted
    dsimp only at shallow room closed
    obtain ⟨left, rfl⟩ : ∃ below, left = below + 1 := ⟨left - 1, by omega⟩
    obtain ⟨types', derived, rfl⟩ := @ih left (by omega) (visiting ++ [v]) types (by
      intro meeting met
      obtain ⟨pass, apart⟩ := passes meeting
        (List.mem_cons_of_mem _ (List.mem_append_left _ met))
      refine ⟨pass, fun member => ?_⟩
      rcases List.mem_append.mp member with inside | last
      · exact apart inside
      · refine Walk.not_mem_below fresh layered below (below.mem_iff.mpr (Or.inr ?_))
        rw [← List.mem_singleton.mp last]
        exact List.mem_map_of_mem met) rfl layered
    have one : deriveOne resolved (left + 1) visiting v types = .ok (types' ++ [⟨v, shape⟩]) := by
      refine (deriveOne_eq_ok_iff fresh).mpr ⟨closed, ?_, left, shape, types', rfl, admitted, ?_, rfl⟩
      · rwa [names, List.length_map] at room
      · rw [← references_eq admitted]
        exact derived
    obtain ⟨final, derived', named⟩ := @ih' (left + 1) (by omega) visiting
      (types' ++ [⟨v, shape⟩]) (fun meeting met => passes meeting
        (List.mem_cons_of_mem _ (List.mem_append_right _ met)))
      (by rw [names_append]; rfl) (.concat (below.layered layered) below.visited)
    exact ⟨final, descendAll_cons.mpr ⟨_, one, derived'⟩, named⟩

/-- **A graph is derived** exactly when there is a walk that passes everywhere; it holds what the walk
finishes, in that order. -/
theorem derive_eq_ok_iff {rootTypeId : String} {graph : TypeGraph} :
    derive resolved rootTypeId = .ok graph ↔ graph.rootTypeId = rootTypeId ∧
      Faithful resolved graph.types ∧ ∃ meetings,
        Walk (references resolved) 0 [] [rootTypeId] (names graph.types) meetings ∧
          ∀ meeting ∈ meetings, Passes resolved meeting := by
  have one : ∀ types, deriveOne resolved (maxDepth + 1) [] rootTypeId [] = .ok types ↔
      descendAll (deriveOne resolved (maxDepth + 1) []) [rootTypeId] [] = .ok types := by
    intro types
    rw [descendAll_cons]
    simp only [descendAll_nil, exists_eq_right]
  unfold derive
  simp only [bind_eq_ok, one]
  constructor
  · rintro ⟨types, derived, same⟩
    cases same
    obtain ⟨meetings, walk, passes, faithful⟩ := walk_of_derive (Nat.zero_add _) derived
    exact ⟨rfl, faithful (List.forall_mem_nil _), meetings, walk, passes⟩
  · rintro ⟨rfl, faithful, meetings, walk, passes⟩
    obtain ⟨types, derived, named⟩ := @derive_of_walk resolved _ 0 (Nat.zero_add _) [] _ _ [] _
      walk .nil fun meeting met => ⟨passes meeting met, List.not_mem_nil⟩
    obtain ⟨-, -, -, faithful'⟩ := walk_of_derive (Nat.zero_add _) derived
    have same := (faithful' (List.forall_mem_nil _)).eq_of_names faithful named
    exact ⟨types, derived, by rw [same]; rfl⟩

end Walks

end Semaprax.InteractionSchema
