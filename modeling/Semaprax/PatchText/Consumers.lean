/-
**The declaration that an edit of a patch lies in** (`patch.rs`, `ast.rs`).

The declarations of a program and their members are put in one list, by their starts and the wider
one first. One sweep over the edits keeps a stack of the declarations it stands in: a declaration that
starts closes those that end before it ends, and an edit closes those that end before it ends.

* `assignSourceConsumers` — the list, the order and the sweep.
* `Swept` — the stack is nested, and a declaration that is not on it is over or still to come.
* `assignSourceConsumers_innermost` — an edit gets the narrowest declaration around it.
-/

import Mathlib

namespace Semaprax.PatchText

structure Span where
  start : Nat
  stop : Nat
  ordered : start ≤ stop
deriving DecidableEq

def Span.Within (inner outer : Span) : Prop :=
  outer.start ≤ inner.start ∧ inner.stop ≤ outer.stop

/-- Two spans are disjoint or nested. -/
def Span.Laminar (first second : Span) : Prop :=
  first.stop ≤ second.start ∨ second.stop ≤ first.start ∨ first.Within second ∨
    second.Within first

/-- What a declaration and each of its members carry. -/
structure Declared where
  stableId : String
  nameSpan : Span
  span : Span

structure Function extends Declared where
  typeParameters : List String

structure VariantCaseDeclaration extends Declared where
  fields : List Declared

inductive TypeDeclarationKind
  | resource
  | record (fields : List Declared)
  | classKind (fields : List Declared) (methods : List Function)
  | variant (cases : List VariantCaseDeclaration)

structure TypeDeclaration extends Declared where
  kind : TypeDeclarationKind

structure InterfaceDeclaration extends Declared where
  imports : List Declared

structure Program where
  types : List TypeDeclaration
  interfaces : List InterfaceDeclaration
  functions : List Function

inductive SourceConsumerKind
  | function
  | functionTemplate
  | resource
  | record
  | classKind
  | field
  | variant
  | variantCase
  | caseField
  | interface
  | importKind
deriving DecidableEq

structure SourceConsumerKey where
  kind : SourceConsumerKind
  id : String
deriving DecidableEq

inductive SourceConsumerRole
  | declaration
  | reference
deriving DecidableEq

/-- An edit replaces a name of the source, which has a letter at least. -/
structure PlannedEdit where
  start : Nat
  stop : Nat
  consumer : Option SourceConsumerKey
  role : Option SourceConsumerRole
  nonempty : start < stop

def PlannedEdit.span (edit : PlannedEdit) : Span := ⟨edit.start, edit.stop, edit.nonempty.le⟩

structure SourceContainer where
  span : Span
  nameSpan : Span
  key : SourceConsumerKey

def Declared.container (declared : Declared) (kind : SourceConsumerKind) : SourceContainer :=
  ⟨declared.span, declared.nameSpan, kind, declared.stableId⟩

def TypeDeclaration.containers (declaration : TypeDeclaration) : List SourceContainer :=
  match declaration.kind with
  | .resource => [declaration.container .resource]
  | .record fields => fields.map (·.container .field) ++ [declaration.container .record]
  | .classKind fields methods =>
      fields.map (·.container .field) ++ methods.map (·.container .function) ++
        [declaration.container .classKind]
  | .variant cases =>
      cases.flatMap (fun case =>
          case.fields.map (·.container .caseField) ++ [case.container .variantCase]) ++
        [declaration.container .variant]

def Program.containers (program : Program) : List SourceContainer :=
  program.types.flatMap TypeDeclaration.containers ++
    program.interfaces.flatMap (fun interface =>
      interface.imports.map (·.container .importKind) ++ [interface.container .interface]) ++
    program.functions.map fun function =>
      function.container (if function.typeParameters = [] then .function else .functionTemplate)

/-- The order of the list: the earlier start first, then the later end. -/
def SourceContainer.before (first second : SourceContainer) : Bool :=
  decide (first.span.start < second.span.start) ||
    decide (first.span.start = second.span.start) && decide (second.span.stop ≤ first.span.stop)

/-- The pops of the stack, whose top is the list's head. -/
def closeBefore (stop : Nat) (active : List SourceContainer) : List SourceContainer :=
  active.dropWhile fun container => container.span.stop < stop

/-- The pushes for an edit that starts here: the stack, and the declarations that are left. -/
def openUpTo (start : Nat) :
    List SourceContainer → List SourceContainer → List SourceContainer × List SourceContainer
  | active, [] => (active, [])
  | active, candidate :: rest =>
      if candidate.span.start ≤ start then
        openUpTo start (candidate :: closeBefore candidate.span.stop active) rest
      else (active, candidate :: rest)

def PlannedEdit.assign (edit : PlannedEdit) : List SourceContainer → PlannedEdit
  | [] => edit
  | container :: _ =>
      if container.span.start ≤ edit.start ∧ edit.stop ≤ container.span.stop then
        { edit with
          consumer := some container.key
          role := some (if container.nameSpan.start = edit.start ∧
            container.nameSpan.stop = edit.stop then .declaration else .reference) }
      else edit

def sweep : List SourceContainer → List SourceContainer → List PlannedEdit → List PlannedEdit
  | _, _, [] => []
  | active, waiting, edit :: edits =>
      let opened := openUpTo edit.start active waiting
      let active := closeBefore edit.stop opened.1
      edit.assign active :: sweep active opened.2 edits

def assignSourceConsumers (program : Program) (edits : List PlannedEdit) : List PlannedEdit :=
  sweep [] (program.containers.mergeSort SourceContainer.before) edits

/-- What an edit is assigned: the narrowest of the declarations around it, if there is one, and its
role there. -/
def Attributed (containers : List SourceContainer) (edit assigned : PlannedEdit) : Prop :=
  (∃ container ∈ containers, edit.span.Within container.span ∧
      (∀ other ∈ containers, edit.span.Within other.span → container.span.Within other.span) ∧
      assigned.consumer = some container.key ∧
      assigned.role = some (if container.nameSpan = edit.span then .declaration else .reference)) ∨
    (∀ container ∈ containers, ¬ edit.span.Within container.span) ∧
      assigned.consumer = none ∧ assigned.role = none

/-- The stack where the sweep has come to `position`. -/
structure Swept (all active waiting : List SourceContainer) (position : Nat) : Prop where
  chain : active.Pairwise fun inner outer => inner.span.Within outer.span
  opened : ∀ container ∈ active, container ∈ all ∧ container.span.start ≤ position ∧
    ∀ later ∈ waiting, container.before later
  covered : ∀ container ∈ all,
    container ∈ active ∨ container ∈ waiting ∨ container.span.stop ≤ position
  known : ∀ later ∈ waiting, later ∈ all
  order : waiting.Pairwise fun first second => first.before second

theorem before_iff (first second : SourceContainer) :
    first.before second ↔ first.span.start < second.span.start ∨
      first.span.start = second.span.start ∧ second.span.stop ≤ first.span.stop := by
  simp [SourceContainer.before]

/-- What stays on a nested stack ends no earlier, and what is popped ends earlier. -/
theorem closeBefore_spec (stop : Nat) (active : List SourceContainer)
    (chain : active.Pairwise fun inner outer => inner.span.Within outer.span) :
    (closeBefore stop active).Pairwise (fun inner outer => inner.span.Within outer.span) ∧
      (∀ container ∈ closeBefore stop active, container ∈ active ∧ stop ≤ container.span.stop) ∧
      ∀ container ∈ active,
        container ∈ closeBefore stop active ∨ container.span.stop < stop := by
  induction active with
  | nil => simp [closeBefore]
  | cons top rest ih =>
    obtain ⟨above, chainRest⟩ := List.pairwise_cons.mp chain
    by_cases ends : top.span.stop < stop
    · have popped : closeBefore stop (top :: rest) = closeBefore stop rest := by
        simp [closeBefore, ends]
      obtain ⟨kept, stays, pops⟩ := ih chainRest
      rw [popped]
      refine ⟨kept, fun container held => ⟨.tail _ (stays container held).1,
        (stays container held).2⟩, fun container held => ?_⟩
      rcases List.mem_cons.mp held with rfl | held
      · exact .inr ends
      · exact pops container held
    · have same : closeBefore stop (top :: rest) = top :: rest := by simp [closeBefore, ends]
      rw [same]
      refine ⟨chain, fun container held => ⟨held, ?_⟩, fun container held => .inl held⟩
      rcases List.mem_cons.mp held with rfl | held
      · omega
      · have := (above container held).2
        omega

section Steps

variable {all active waiting : List SourceContainer} {position start : Nat}

theorem Swept.advance (swept : Swept all active waiting position) (later : position ≤ start) :
    Swept all active waiting start where
  chain := swept.chain
  opened container held :=
    ⟨(swept.opened container held).1, (swept.opened container held).2.1.trans later,
      (swept.opened container held).2.2⟩
  covered container held := (swept.covered container held).imp_right (.imp_right (·.trans later))
  known := swept.known
  order := swept.order

/-- One declaration goes on the stack. Those it pops are not around it, as it comes after them, so
they end before it starts. -/
theorem Swept.push {candidate : SourceContainer}
    (laminar : ∀ first ∈ all, ∀ second ∈ all, first.span.Laminar second.span)
    (swept : Swept all active (candidate :: waiting) start)
    (starts : candidate.span.start ≤ start) :
    Swept all (candidate :: closeBefore candidate.span.stop active) waiting start := by
  obtain ⟨chain, stays, pops⟩ := closeBefore_spec candidate.span.stop active swept.chain
  have inAll := swept.known candidate (.head _)
  obtain ⟨first, order⟩ := List.pairwise_cons.mp swept.order
  have earlier : ∀ container ∈ active, container.before candidate :=
    fun container held => (swept.opened container held).2.2 candidate (.head _)
  simp only [before_iff] at earlier
  refine ⟨List.pairwise_cons.mpr ⟨fun container held => ?_, chain⟩, fun container held => ?_,
    fun container held => ?_, fun next held => swept.known next (.tail _ held), order⟩
  · have := earlier container (stays container held).1
    exact ⟨by omega, (stays container held).2⟩
  · rcases List.mem_cons.mp held with rfl | held
    · exact ⟨inAll, starts, first⟩
    · obtain ⟨known, opened, ahead⟩ := swept.opened container (stays container held).1
      exact ⟨known, opened, fun next waits => ahead next (.tail _ waits)⟩
  · rcases swept.covered container held with isActive | waits | passed
    · rcases pops container isActive with kept | popped
      · exact .inl (.tail _ kept)
      · have ahead := earlier container isActive
        have nested := laminar container held candidate inAll
        have ordered := candidate.span.ordered
        simp only [Span.Laminar, Span.Within] at nested
        exact .inr (.inr (by omega))
    · rcases List.mem_cons.mp waits with rfl | waits
      · exact .inl (.head _)
      · exact .inr (.inl waits)
    · exact .inr (.inr passed)

/-- Every declaration that starts here or earlier has been put on the stack. -/
theorem openUpTo_swept (laminar : ∀ first ∈ all, ∀ second ∈ all, first.span.Laminar second.span)
    (swept : Swept all active waiting start) :
    Swept all (openUpTo start active waiting).1 (openUpTo start active waiting).2 start ∧
      ∀ next ∈ (openUpTo start active waiting).2, start < next.span.start := by
  induction waiting generalizing active with
  | nil => exact ⟨swept, by simp [openUpTo]⟩
  | cons candidate rest ih =>
    unfold openUpTo
    by_cases starts : candidate.span.start ≤ start
    · rw [if_pos starts]
      exact ih (swept.push laminar starts)
    · rw [if_neg starts]
      refine ⟨swept, fun next held => ?_⟩
      rcases List.mem_cons.mp held with rfl | held
      · omega
      · have := (before_iff ..).mp ((List.pairwise_cons.mp swept.order).1 next held)
        omega

variable {edit : PlannedEdit}

/-- What the edit leaves on the stack are the declarations around it, and no other. -/
theorem Swept.around (swept : Swept all active waiting edit.start)
    (ahead : ∀ next ∈ waiting, edit.start < next.span.start) (container : SourceContainer) :
    container ∈ closeBefore edit.stop active ↔
      container ∈ all ∧ edit.span.Within container.span := by
  obtain ⟨-, stays, pops⟩ := closeBefore_spec edit.stop active swept.chain
  constructor
  · intro held
    obtain ⟨isActive, ends⟩ := stays container held
    obtain ⟨known, opened, -⟩ := swept.opened container isActive
    exact ⟨known, opened, ends⟩
  · rintro ⟨known, opened, ends⟩
    simp only [PlannedEdit.span] at opened ends
    have nonempty := edit.nonempty
    rcases swept.covered container known with isActive | waits | passed
    · rcases pops container isActive with kept | popped
      · exact kept
      · omega
    · have := ahead container waits
      omega
    · omega

theorem Swept.close (swept : Swept all active waiting edit.start) :
    Swept all (closeBefore edit.stop active) waiting edit.stop := by
  obtain ⟨chain, stays, pops⟩ := closeBefore_spec edit.stop active swept.chain
  have advanced := swept.advance edit.nonempty.le
  refine ⟨chain, fun container held => advanced.opened container (stays container held).1,
    fun container held => ?_, swept.known, swept.order⟩
  rcases advanced.covered container held with isActive | waits | passed
  · exact (pops container isActive).imp_right fun popped => .inr popped.le
  · exact .inr (.inl waits)
  · exact .inr (.inr passed)

/-- The top of the stack is the narrowest of the declarations around the edit. -/
theorem Swept.assign (swept : Swept all active waiting edit.start)
    (ahead : ∀ next ∈ waiting, edit.start < next.span.start)
    (fresh : edit.consumer = none ∧ edit.role = none) :
    Attributed all edit (edit.assign (closeBefore edit.stop active)) := by
  have around := swept.around ahead
  have chain := swept.close.chain
  rcases stack : closeBefore edit.stop active with - | ⟨top, rest⟩
  · refine .inr ⟨fun container known within => ?_, fresh⟩
    have held := (around container).mpr ⟨known, within⟩
    simp [stack] at held
  · rw [stack] at around chain
    obtain ⟨known, within⟩ := (around top).mp (.head _)
    refine .inl ⟨top, known, within, fun other isKnown isAround => ?_, ?_⟩
    · rcases List.mem_cons.mp ((around other).mpr ⟨isKnown, isAround⟩) with rfl | held
      · exact ⟨le_rfl, le_rfl⟩
      · exact (List.pairwise_cons.mp chain).1 other held
    · have names : top.nameSpan = edit.span ↔
          top.nameSpan.start = edit.start ∧ top.nameSpan.stop = edit.stop := by
        rcases top.nameSpan with ⟨first, last, ordered⟩
        simp [PlannedEdit.span]
      simp only [PlannedEdit.assign]
      rw [if_pos (show top.span.start ≤ edit.start ∧ edit.stop ≤ top.span.stop from within)]
      simp only [names, and_self]

end Steps

/-- The edits of a sweep come one after the other. -/
theorem sweep_attributes {all : List SourceContainer}
    (laminar : ∀ first ∈ all, ∀ second ∈ all, first.span.Laminar second.span)
    (edits : List PlannedEdit) (active waiting : List SourceContainer) (position : Nat)
    (sorted : edits.Pairwise fun first second => first.stop ≤ second.start)
    (fresh : ∀ edit ∈ edits, edit.consumer = none ∧ edit.role = none)
    (swept : Swept all active waiting position) (later : ∀ edit ∈ edits, position ≤ edit.start) :
    List.Forall₂ (Attributed all) edits (sweep active waiting edits) := by
  induction edits generalizing active waiting position with
  | nil => exact .nil
  | cons edit edits ih =>
    obtain ⟨apart, sorted⟩ := List.pairwise_cons.mp sorted
    obtain ⟨opened, ahead⟩ := openUpTo_swept laminar (swept.advance (later edit (.head _)))
    exact .cons (opened.assign ahead (fresh edit (.head _)))
      (ih _ _ edit.stop sorted (fun next held => fresh next (.tail _ held)) opened.close apart)

/-- Every edit gets the key of the narrowest declaration around it, and is its declaration exactly
where it covers its name; one that no declaration is around gets none. -/
theorem assignSourceConsumers_innermost (program : Program) (edits : List PlannedEdit)
    (laminar : ∀ first ∈ program.containers, ∀ second ∈ program.containers,
      first.span.Laminar second.span)
    (sorted : edits.Pairwise fun first second => first.stop ≤ second.start)
    (fresh : ∀ edit ∈ edits, edit.consumer = none ∧ edit.role = none) :
    List.Forall₂ (Attributed program.containers) edits (assignSourceConsumers program edits) := by
  have order := @List.pairwise_mergeSort _ SourceContainer.before
    (fun first second third one two => by
      rw [before_iff] at one two ⊢
      omega)
    (fun first second => by
      rw [Bool.or_eq_true, before_iff, before_iff]
      omega) program.containers
  have swept : Swept (program.containers.mergeSort SourceContainer.before) []
      (program.containers.mergeSort SourceContainer.before) 0 :=
    ⟨.nil, by simp, fun container held => .inr (.inl held), fun later held => held, order⟩
  have result := sweep_attributes (by simpa using laminar) edits _ _ 0 sorted fresh swept
    fun edit held => edit.start.zero_le
  exact result.imp fun edit assigned attributed => by simpa [Attributed] using attributed

theorem assignSourceConsumers_innermost_record :
    List.Forall₂ (Attributed (Program.containers ⟨[⟨⟨"Point", ⟨7, 12, by decide⟩,
        ⟨0, 24, by decide⟩⟩, .record [⟨"x", ⟨15, 16, by decide⟩, ⟨15, 21, by decide⟩⟩]⟩], [], []⟩))
      [⟨7, 12, none, none, by decide⟩, ⟨15, 16, none, none, by decide⟩]
      (assignSourceConsumers ⟨[⟨⟨"Point", ⟨7, 12, by decide⟩, ⟨0, 24, by decide⟩⟩,
        .record [⟨"x", ⟨15, 16, by decide⟩, ⟨15, 21, by decide⟩⟩]⟩], [], []⟩
        [⟨7, 12, none, none, by decide⟩, ⟨15, 16, none, none, by decide⟩]) :=
  assignSourceConsumers_innermost _ _
    (by simp [Program.containers, TypeDeclaration.containers, Declared.container, Span.Laminar,
      Span.Within])
    (by simp) (by simp)

end Semaprax.PatchText
