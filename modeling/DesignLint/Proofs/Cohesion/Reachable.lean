import DesignLint.Proofs.Cohesion.Innermost
import DesignLint.Proofs.Cohesion.BlockFrames
import Mathlib.Data.List.Forall2
import Mathlib.Data.List.Induction

/-!
# What every history keeps

The operations on the open units may come in any order, balanced or not. Every open or
parked unit accumulates, a function keeps the frame of its top level below its other
frames, a class has frames of methods only, and the blocks of a unit are what the frames
closed in it became, without the constructors.
-/

namespace DesignLint.Cohesion

variable {κ : Type}

/-! ## Blocks of closed frames -/

/-- What becomes a block is no constructor, has the number it was closed under and carries
names. -/
theorem of_extract?_eq_some {frame : OpenBlock} {index : Nat} {block : Block}
    (extracted : frame.extract? index = some block) :
    frame.isConstructor = false ∧ block.index = index ∧ block.comparedNames ≠ [] := by
  obtain ⟨type, span, name, receiver, isConstructor, reads, writes, members⟩ := frame
  cases type with
  | none => simp [OpenBlock.extract?] at extracted
  | some type =>
      simp only [OpenBlock.extract?, Option.ite_none_left_eq_some, Option.some.injEq,
        Bool.or_eq_true, not_or, Bool.not_eq_true] at extracted
      obtain ⟨⟨notConstructor, notEmpty⟩, rfl⟩ := extracted
      refine ⟨notConstructor, rfl, fun noNames => Bool.false_ne_true (notEmpty.symm.trans ?_)⟩
      by_cases isMethod : type = .method
      · simpa [Block.comparedNames, OpenBlock.isEmpty, isMethod] using noNames
      · simp only [Block.comparedNames, isMethod, if_false, List.eq_nil_iff_forall_not_mem,
          NameSet.mem_union, not_or] at noNames
        simp only [OpenBlock.isEmpty, isMethod, Option.some.injEq, if_false, Bool.and_eq_true,
          List.isEmpty_iff, List.eq_nil_iff_forall_not_mem]
        exact ⟨fun name => (noNames name).1, fun name => (noNames name).2⟩

/-- Constructors that are closed leave no block. -/
theorem numberedBlocks_filter (frames : List OpenBlock) :
    numberedBlocks (frames.filter fun frame => !frame.isConstructor) = numberedBlocks frames := by
  induction frames using List.reverseRecOn with
  | nil => rfl
  | append_singleton frames frame inductionHypothesis =>
      rw [List.filter_append, numberedBlocks_append_singleton]
      cases constructor : frame.isConstructor with
      | true =>
          have dropped : frame.extract? (numberedBlocks frames).length = none := by
            cases type : frame.type <;> simp [OpenBlock.extract?, type, constructor]
          simp [constructor, dropped, inductionHypothesis]
      | false =>
          simp [constructor, numberedBlocks_append_singleton, inductionHypothesis]

/-- The block with a number comes from a frame closed under that number. -/
theorem exists_frame_of_getElem? {frames : List OpenBlock} {index : Nat} {block : Block}
    (found : (numberedBlocks frames)[index]? = some block) :
    ∃ frame ∈ frames, frame.extract? index = some block := by
  induction frames using List.reverseRecOn with
  | nil => simp [numberedBlocks] at found
  | append_singleton frames frame inductionHypothesis =>
      rw [numberedBlocks_append_singleton, List.getElem?_append] at found
      split at found
      · obtain ⟨earlier, member, extracted⟩ := inductionHypothesis found
        exact ⟨earlier, List.mem_append_left _ member, extracted⟩
      · rename_i last
        cases extracted : frame.extract? (numberedBlocks frames).length with
        | none => simp [extracted] at found
        | some member =>
            rw [extracted, Option.toList_some, List.getElem?_singleton] at found
            split at found
            · obtain rfl : member = block := by simpa using found
              have same : index = (numberedBlocks frames).length := by omega
              exact ⟨frame, by simp, same ▸ extracted⟩
            · cases found

/-! ## Units in the course of a history -/

namespace CodeUnit

/-- An open or parked unit, and the frames that have been closed in it so far. A function keeps
the frame of its top level below all others, and declares what is written there. A class has
frames of methods only. -/
structure Accumulates (closed : List OpenBlock) (unit : CodeUnit) : Prop where
  stage : unit.stage = .accumulating
  topLevel : unit.kind = .function → ∃ inner top, unit.frames = inner ++ [top] ∧
    top.type = none ∧ (∀ frame ∈ inner, frame.type ≠ none) ∧ unit.declared = top.writes
  methods : unit.kind = .class → ∀ frame ∈ unit.frames, frame.type = some .method
  blocks : unit.blocks = numberedBlocks closed

/-- The control block that can be closed in a unit. -/
def controlToClose? (unit : CodeUnit) : Option OpenBlock :=
  match unit.kind, unit.frames with
  | .function, frame :: _ :: _ => some frame
  | _, _ => none

/-- The method that can be closed in a unit. -/
def methodToClose? (unit : CodeUnit) : Option OpenBlock :=
  match unit.kind, unit.frames with
  | .class, frame :: _ => some frame
  | _, _ => none

theorem accumulates_openedUnit (kind : UnitKind) (name : String) (span : Span)
    (receiver : Option String) :
    (OpenUnits.openedUnit kind name span receiver).Accumulates [] where
  stage := rfl
  topLevel function := by
    obtain rfl : kind = .function := function
    exact ⟨[], _, rfl, rfl, by simp, rfl⟩
  methods isClass := by
    obtain rfl : kind = .class := isClass
    simp [OpenUnits.openedUnit]
  blocks := rfl

namespace Accumulates

variable {closed : List OpenBlock} {unit : CodeUnit}

/-- A new frame has a type, and in a class it is a method. -/
theorem withFrame (accumulates : unit.Accumulates closed) {kind : UnitKind} {frame : OpenBlock}
    (typed : frame.type ≠ none) (method : kind = .class → frame.type = some .method) :
    (unit.withFrame kind frame).Accumulates closed := by
  unfold CodeUnit.withFrame
  split
  · rename_i ofKind
    refine ⟨accumulates.stage, fun function => ?_, fun isClass => ?_, accumulates.blocks⟩
    · obtain ⟨inner, top, frames, untyped, others, declared⟩ := accumulates.topLevel function
      refine ⟨frame :: inner, top, by simp [frames], untyped, ?_, declared⟩
      intro other member
      rcases List.mem_cons.mp member with rfl | member
      · exact typed
      · exact others other member
    · intro other member
      rcases List.mem_cons.mp member with rfl | member
      · exact method (ofKind.symm.trans isClass)
      · exact accumulates.methods isClass other member
  · exact accumulates

/-- A frame that is closed leaves its block. -/
theorem addBlock (accumulates : unit.Accumulates closed) (frame : OpenBlock) :
    (unit.addBlock frame).1.Accumulates (closed ++ [frame]) := by
  have blocks := numberedBlocks_append_singleton closed frame
  rw [← accumulates.blocks] at blocks
  rw [CodeUnit.addBlock, if_pos accumulates.stage]
  cases extracted : frame.extract? unit.blocks.length with
  | none =>
      rw [extracted, Option.toList_none, List.append_nil] at blocks
      exact ⟨accumulates.stage, accumulates.topLevel, accumulates.methods, blocks.symm⟩
  | some block =>
      rw [extracted, Option.toList_some] at blocks
      exact ⟨accumulates.stage, accumulates.topLevel, accumulates.methods, blocks.symm⟩

theorem withoutControl (accumulates : unit.Accumulates closed) :
    unit.withoutControl.Accumulates (closed ++ unit.controlToClose?.toList) := by
  obtain ⟨kind, name, span, receiver, blocks, declared, frames, stage⟩ := unit
  cases kind with
  | «class» => simpa [CodeUnit.withoutControl, CodeUnit.controlToClose?] using accumulates
  | function =>
      rcases frames with _ | ⟨frame, _ | ⟨next, frames⟩⟩
      · simpa [CodeUnit.withoutControl, CodeUnit.controlToClose?] using accumulates
      · simpa [CodeUnit.withoutControl, CodeUnit.controlToClose?] using accumulates
      · have rest : Accumulates closed
            ⟨.function, name, span, receiver, blocks, declared, next :: frames, stage⟩ := by
          refine ⟨accumulates.stage, fun _ => ?_, nofun, accumulates.blocks⟩
          obtain ⟨inner, top, split, untyped, others, declaredEq⟩ := accumulates.topLevel rfl
          cases inner with
          | nil => simp at split
          | cons first inner =>
              rw [List.cons_append, List.cons.injEq] at split
              exact ⟨inner, top, split.2, untyped,
                fun other member => others other (List.mem_cons_of_mem _ member), declaredEq⟩
        exact rest.addBlock frame

theorem withoutMethod (accumulates : unit.Accumulates closed) :
    unit.withoutMethod.Accumulates (closed ++ unit.methodToClose?.toList) := by
  obtain ⟨kind, name, span, receiver, blocks, declared, frames, stage⟩ := unit
  cases kind with
  | function => simpa [CodeUnit.withoutMethod, CodeUnit.methodToClose?] using accumulates
  | «class» =>
      cases frames with
      | nil => simpa [CodeUnit.withoutMethod, CodeUnit.methodToClose?] using accumulates
      | cons frame frames =>
          have rest : Accumulates closed
              ⟨.class, name, span, receiver, blocks, declared, frames, stage⟩ :=
            ⟨accumulates.stage, nofun, fun _ other member =>
              accumulates.methods rfl other (List.mem_cons_of_mem _ member), accumulates.blocks⟩
          exact rest.addBlock frame

/-- A change of the innermost frame keeps its type, and what the top level writes. -/
theorem mapFrame (accumulates : unit.Accumulates closed) {change : OpenBlock → OpenBlock}
    (type : ∀ frame, (change frame).type = frame.type)
    (writes : unit.kind = .function → unit.frames.length = 1 →
      ∀ frame, (change frame).writes = frame.writes) :
    (unit.mapFrame change).Accumulates closed := by
  unfold CodeUnit.mapFrame
  split
  · exact accumulates
  · rename_i frame frames framesEq
    refine ⟨accumulates.stage, fun function => ?_, fun isClass => ?_, accumulates.blocks⟩
    · obtain ⟨inner, top, split, untyped, others, declared⟩ := accumulates.topLevel function
      rw [framesEq] at split
      cases inner with
      | nil =>
          rw [List.nil_append, List.cons.injEq] at split
          obtain ⟨rfl, rfl⟩ := split
          exact ⟨[], change frame, rfl, (type frame).trans untyped, by simp,
            declared.trans (writes function (by simp [framesEq]) frame).symm⟩
      | cons first inner =>
          rw [List.cons_append, List.cons.injEq] at split
          obtain ⟨rfl, rfl⟩ := split
          refine ⟨change frame :: inner, top, rfl, untyped, ?_, declared⟩
          intro other member
          rcases List.mem_cons.mp member with rfl | member
          · rw [type]
            exact others frame List.mem_cons_self
          · exact others other (List.mem_cons_of_mem _ member)
    · have methods := accumulates.methods isClass
      rw [framesEq] at methods
      intro other member
      rcases List.mem_cons.mp member with rfl | member
      · rw [type]
        exact methods frame List.mem_cons_self
      · exact methods other (List.mem_cons_of_mem _ member)

/-- A name that is written at the top level of a function is declared there. -/
theorem withName (accumulates : unit.Accumulates closed) (credit : Credit) (name : String) :
    (unit.withName credit name).Accumulates closed := by
  unfold CodeUnit.withName
  split
  · rename_i credited
    cases credit with
    | read => exact accumulates.mapFrame (fun _ => rfl) fun _ _ _ => rfl
    | write =>
        simp only [OpenUnits.useName]
        split
        · rename_i single
          obtain ⟨inner, top, frames, untyped, -, declared⟩ := accumulates.topLevel credited.1
          obtain rfl : inner = [] := by simpa [frames] using single
          rw [List.nil_append] at frames
          refine ⟨?_, fun _ => ?_, fun isClass => ?_, ?_⟩
          · simp [CodeUnit.mapFrame, frames, accumulates.stage]
          · exact ⟨[], { top with writes := top.writes.add name }, by
              simp [CodeUnit.mapFrame, frames], untyped, by simp, by
              simp [CodeUnit.mapFrame, frames, declared]⟩
          · simp [CodeUnit.mapFrame, frames, credited.1] at isClass
          · simp [CodeUnit.mapFrame, frames, accumulates.blocks]
        · rename_i several
          exact accumulates.mapFrame (fun _ => rfl) fun _ single => absurd single several
    | skip => exact accumulates
  · exact accumulates

end Accumulates

theorem forall₂_creditMember {closed : List (List OpenBlock)} {units : List CodeUnit}
    (accumulate : List.Forall₂ Accumulates closed units) (receiver member : String) :
    List.Forall₂ Accumulates closed (OpenUnits.creditMember receiver member units) := by
  induction accumulate with
  | nil => exact .nil
  | cons first rest inductionHypothesis =>
      unfold OpenUnits.creditMember
      split
      · exact .cons (first.mapFrame (fun _ => rfl) fun _ _ _ => rfl) rest
      · exact .cons first inductionHypothesis

end CodeUnit

/-! ## Frames closed in the course of a history -/

/-- The frames that have been closed in each open and in each parked unit, earliest first. They
are no part of the state. -/
structure ClosedFrames where
  units : List (List OpenBlock) := []
  aside : List (List OpenBlock) := []

namespace ClosedFrames

/-- One more frame for the innermost unit, if there is one. -/
def add (closed : ClosedFrames) (frame? : Option OpenBlock) : ClosedFrames :=
  match closed.units with
  | [] => closed
  | frames :: units => { closed with units := (frames ++ frame?.toList) :: units }

/-- The closed frames after an operation. They go where their unit goes. -/
def follow (closed : ClosedFrames) (state : OpenUnits κ) : Operation κ → ClosedFrames
  | .openUnit _ _ _ _ => { closed with units := [] :: closed.units }
  | .closeUnit => { closed with units := closed.units.tail }
  | .closeBlock => closed.add (state.innermost.bind (·.controlToClose?))
  | .closeMethod => closed.add (state.innermost.bind (·.methodToClose?))
  | .setAside =>
    match closed.units with
    | [] => closed
    | frames :: units => ⟨units, frames :: closed.aside⟩
  | .takeBack =>
    match closed.aside with
    | [] => closed
    | frames :: aside => ⟨frames :: closed.units, aside⟩
  | .reset => {}
  | .openBlock _ _ | .openMethod _ _ _ _ | .addHeader _ | .identifier _ _ | .member _ _ => closed

/-- The closed frames after a sequence of operations. -/
def followAll (closed : ClosedFrames) (state : OpenUnits κ) : List (Operation κ) → ClosedFrames
  | [] => closed
  | operation :: operations =>
    (closed.follow state operation).followAll (state.perform operation).1 operations

/-- Every open and parked unit has come about by closing these frames in it. -/
structure Explains (closed : ClosedFrames) (state : OpenUnits κ) : Prop where
  units : List.Forall₂ CodeUnit.Accumulates closed.units state.units
  aside : List.Forall₂ CodeUnit.Accumulates closed.aside state.aside

namespace Explains

variable {closed : ClosedFrames} {state : OpenUnits κ}

/-- A change of the innermost unit that closes at most one frame. -/
theorem add (explains : closed.Explains state) {change : CodeUnit → CodeUnit}
    {frameOf : CodeUnit → Option OpenBlock}
    (keeps : ∀ (frames : List OpenBlock) (unit : CodeUnit), unit.Accumulates frames →
      (change unit).Accumulates (frames ++ (frameOf unit).toList)) :
    (closed.add (state.innermost.bind frameOf)).Explains (state.mapInnermost change) := by
  obtain ⟨units, aside, headers⟩ := state
  obtain ⟨closedUnits, closedAside⟩ := closed
  obtain ⟨unitsExplained, asideExplained⟩ := explains
  cases unitsExplained with
  | nil => exact ⟨.nil, asideExplained⟩
  | cons first rest => exact ⟨.cons (keeps _ _ first) rest, asideExplained⟩

/-- A change of the innermost unit that closes no frame. -/
theorem mapInnermost (explains : closed.Explains state) {change : CodeUnit → CodeUnit}
    (keeps : ∀ (frames : List OpenBlock) (unit : CodeUnit), unit.Accumulates frames →
      (change unit).Accumulates frames) : closed.Explains (state.mapInnermost change) := by
  obtain ⟨units, aside, headers⟩ := state
  obtain ⟨closedUnits, closedAside⟩ := closed
  obtain ⟨unitsExplained, asideExplained⟩ := explains
  cases unitsExplained with
  | nil => exact ⟨.nil, asideExplained⟩
  | cons first rest => exact ⟨.cons (keeps _ _ first) rest, asideExplained⟩

/-- Every operation keeps the units explained. -/
theorem follow (explains : closed.Explains state) (operation : Operation κ) :
    (closed.follow state operation).Explains (state.perform operation).1 := by
  cases operation with
  | openUnit kind name span receiver =>
      exact ⟨.cons (CodeUnit.accumulates_openedUnit kind name span receiver) explains.units,
        explains.aside⟩
  | closeUnit =>
      obtain ⟨units, aside, headers⟩ := state
      obtain ⟨closedUnits, closedAside⟩ := closed
      obtain ⟨unitsExplained, asideExplained⟩ := explains
      cases unitsExplained with
      | nil => exact ⟨.nil, asideExplained⟩
      | cons first rest => exact ⟨rest, asideExplained⟩
  | openBlock type span =>
      rw [OpenUnits.perform, OpenUnits.openBlock_eq_mapInnermost]
      exact explains.mapInnermost fun _ _ accumulates =>
        accumulates.withFrame (Option.some_ne_none type) fun isClass => by cases isClass
  | closeBlock =>
      rw [OpenUnits.perform, OpenUnits.closeBlock_eq_mapInnermost]
      exact explains.add fun _ _ accumulates => accumulates.withoutControl
  | openMethod name span receiver isConstructor =>
      rw [OpenUnits.perform, OpenUnits.openMethod_eq_mapInnermost]
      exact explains.mapInnermost fun _ _ accumulates =>
        accumulates.withFrame (Option.some_ne_none _) fun _ => rfl
  | closeMethod =>
      rw [OpenUnits.perform, OpenUnits.closeMethod_eq_mapInnermost]
      exact explains.add fun _ _ accumulates => accumulates.withoutMethod
  | addHeader keys => exact ⟨explains.units, explains.aside⟩
  | setAside =>
      obtain ⟨units, aside, headers⟩ := state
      obtain ⟨closedUnits, closedAside⟩ := closed
      obtain ⟨unitsExplained, asideExplained⟩ := explains
      cases unitsExplained with
      | nil => exact ⟨.nil, asideExplained⟩
      | cons first rest => exact ⟨rest, .cons first asideExplained⟩
  | takeBack =>
      obtain ⟨units, aside, headers⟩ := state
      obtain ⟨closedUnits, closedAside⟩ := closed
      obtain ⟨unitsExplained, asideExplained⟩ := explains
      cases asideExplained with
      | nil => exact ⟨unitsExplained, .nil⟩
      | cons first rest => exact ⟨.cons first unitsExplained, rest⟩
  | reset => exact ⟨.nil, .nil⟩
  | identifier name binding =>
      rw [OpenUnits.perform, OpenUnits.creditName_eq_mapInnermost]
      exact explains.mapInnermost fun _ _ accumulates => accumulates.withName _ _
  | member receiver member =>
      exact ⟨CodeUnit.forall₂_creditMember explains.units receiver member, explains.aside⟩

/-- Every sequence of operations keeps the units explained. -/
theorem followAll (explains : closed.Explains state) (operations : List (Operation κ)) :
    (closed.followAll state operations).Explains (state.performAll operations) := by
  induction operations generalizing closed state with
  | nil => exact explains
  | cons operation operations inductionHypothesis =>
      exact inductionHypothesis (explains.follow operation)

end Explains

end ClosedFrames

/-! ## Closing what was not opened -/

namespace OpenUnits

variable {state : OpenUnits κ}

/-- No control block is open in the innermost unit: it is no function, or it has no frame but
that of its top level. -/
def HasNoControl (state : OpenUnits κ) : Prop :=
  ∀ unit, state.innermost = some unit → unit.kind = .function →
    ∀ frame ∈ unit.frames, frame.type = none

/-- No method is open in the innermost unit: it is no class, or it has no frame. -/
def HasNoMethod (state : OpenUnits κ) : Prop :=
  ∀ unit, state.innermost = some unit → unit.kind = .class → unit.frames = []

theorem closeBlock_of_hasNoControl {closed : ClosedFrames} (explains : closed.Explains state)
    (noControl : state.HasNoControl) : state.closeBlock = (state, none) := by
  obtain ⟨units, aside, headers⟩ := state
  obtain ⟨closedUnits, closedAside⟩ := closed
  obtain ⟨unitsExplained, -⟩ := explains
  cases unitsExplained with
  | nil => rfl
  | @cons frames unit _ _ first rest =>
      obtain ⟨kind, name, span, receiver, blocks, declared, opened, stage⟩ := unit
      cases kind with
      | «class» => rfl
      | function =>
          obtain ⟨inner, top, rfl, -, typed, -⟩ := first.topLevel rfl
          cases inner with
          | nil => rfl
          | cons frame inner =>
              have untyped : frame.type = none := noControl _ rfl rfl frame List.mem_cons_self
              exact absurd untyped (typed frame List.mem_cons_self)

theorem closeMethod_of_hasNoMethod (noMethod : state.HasNoMethod) :
    state.closeMethod = (state, none) := by
  obtain ⟨units, aside, headers⟩ := state
  cases units with
  | nil => rfl
  | cons unit units =>
      obtain ⟨kind, name, span, receiver, blocks, declared, opened, stage⟩ := unit
      cases kind with
      | function => rfl
      | «class» =>
          obtain rfl : opened = [] := noMethod _ rfl rfl
          rfl

end OpenUnits

/-! ## Any history -/

/-- The blocks of a unit are what the frames closed in it became, without the constructors. They are
numbered in order, and each has names to compare. -/
structure CodeUnit.HasBlocksOf (closed : List OpenBlock) (unit : CodeUnit) : Prop where
  blocks : unit.blocks = numberedBlocks (closed.filter fun frame => !frame.isConstructor)
  each : ∀ (index : Nat) (block : Block), unit.blocks[index]? = some block →
    block.index = index ∧ block.comparedNames ≠ [] ∧
      ∃ frame ∈ closed, frame.isConstructor = false ∧ frame.extract? index = some block

theorem CodeUnit.Accumulates.hasBlocksOf {closed : List OpenBlock} {unit : CodeUnit}
    (accumulates : unit.Accumulates closed) : unit.HasBlocksOf closed where
  blocks := accumulates.blocks.trans (numberedBlocks_filter closed).symm
  each index block found := by
    rw [accumulates.blocks] at found
    obtain ⟨frame, member, extracted⟩ := exists_frame_of_getElem? found
    obtain ⟨notConstructor, number, names⟩ := of_extract?_eq_some extracted
    exact ⟨number, names, frame, member, notConstructor, extracted⟩

/-- A unit that is closed keeps its blocks. -/
theorem ClosedFrames.Explains.exists_of_closeUnit {closed : ClosedFrames} {state : OpenUnits κ}
    {unit : CodeUnit} (explains : closed.Explains state) (given : state.closeUnit.2 = some unit) :
    ∃ frames, closed.units.head? = some frames ∧ unit.HasBlocksOf frames := by
  obtain ⟨units, aside, headers⟩ := state
  obtain ⟨closedUnits, closedAside⟩ := closed
  obtain ⟨unitsExplained, -⟩ := explains
  cases unitsExplained with
  | nil => simp [OpenUnits.closeUnit] at given
  | @cons frames opened _ _ first rest =>
      obtain rfl : { opened with frames := [], stage := .finalizing } = unit := by
        simpa [OpenUnits.closeUnit] using given
      exact ⟨frames, rfl, first.hasBlocksOf.blocks, first.hasBlocksOf.each⟩

/-- Any sequence of operations, balanced or not, succeeds step by step, and so does any further
operation. Closing what was not opened gives nothing back and changes nothing. Every open or
parked unit accumulates. Its blocks, and those of every unit that is closed, are what the frames
closed in it became, without the constructors. -/
theorem performAll_empty_explained (operations : List (Operation κ)) :
    let state := (OpenUnits.empty : OpenUnits κ).performAll operations
    let closed := ClosedFrames.followAll {} (OpenUnits.empty : OpenUnits κ) operations
    operations.foldlM (fun state operation => (state.attempt operation).map (·.1))
        (OpenUnits.empty : OpenUnits κ) = some state ∧
      (∀ operation, state.attempt operation = some (state.perform operation)) ∧
      (state.units = [] → state.closeUnit = (state, none)) ∧
      (state.aside = [] → state.takeBack = (state, none)) ∧
      (state.HasNoControl → state.closeBlock = (state, none)) ∧
      (state.HasNoMethod → state.closeMethod = (state, none)) ∧
      List.Forall₂ CodeUnit.Accumulates (closed.units ++ closed.aside)
        (state.units ++ state.aside) ∧
      List.Forall₂ CodeUnit.HasBlocksOf (closed.units ++ closed.aside)
        (state.units ++ state.aside) ∧
      ∀ unit, state.closeUnit.2 = some unit →
        ∃ frames, closed.units.head? = some frames ∧ unit.HasBlocksOf frames := by
  intro state closed
  have start : ClosedFrames.Explains {} (OpenUnits.empty : OpenUnits κ) := ⟨.nil, .nil⟩
  have explains : closed.Explains state := start.followAll operations
  have accumulate := List.rel_append explains.units explains.aside
  refine ⟨OpenUnits.foldlM_attempt_eq _ operations, state.attempt_eq, fun none => ?_,
    fun none => ?_, OpenUnits.closeBlock_of_hasNoControl explains,
    OpenUnits.closeMethod_of_hasNoMethod, accumulate,
    accumulate.imp fun _ _ => CodeUnit.Accumulates.hasBlocksOf,
    fun unit => explains.exists_of_closeUnit⟩
  · simp [OpenUnits.closeUnit, none]
  · simp [OpenUnits.takeBack, none]

end DesignLint.Cohesion
