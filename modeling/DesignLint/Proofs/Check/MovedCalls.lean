import DesignLint.Proofs.Check.Related
import DesignLint.Proofs.Syntax.MovedNames
import DesignLint.Check.FanOut

/-!
# Fan-out in moved code

Moved code calls the same targets from the same places. A function is as long as
before, so it is reported in the same cases.
-/

namespace DesignLint.Check

open Syntax

variable (lines : Nat)

/-! ## Calls -/

theorem bindsLocally?_moved (tree : SyntaxTree) :
    bindsLocally? (tree.map (Occurrence.moved lines)) = bindsLocally? tree := by
  obtain ⟨⟨role, node⟩, children⟩ := tree
  cases node with
  | stmt stmt => cases stmt <;> rfl
  | expr expr =>
      cases expr with
      | name _ _ context => cases context <;> rfl
      | _ => rfl
  | handler handler =>
      obtain ⟨position, type, name, body⟩ := handler
      cases name <;> rfl
  | _ => rfl

theorem parameterNames_moved (parameters : Parameters) :
    parameterNames (parameters.moved lines) = parameterNames parameters := by
  simp only [parameterNames, Parameters.positional_moved, Parameters.keywordOnly_moved,
    Parameters.variadic_moved, Parameters.keywordVariadic_moved, List.map_append, map_name_moved,
    Option.toList_map]

theorem namesBoundIn_moved (function : SyntaxTree) :
    namesBoundIn (function.map (Occurrence.moved lines)) = namesBoundIn function := by
  have inside : (Tree.preorderWithinAll hasOwnScope
        (childrenIn .body (function.map (Occurrence.moved lines)))).filterMap bindsLocally? =
      (Tree.preorderWithinAll hasOwnScope
        (childrenIn .body function)).filterMap bindsLocally? := by
    rw [childrenIn_moved, ← Tree.mapAll_eq_map,
      Tree.preorderWithinAll_mapAll (Occurrence.moved lines) (hasOwnScope_moved lines),
      List.filterMap_map]
    congr 1
    funext tree
    exact bindsLocally?_moved lines tree
  rw [namesBoundIn, namesBoundIn, inside, parametersOf_moved]
  cases parametersOf function with
  | none => rfl
  | some parameters => simp only [Option.map_some, parameterNames_moved]

theorem callUnit?_moved (address : Address) (parent : Option SyntaxTree) (tree : SyntaxTree) :
    callUnit? address (parent.map (Tree.map (Occurrence.moved lines)))
      (tree.map (Occurrence.moved lines)) = callUnit? address parent tree := by
  have receiver := selfNameOf_moved lines tree parent
  have names := namesBoundIn_moved lines tree
  unfold callUnit?
  rw [receiver, names]
  obtain ⟨⟨role, node⟩, children⟩ := tree
  cases node with
  | stmt stmt => cases stmt <;> rfl
  | expr expr => cases expr <;> rfl
  | _ => rfl

/-- What stands around a construct, some lines further down. -/
def CallContext.moved (around : CallContext) : CallContext :=
  ⟨around.parent.map (Tree.map (Occurrence.moved lines)), around.units⟩

theorem calledName?_moved (options : FanOutOptions) (around : CallContext) (callee : Expr) :
    calledName? options (around.moved lines) (callee.moved lines) =
      calledName? options around callee := by
  cases callee with
  | attr _ value _ _ => cases value <;> rfl
  | _ => rfl

theorem outsideCall?_moved (options : FanOutOptions) (visit : Visit Occurrence CallContext) :
    outsideCall? options (visit.map (Occurrence.moved lines) (CallContext.moved lines)) =
      outsideCall? options visit := by
  obtain ⟨⟨⟨role, node⟩, children⟩, address, around⟩ := visit
  cases node with
  | expr expr =>
      cases expr with
      | call position callee arguments keywords =>
          have target := calledName?_moved lines options around callee
          simp only [outsideCall?, Visit.map, Tree.map, Tree.label, Occurrence.moved, Node.moved,
            Expr.moved]
          rw [target]
          rfl
      | _ => rfl
  | _ => rfl

theorem outsideCalls_moved (options : FanOutOptions) (tree : SyntaxTree) :
    outsideCalls options (tree.map (Occurrence.moved lines)) = outsideCalls options tree := by
  have visits : (tree.map (Occurrence.moved lines)).visits CallContext.below ⟨none, []⟩ [] =
      (tree.visits CallContext.below ⟨none, []⟩ []).map
        (Visit.map (Occurrence.moved lines) (CallContext.moved lines)) := by
    refine Tree.visits_map _ (CallContext.moved lines) (fun around address tree => ?_) tree
      ⟨none, []⟩ []
    rw [CallContext.below, CallContext.moved, callUnit?_moved]
    rfl
  rw [outsideCalls, visits, List.filterMap_map, outsideCalls]
  congr 1
  funext visit
  exact outsideCall?_moved lines options visit

/-! ## The check -/

theorem fanOutViolation?_moves (options : FanOutOptions) (targets : List String)
    {tree : SyntaxTree} (parsed : tree.label.node.isParsed = true) :
    Option.Rel (Violation.Moves lines) (fanOutViolation? options targets tree)
      (fanOutViolation? options targets (tree.map (Occurrence.moved lines))) := by
  rw [fanOutViolation?, fanOutViolation?, Tree.label_map, Occurrence.node_moved,
    Node.position?_moved, definedName_moved, isClass_moved]
  cases place : tree.label.node.position? with
  | none => exact .none
  | some position =>
      have hasLines : position.hasLines = true := by
        simp only [Node.isParsed, place, Bool.and_eq_true] at parsed
        exact parsed.1
      have sameLength : Int.ofNat (position.moved lines).lastLine -
            Int.ofNat (position.moved lines).line + 1 =
          Int.ofNat position.lastLine - Int.ofNat position.line + 1 := by
        rw [Position.lastLine_moved hasLines]
        simp only [Position.moved, Int.ofNat_eq_natCast]
        omega
      simp only [Option.map_some, Option.bind_eq_bind, Option.bind_some, sameLength]
      split
      · split
        · refine .some ?_
          constructor <;> simp [Position.moved, RuleId.namesLine]
        · exact .none
      · split
        · refine .some ?_
          constructor <;> simp [Position.moved, RuleId.namesLine]
        · exact .none

theorem highFanOut_moved (options : FanOutOptions) {tree : SyntaxTree}
    (parsed : ∀ part ∈ tree.preorder, part.label.node.isParsed = true) :
    List.Forall₂ (Violation.Moves lines) (highFanOut options tree)
      (highFanOut options (tree.map (Occurrence.moved lines))) := by
  have visits : (tree.map (Occurrence.moved lines)).lateVisits (fun _ _ _ => ()) () [] =
      (tree.lateVisits (fun _ _ _ => ()) () []).map (Visit.map (Occurrence.moved lines) id) :=
    Tree.lateVisits_map _ id (fun _ _ _ => rfl) tree () []
  rw [highFanOut, highFanOut, outsideCalls_moved, visits, List.filterMap_map]
  refine forall₂_filterMap fun visit listed => ?_
  have reached := parsed visit.tree (Tree.mem_preorder_of_mem_lateVisits listed)
  simp only [Function.comp_apply, Visit.map, parametersOf_moved, Option.isSome_map, isClass_moved]
  split
  · exact fanOutViolation?_moves lines options _ reached
  · exact .none

end DesignLint.Check
