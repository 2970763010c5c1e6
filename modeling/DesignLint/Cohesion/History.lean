import DesignLint.Cohesion.Credit

/-!
# Histories of a traversal

The operations on the open units as data, so that any sequence of them, balanced
or not, is a history that can be run from the empty state.
-/

namespace DesignLint.Cohesion

/-- One operation on the open units. -/
inductive Operation (κ : Type) where
  | openUnit (kind : UnitKind) (name : String) (span : Span) (receiver : Option String)
  | closeUnit
  | openBlock (type : BlockType) (span : Span)
  | closeBlock
  | openMethod (name : String) (span : Span) (receiver : Option String) (isConstructor : Bool)
  | closeMethod
  | addHeader (keys : List κ)
  | setAside
  | takeBack
  | reset
  | identifier (name : String) (binding : Binding)
  | member (receiver member : String)
deriving DecidableEq, Repr

/-- What an operation gives back beside the new state. -/
inductive Effect where
  | none
  | unit (unit : Option CodeUnit)
  | block (block : Option Block)
  | credit (credit : Credit)
  | credited (found : Bool)
deriving DecidableEq, Repr

namespace OpenUnits

variable {κ : Type}

/-- Performs one operation. -/
def perform (state : OpenUnits κ) : Operation κ → OpenUnits κ × Effect
  | .openUnit kind name span receiver => (state.openUnit kind name span receiver, .none)
  | .closeUnit => (state.closeUnit.1, .unit state.closeUnit.2)
  | .openBlock type span => (state.openBlock type span, .none)
  | .closeBlock => (state.closeBlock.1, .block state.closeBlock.2)
  | .openMethod name span receiver isConstructor =>
    (state.openMethod name span receiver isConstructor, .none)
  | .closeMethod => (state.closeMethod.1, .block state.closeMethod.2)
  | .addHeader keys => (state.addHeader keys, .none)
  | .setAside => (state.setAside, .none)
  | .takeBack => (state.takeBack.1, .unit state.takeBack.2)
  | .reset => (.empty, .none)
  | .identifier name binding =>
    ((state.creditName name binding).1, .credit (state.creditName name binding).2)
  | .member receiver member =>
    ((state.creditAccess receiver member).1, .credited (state.creditAccess receiver member).2)

/-- The state after a sequence of operations. -/
def performAll (state : OpenUnits κ) (operations : List (Operation κ)) : OpenUnits κ :=
  operations.foldl (fun state operation => (state.perform operation).1) state

end OpenUnits

end DesignLint.Cohesion
