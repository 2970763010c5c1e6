import DesignLint.Check.Violation
import DesignLint.Cohesion.NameSet
import DesignLint.Syntax.Names

/-!
# Fan-out

The distinct outside targets that a function or a class calls. A call counts for
the innermost function and for the innermost class around it. Built-in names,
calls on the receiver and names that the function binds itself are not outside.
-/

namespace DesignLint.Check

open DesignLint.Syntax

/-! ## Built-in names -/

/-- The names that need no definition. -/
def builtinNames : List String := [
  "ArithmeticError AssertionError AttributeError BaseException BaseExceptionGroup",
  "BlockingIOError BrokenPipeError BufferError BytesWarning ChildProcessError",
  "ConnectionAbortedError ConnectionError ConnectionRefusedError ConnectionResetError",
  "DeprecationWarning EOFError Ellipsis EncodingWarning EnvironmentError Exception",
  "ExceptionGroup False FileExistsError FileNotFoundError FloatingPointError FutureWarning",
  "GeneratorExit IOError ImportError ImportWarning IndentationError IndexError",
  "InterruptedError IsADirectoryError KeyError KeyboardInterrupt LookupError MemoryError",
  "ModuleNotFoundError NameError None NotADirectoryError NotImplemented",
  "NotImplementedError OSError OverflowError PendingDeprecationWarning PermissionError",
  "ProcessLookupError RecursionError ReferenceError ResourceWarning RuntimeError",
  "RuntimeWarning StopAsyncIteration StopIteration SyntaxError SyntaxWarning SystemError",
  "SystemExit TabError TimeoutError True TypeError UnboundLocalError UnicodeDecodeError",
  "UnicodeEncodeError UnicodeError UnicodeTranslateError UnicodeWarning UserWarning",
  "ValueError Warning ZeroDivisionError __build_class__ __debug__ __doc__ __import__",
  "__loader__ __name__ __package__ __spec__ abs aiter all anext any ascii bin bool",
  "breakpoint bytearray bytes callable chr classmethod compile complex copyright credits",
  "delattr dict dir divmod enumerate eval exec exit filter float format frozenset getattr",
  "globals hasattr hash help hex id input int isinstance issubclass iter len license list",
  "locals map max memoryview min next object oct open ord pow print property quit range",
  "repr reversed round set setattr slice sorted staticmethod str sum super tuple type vars",
  "zip"].flatMap fun line => line.splitOn " "

/-! ## Names that a function binds -/

/-- The name that a construct binds in the scope around it. -/
def bindsLocally? (tree : SyntaxTree) : Option String :=
  match tree.label.node with
  | .stmt (.functionDef _ _ name ..) => some name
  | .stmt (.classDef _ name ..) => some name
  | .expr (.name _ id .store) => some id
  | .importAlias item => some item.boundName
  | .handler (.mk _ _ (some name) _) => if name.isEmpty then none else some name
  | _ => none

/-- The names of all parameters. -/
def parameterNames (parameters : Parameters) : List String :=
  (parameters.positional ++ parameters.keywordOnly ++ parameters.variadic.toList
    ++ parameters.keywordVariadic.toList).map Parameter.name

/-- The parameters of a function and the names bound in its own scope. -/
def namesBoundIn (function : SyntaxTree) : List String :=
  (match parametersOf function with
    | some parameters => parameterNames parameters
    | none => [])
    ++ (Tree.preorderWithinAll hasOwnScope (childrenIn .body function)).filterMap bindsLocally?

/-! ## Calls -/

/-- A function or class around a call. -/
structure CallUnit where
  address : Address
  isFunction : Bool
  receiver : Option String
  locals : List String
deriving DecidableEq, Repr

/-- What stands around a construct: the parent, and the functions and classes,
the innermost first. -/
structure CallContext where
  parent : Option SyntaxTree
  units : List CallUnit

/-- The function or class that a tree is. -/
def callUnit? (address : Address) (parent : Option SyntaxTree) (tree : SyntaxTree) :
    Option CallUnit :=
  match tree.label.node with
  | .stmt (.functionDef ..) | .expr (.lambda ..) =>
    some ⟨address, true, selfNameOf tree parent, namesBoundIn tree⟩
  | .stmt (.classDef ..) => some ⟨address, false, none, []⟩
  | _ => none

namespace CallContext

/-- The surroundings of the children of a tree. -/
def below (around : CallContext) (address : Address) (tree : SyntaxTree) : CallContext :=
  ⟨some tree, (callUnit? address around.parent tree).toList ++ around.units⟩

/-- Whether a name is a receiver. -/
def isReceiver (around : CallContext) (name : String) : Bool :=
  !name.isEmpty && around.units.any fun unit => unit.receiver == some name

/-- The innermost function. -/
def function? (around : CallContext) : Option CallUnit := around.units.find? (·.isFunction)

/-- The innermost class. -/
def class? (around : CallContext) : Option CallUnit := around.units.find? (!·.isFunction)

end CallContext

/-- The limits on outside targets, and which calls do not count. -/
structure FanOutOptions where
  maxFunctionFanOut : Number
  maxClassFanOut : Number
  ignoreBuiltIns : Bool
  ignoreSelfReferences : Bool
  minFunctionLength : Number
deriving DecidableEq, Repr

/-- The target that a called expression names: a name, or a member of a named
object. -/
def calledName? (options : FanOutOptions) (around : CallContext) : Expr → Option String
  | .name _ id _ => some id
  | .attr _ (.name _ owner _) member _ =>
    if around.isReceiver owner && options.ignoreSelfReferences then none
    else some (owner ++ "." ++ member)
  | _ => none

/-- Whether a target is outside of the function around the call. -/
def isOutside (options : FanOutOptions) (around : CallContext) (target : String) : Bool :=
  let base := firstComponent target
  !(options.ignoreBuiltIns && builtinNames.contains base)
    && (around.isReceiver base
      || !(around.function?.any fun function => function.locals.contains base))

/-- A call of an outside target, with the units that it counts for. -/
structure OutsideCall where
  target : String
  units : List Address
deriving DecidableEq, Repr

/-- The outside call that a construct is. -/
def outsideCall? (options : FanOutOptions) (visit : Visit Occurrence CallContext) :
    Option OutsideCall :=
  match visit.tree.label.node with
  | .expr (.call _ callee _ _) =>
    match calledName? options visit.context callee with
    | some target =>
      if isOutside options visit.context target then
        some ⟨target,
          (visit.context.function?.toList ++ visit.context.class?.toList).map (·.address)⟩
      else none
    | none => none
  | _ => none

/-- The outside calls of a tree. -/
def outsideCalls (options : FanOutOptions) (tree : SyntaxTree) : List OutsideCall :=
  (tree.visits CallContext.below ⟨none, []⟩ []).filterMap (outsideCall? options)

/-- The distinct targets that count for a unit, in increasing order. -/
def targetsOf (calls : List OutsideCall) (unit : Address) : List String :=
  (NameSet.ofNames ((calls.filter fun call => call.units.contains unit).map (·.target))).sorted

/-! ## The check -/

/-- The violation by a function or class that calls too many targets. -/
def fanOutViolation? (options : FanOutOptions) (targets : List String) (tree : SyntaxTree) :
    Option Violation := do
  let position ← tree.label.node.position?
  let name := (definedName tree).getD anonymous
  let count := targets.length
  let violation (ruleId : RuleId) (message : String) : Violation := {
    ruleId := ruleId
    lineStart := position.line
    lineEnd := position.lastLine
    column := position.column
    symbol := name
    message := message
    snippet := name ++ "  # fan-out=" ++ toString count
    details := [("fan_out", .nat count), ("calls", .strings targets)] }
  if isClass tree then
    if options.maxClassFanOut.lt (.int count) then
      some (violation .cplFanOutClass ("Class \"" ++ name ++ "\" has " ++ toString count
        ++ " external dependencies (maximum allowed: " ++ options.maxClassFanOut.text
        ++ "). Consider extracting responsibilities or using dependency injection."))
    else none
  else
    let length := Int.ofNat position.lastLine - Int.ofNat position.line + 1
    if !(Number.int length).lt options.minFunctionLength
        && options.maxFunctionFanOut.lt (.int count) then
      some (violation .cplFanOutFunction ("Function \"" ++ name ++ "\" calls " ++ toString count
        ++ " external functions (maximum allowed: " ++ options.maxFunctionFanOut.text
        ++ "). Consider breaking down this function or using dependency injection."))
    else none

/-- The functions and classes of a tree that call too many targets. -/
def highFanOut (options : FanOutOptions) (tree : SyntaxTree) : List Violation :=
  let calls := outsideCalls options tree
  (tree.lateVisits (fun _ _ _ => ()) () []).filterMap fun visit =>
    if (parametersOf visit.tree).isSome || isClass visit.tree then
      fanOutViolation? options (targetsOf calls visit.address) visit.tree
    else none

end DesignLint.Check
