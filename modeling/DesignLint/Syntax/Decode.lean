import DesignLint.Json.Reader
import DesignLint.Syntax.Basic

/-!
# Syntax trees as documents

A parser hands over a module as a document: every construct is an object with
its kind as the only key, and an array of its position and its parts under that
key. Parts that are absent are null. A document that does not have this form is
refused.
-/

namespace DesignLint.Syntax.Decode

/-! ## Plain parts -/

/-- A natural number. -/
def nat? : Json → Option Nat
  | .number (.int value) => if 0 ≤ value then some value.toNat else none
  | _ => none

/-- A whole number. -/
def int? : Json → Option Int
  | .number (.int value) => some value
  | _ => none

/-- A part that may be absent. -/
def optional? {α : Type} (read : Json → Option α) : Json → Option (Option α)
  | .null => some none
  | value => (read value).map some

/-- A list of parts. -/
def list? {α : Type} (read : Json → Option α) : Json → Option (List α)
  | .array items => items.mapM read
  | _ => none

/-- A position: line, column, and the last line if it is known. -/
def position? : Json → Option Position
  | .array [line, column, last] => do
    some ⟨← nat? line, ← nat? column, ← optional? nat? last⟩
  | _ => none

/-- The kind of a construct, its position, and its parts. -/
def construct? : Json → Option (String × Json × List Json)
  | .object [(kind, .array (position :: parts))] => some (kind, position, parts)
  | _ => none

/-- The kind of a construct without parts. -/
def kind? (document : Json) : Option String :=
  (construct? document).map (·.1)

/-- A context. -/
def context? (document : Json) : Option Context := do
  match ← kind? document with
  | "Load" => some .load
  | "Store" => some .store
  | "Del" => some .del
  | _ => none

/-- A short-circuit operator. -/
def boolOp? (document : Json) : Option BoolOp := do
  match ← kind? document with
  | "And" => some .and
  | "Or" => some .or
  | _ => none

/-- A binary operator. -/
def binOp? (document : Json) : Option BinOp := do
  match ← kind? document with
  | "Add" => some .add
  | "Sub" => some .sub
  | "Mult" => some .mult
  | "MatMult" => some .matMult
  | "Div" => some .div
  | "Mod" => some .mod
  | "Pow" => some .pow
  | "LShift" => some .lShift
  | "RShift" => some .rShift
  | "BitOr" => some .bitOr
  | "BitXor" => some .bitXor
  | "BitAnd" => some .bitAnd
  | "FloorDiv" => some .floorDiv
  | _ => none

/-- A unary operator. -/
def unaryOp? (document : Json) : Option UnaryOp := do
  match ← kind? document with
  | "Invert" => some .invert
  | "Not" => some .not
  | "UAdd" => some .uAdd
  | "USub" => some .uSub
  | _ => none

/-- A comparison operator. -/
def compareOp? (document : Json) : Option CompareOp := do
  match ← kind? document with
  | "Eq" => some .eq
  | "NotEq" => some .notEq
  | "Lt" => some .lt
  | "LtE" => some .ltE
  | "Gt" => some .gt
  | "GtE" => some .gtE
  | "Is" => some .is
  | "IsNot" => some .isNot
  | "In" => some .isIn
  | "NotIn" => some .notIn
  | _ => none

/-! ## Literals -/

/-- The double a decimal text writes. -/
def double? (text : String) : Option Binary64 :=
  if text = "inf" then some (.infinite false)
  else match Json.Reader.number none false text.toList with
    | .ok (.float value, []) => some value
    | .ok (.int value, []) => some (Binary64.nearest (Rat.ofInt value))
    | _ => none

/-- The bytes written by pairs of hexadecimal digits. -/
def bytes? : List Char → Option (List UInt8)
  | [] => some []
  | high :: low :: rest => do
    let high ← Json.Reader.hexDigit? high
    let low ← Json.Reader.hexDigit? low
    let rest ← bytes? rest
    some (UInt8.ofNat (high * 16 + low) :: rest)
  | _ => none

/-- A literal. -/
def constant? : Json → Option Constant
  | .object [("none", _)] => some .none
  | .object [("ellipsis", _)] => some .ellipsis
  | .object [("bool", .bool value)] => some (.bool value)
  | .object [("int", .string digits)] =>
    if digits.toList.all Char.isDigit then some (.int (Json.Reader.digitsValue digits.toList))
    else none
  | .object [("float", .string text)] => (double? text).map .float
  | .object [("complex", .string text)] => (double? text).map .complex
  | .object [("str", .string value)] => some (.str value)
  | .object [("bytes", .string digits)] => (bytes? digits.toList).map .bytes
  | _ => none

/-! ## Expressions -/

mutual

/-- An expression nested at most `fuel` deep. -/
def expr? : Nat → Json → Option Expr
  | 0, _ => none
  | fuel + 1, document => do
    let (kind, place, parts) ← construct? document
    let p ← position? place
    match kind, parts with
    | "BoolOp", [op, values] => some (.boolOp p (← boolOp? op) (← list? (expr? fuel) values))
    | "NamedExpr", [target, value] =>
      some (.namedExpr p (← expr? fuel target) (← expr? fuel value))
    | "BinOp", [left, op, right] =>
      some (.binOp p (← expr? fuel left) (← binOp? op) (← expr? fuel right))
    | "UnaryOp", [op, operand] => some (.unaryOp p (← unaryOp? op) (← expr? fuel operand))
    | "Lambda", [parameters, body] =>
      some (.lambda p (← parameters? fuel parameters) (← expr? fuel body))
    | "IfExp", [test, body, orElse] =>
      some (.ifExp p (← expr? fuel test) (← expr? fuel body) (← expr? fuel orElse))
    | "Dict", [keys, values] =>
      some (.dict p (← list? (optional? (expr? fuel)) keys) (← list? (expr? fuel) values))
    | "Set", [elements] => some (.set p (← list? (expr? fuel) elements))
    | "ListComp", [element, clauses] =>
      some (.listComp p (← expr? fuel element) (← list? (clause? fuel) clauses))
    | "SetComp", [element, clauses] =>
      some (.setComp p (← expr? fuel element) (← list? (clause? fuel) clauses))
    | "DictComp", [key, value, clauses] =>
      some (.dictComp p (← expr? fuel key) (← expr? fuel value) (← list? (clause? fuel) clauses))
    | "GeneratorExp", [element, clauses] =>
      some (.generatorExp p (← expr? fuel element) (← list? (clause? fuel) clauses))
    | "Await", [value] => some (.await p (← expr? fuel value))
    | "Yield", [value] => some (.yieldOne p (← optional? (expr? fuel) value))
    | "YieldFrom", [value] => some (.yieldFrom p (← expr? fuel value))
    | "Compare", [left, ops, comparators] =>
      some (.compare p (← expr? fuel left) (← list? compareOp? ops)
        (← list? (expr? fuel) comparators))
    | "Call", [callee, arguments, keywords] =>
      some (.call p (← expr? fuel callee) (← list? (expr? fuel) arguments)
        (← list? (keyword? fuel) keywords))
    | "FormattedValue", [value, conversion, format] =>
      some (.formattedValue p (← expr? fuel value) (← int? conversion)
        (← optional? (expr? fuel) format))
    | "JoinedStr", [values] => some (.joinedStr p (← list? (expr? fuel) values))
    | "Constant", [value, kind] =>
      some (.constant p (← constant? value) (← optional? Json.text? kind))
    | "Attribute", [value, name, context] =>
      some (.attr p (← expr? fuel value) (← Json.text? name) (← context? context))
    | "Subscript", [value, index, context] =>
      some (.subscript p (← expr? fuel value) (← expr? fuel index) (← context? context))
    | "Starred", [value, context] =>
      some (.starred p (← expr? fuel value) (← context? context))
    | "Name", [id, context] => some (.name p (← Json.text? id) (← context? context))
    | "List", [elements, context] =>
      some (.list p (← list? (expr? fuel) elements) (← context? context))
    | "Tuple", [elements, context] =>
      some (.tuple p (← list? (expr? fuel) elements) (← context? context))
    | "Slice", [lower, upper, step] =>
      some (.slice p (← optional? (expr? fuel) lower) (← optional? (expr? fuel) upper)
        (← optional? (expr? fuel) step))
    | _, _ => none

/-- A parameter. -/
def parameter? : Nat → Json → Option Parameter
  | 0, _ => none
  | fuel + 1, document => do
    let (kind, place, parts) ← construct? document
    match kind, parts with
    | "arg", [name, hint, _] =>
      some (.mk (← position? place) (← Json.text? name) (← optional? (expr? fuel) hint))
    | _, _ => none

/-- The parameters of a function. -/
def parameters? : Nat → Json → Option Parameters
  | 0, _ => none
  | fuel + 1, document => do
    let (kind, _, parts) ← construct? document
    match kind, parts with
    | "arguments", [positionalOnly, regular, variadic, keywordOnly, keywordDefaults,
        keywordVariadic, defaults] =>
      some (.mk (← list? (parameter? fuel) positionalOnly) (← list? (parameter? fuel) regular)
        (← optional? (parameter? fuel) variadic) (← list? (parameter? fuel) keywordOnly)
        (← list? (optional? (expr? fuel)) keywordDefaults)
        (← optional? (parameter? fuel) keywordVariadic) (← list? (expr? fuel) defaults))
    | _, _ => none

/-- A keyword argument. -/
def keyword? : Nat → Json → Option Keyword
  | 0, _ => none
  | fuel + 1, document => do
    let (kind, place, parts) ← construct? document
    match kind, parts with
    | "keyword", [name, value] =>
      some (.mk (← position? place) (← optional? Json.text? name) (← expr? fuel value))
    | _, _ => none

/-- A clause of a comprehension. -/
def clause? : Nat → Json → Option Comprehension
  | 0, _ => none
  | fuel + 1, document => do
    let (kind, _, parts) ← construct? document
    match kind, parts with
    | "comprehension", [target, iter, conditions, isAsync] =>
      some (.mk (← expr? fuel target) (← expr? fuel iter) (← list? (expr? fuel) conditions)
        ((← nat? isAsync) != 0))
    | _, _ => none

end

/-! ## Patterns -/

/-- The value of a constant pattern. -/
def singleton? : Json → Option (Option Bool)
  | .null => some none
  | .bool value => some (some value)
  | _ => none

/-- A pattern nested at most `fuel` deep. -/
def pattern? : Nat → Json → Option Pattern
  | 0, _ => none
  | fuel + 1, document => do
    let (kind, place, parts) ← construct? document
    let p ← position? place
    match kind, parts with
    | "MatchValue", [value] => some (.equals p (← expr? fuel value))
    | "MatchSingleton", [value] => some (.singleton p (← singleton? value))
    | "MatchSequence", [patterns] => some (.sequence p (← list? (pattern? fuel) patterns))
    | "MatchMapping", [keys, patterns, rest] =>
      some (.mapping p (← list? (expr? fuel) keys) (← list? (pattern? fuel) patterns)
        (← optional? Json.text? rest))
    | "MatchClass", [cls, patterns, attrs, attrPatterns] =>
      some (.ofClass p (← expr? fuel cls) (← list? (pattern? fuel) patterns)
        (← list? Json.text? attrs) (← list? (pattern? fuel) attrPatterns))
    | "MatchStar", [name] => some (.star p (← optional? Json.text? name))
    | "MatchAs", [pattern, name] =>
      some (.capture p (← optional? (pattern? fuel) pattern) (← optional? Json.text? name))
    | "MatchOr", [patterns] => some (.or p (← list? (pattern? fuel) patterns))
    | _, _ => none

/-! ## Statements -/

/-- An imported name. -/
def alias? (document : Json) : Option Alias := do
  let (kind, place, parts) ← construct? document
  match kind, parts with
  | "alias", [name, asName] =>
    some ⟨← position? place, ← Json.text? name, ← optional? Json.text? asName⟩
  | _, _ => none

/-- A manager of a `with` statement. -/
def withItem? (fuel : Nat) (document : Json) : Option WithItem := do
  let (kind, _, parts) ← construct? document
  match kind, parts with
  | "withitem", [manager, target] =>
    some ⟨← expr? fuel manager, ← optional? (expr? fuel) target⟩
  | _, _ => none

mutual

/-- A statement nested at most `fuel` deep. -/
def stmt? : Nat → Json → Option Stmt
  | 0, _ => none
  | fuel + 1, document => do
    let (kind, place, parts) ← construct? document
    let p ← position? place
    let functionDef (isAsync : Bool) (name parameters body decorators returns : Json) :
        Option Stmt := do
      some (.functionDef p isAsync (← Json.text? name) (← parameters? fuel parameters)
        (← list? (stmt? fuel) body) (← list? (expr? fuel) decorators)
        (← optional? (expr? fuel) returns))
    let forStmt (isAsync : Bool) (target iter body orElse : Json) : Option Stmt := do
      some (.forStmt p isAsync (← expr? fuel target) (← expr? fuel iter)
        (← list? (stmt? fuel) body) (← list? (stmt? fuel) orElse))
    let withStmt (isAsync : Bool) (items body : Json) : Option Stmt := do
      some (.withStmt p isAsync (← list? (withItem? fuel) items) (← list? (stmt? fuel) body))
    let tryStmt (isStar : Bool) (body handlers orElse final : Json) : Option Stmt := do
      some (.tryStmt p isStar (← list? (stmt? fuel) body) (← list? (handler? fuel) handlers)
        (← list? (stmt? fuel) orElse) (← list? (stmt? fuel) final))
    match kind, parts with
    | "FunctionDef", [name, parameters, body, decorators, returns, _] =>
      functionDef false name parameters body decorators returns
    | "AsyncFunctionDef", [name, parameters, body, decorators, returns, _] =>
      functionDef true name parameters body decorators returns
    | "ClassDef", [name, bases, keywords, body, decorators] =>
      some (.classDef p (← Json.text? name) (← list? (expr? fuel) bases)
        (← list? (keyword? fuel) keywords) (← list? (stmt? fuel) body)
        (← list? (expr? fuel) decorators))
    | "Return", [value] => some (.returnStmt p (← optional? (expr? fuel) value))
    | "Delete", [targets] => some (.deleteStmt p (← list? (expr? fuel) targets))
    | "Assign", [targets, value, _] =>
      some (.assign p (← list? (expr? fuel) targets) (← expr? fuel value))
    | "AugAssign", [target, op, value] =>
      some (.augAssign p (← expr? fuel target) (← binOp? op) (← expr? fuel value))
    | "AnnAssign", [target, hint, value, _] =>
      some (.annAssign p (← expr? fuel target) (← expr? fuel hint)
        (← optional? (expr? fuel) value))
    | "For", [target, iter, body, orElse, _] => forStmt false target iter body orElse
    | "AsyncFor", [target, iter, body, orElse, _] => forStmt true target iter body orElse
    | "While", [test, body, orElse] =>
      some (.whileStmt p (← expr? fuel test) (← list? (stmt? fuel) body)
        (← list? (stmt? fuel) orElse))
    | "If", [test, body, orElse] =>
      some (.ifStmt p (← expr? fuel test) (← list? (stmt? fuel) body)
        (← list? (stmt? fuel) orElse))
    | "With", [items, body, _] => withStmt false items body
    | "AsyncWith", [items, body, _] => withStmt true items body
    | "Match", [subject, cases] =>
      some (.matchStmt p (← expr? fuel subject) (← list? (matchCase? fuel) cases))
    | "Raise", [exception, cause] =>
      some (.raiseStmt p (← optional? (expr? fuel) exception) (← optional? (expr? fuel) cause))
    | "Try", [body, handlers, orElse, final] => tryStmt false body handlers orElse final
    | "TryStar", [body, handlers, orElse, final] => tryStmt true body handlers orElse final
    | "Assert", [test, message] =>
      some (.assertStmt p (← expr? fuel test) (← optional? (expr? fuel) message))
    | "Import", [names] => some (.importNames p (← list? alias? names))
    | "ImportFrom", [module, names, level] =>
      some (.importFrom p (← optional? Json.text? module) (← list? alias? names) (← nat? level))
    | "Global", [names] => some (.globalNames p (← list? Json.text? names))
    | "Nonlocal", [names] => some (.nonlocalNames p (← list? Json.text? names))
    | "Expr", [value] => some (.expr p (← expr? fuel value))
    | "Pass", [] => some (.passStmt p)
    | "Break", [] => some (.breakStmt p)
    | "Continue", [] => some (.continueStmt p)
    | _, _ => none

/-- A case of a match statement. -/
def matchCase? : Nat → Json → Option MatchCase
  | 0, _ => none
  | fuel + 1, document => do
    let (kind, _, parts) ← construct? document
    match kind, parts with
    | "match_case", [pattern, guard, body] =>
      some (.mk (← pattern? fuel pattern) (← optional? (expr? fuel) guard)
        (← list? (stmt? fuel) body))
    | _, _ => none

/-- An exception handler. -/
def handler? : Nat → Json → Option Handler
  | 0, _ => none
  | fuel + 1, document => do
    let (kind, place, parts) ← construct? document
    match kind, parts with
    | "ExceptHandler", [type, name, body] =>
      some (.mk (← position? place) (← optional? (expr? fuel) type) (← optional? Json.text? name)
        (← list? (stmt? fuel) body))
    | _, _ => none

end

end DesignLint.Syntax.Decode

namespace DesignLint

mutual

/-- The number of levels of a document. -/
def Json.height : Json → Nat
  | .array items => Json.heightItems items + 1
  | .object entries => Json.heightEntries entries + 1
  | _ => 1

/-- The number of levels of the highest item. -/
def Json.heightItems : List Json → Nat
  | [] => 0
  | item :: items => max (Json.height item) (Json.heightItems items)

/-- The number of levels of the highest value. -/
def Json.heightEntries : List (String × Json) → Nat
  | [] => 0
  | (_, value) :: entries => max (Json.height value) (Json.heightEntries entries)

end

/-- The module that a document describes. -/
def Syntax.Module.ofJson? (document : Json) : Option Syntax.Module :=
  match Syntax.Decode.construct? document with
  | some ("Module", _, [body, _]) =>
    (Syntax.Decode.list? (Syntax.Decode.stmt? document.height) body).map fun body => ⟨body⟩
  | _ => none

/-- What a parser made of a text, if a document describes that: a module, or an error under
its name. -/
def Syntax.ParseResult.ofJson? : Json → Option Syntax.ParseResult
  | .object [("!SyntaxError", .array [.number (.int line), .string message])] =>
    some (.error (.syntaxError (some line) message))
  | .object [("!SyntaxError", .array [.null, .string message])] =>
    some (.error (.syntaxError none message))
  | .object [("!ValueError", .string message)] => some (.error (.refused message))
  | document => (Syntax.Module.ofJson? document).map .ok

end DesignLint
