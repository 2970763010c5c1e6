import DesignLint.Syntax.Basic
import DesignLint.Number.Decimal
import DesignLint.Number.Numeral
import DesignLint.Text.Quoted
import DesignLint.Text.Search

/-!
# The text of an expression

An expression is written as source text with as few parentheses as the binding
strength of its operators allows. Every place in an expression requires a
strength, and an expression that binds more weakly than its place requires
stands in parentheses. The operands of a short-circuit chain require more and
more strength from left to right.

A replacement field of a formatted string cannot hold a backslash, so texts
inside it are written with other quote marks instead of escapes. Where that is
impossible the expression has no text. Neither has a whole number with too many
digits.
-/

namespace DesignLint.Syntax

/-! ## Binding strength -/

/-- Binding strengths, from the weakest to the strongest. -/
inductive Strength where
  | namedExpr | tuple | yield | test | or | and | not | compare | bitOr | bitXor | bitAnd
  | shift | arith | term | factor | power | await | atom
deriving DecidableEq, Repr

namespace Strength

/-- The rank of a strength. -/
def rank : Strength → Nat
  | namedExpr => 0
  | tuple => 1
  | yield => 2
  | test => 3
  | or => 4
  | and => 5
  | not => 6
  | compare => 7
  | bitOr => 8
  | bitXor => 9
  | bitAnd => 10
  | shift => 11
  | arith => 12
  | term => 13
  | factor => 14
  | power => 15
  | await => 16
  | atom => 17

/-- The next greater strength; nothing binds more strongly than an atom. -/
def next : Strength → Strength
  | namedExpr => tuple
  | tuple => yield
  | yield => test
  | test => or
  | or => and
  | and => not
  | not => compare
  | compare => bitOr
  | bitOr => bitXor
  | bitXor => bitAnd
  | bitAnd => shift
  | shift => arith
  | arith => term
  | term => factor
  | factor => power
  | power => await
  | await => atom
  | atom => atom

end Strength

/-- The strength and the sign of a binary operator. -/
def BinOp.sign : BinOp → Strength × String
  | .add => (.arith, "+")
  | .sub => (.arith, "-")
  | .mult => (.term, "*")
  | .matMult => (.term, "@")
  | .div => (.term, "/")
  | .mod => (.term, "%")
  | .pow => (.power, "**")
  | .lShift => (.shift, "<<")
  | .rShift => (.shift, ">>")
  | .bitOr => (.bitOr, "|")
  | .bitXor => (.bitXor, "^")
  | .bitAnd => (.bitAnd, "&")
  | .floorDiv => (.term, "//")

/-- The strength and the sign of a unary operator. -/
def UnaryOp.sign : UnaryOp → Strength × String
  | .invert => (.factor, "~")
  | .not => (.not, "not ")
  | .uAdd => (.factor, "+")
  | .uSub => (.factor, "-")

/-- The strength and the sign of a short-circuit operator. -/
def BoolOp.sign : BoolOp → Strength × String
  | .and => (.and, " and ")
  | .or => (.or, " or ")

/-- The sign of a comparison operator. -/
def CompareOp.sign : CompareOp → String
  | .eq => "=="
  | .notEq => "!="
  | .lt => "<"
  | .ltE => "<="
  | .gt => ">"
  | .gtE => ">="
  | .is => "is"
  | .isNot => "is not"
  | .isIn => "in"
  | .notIn => "not in"

/-! ## Texts inside formatted strings -/

namespace Literal

/-- The quote marks in order of preference. -/
def allMarks : List String := ["'", "\"", "\"\"\"", "'''"]

/-- A character between quote marks that do not force an escape. Line ends and
tabs stay unless `escapeBlanks` is set. -/
def escape (escapeBlanks : Bool) (c : Char) : List Char :=
  if !escapeBlanks && (c = '\n' || c = '\t') then [c]
  else if c = Quoted.backslash then [c, c]
  else if Unicode.isPrintable c then [c]
  else if c = '\n' then [Quoted.backslash, 'n']
  else if c = '\r' then [Quoted.backslash, 'r']
  else if c = '\t' then [Quoted.backslash, 't']
  else Quoted.escapeCode (Surrogate.shownPoint c)

/-- A quoted text without its marks, and the mark it needs. -/
def requoted (marks : List String) (text : List Char) : List Char × List String :=
  let mark := Quoted.mark text
  let fitting := marks.find? fun candidate => candidate.toList.contains mark
  (text.flatMap (Quoted.escape mark), [fitting.getD (String.ofList [mark])])

/-- The written form of a text with as few escapes as possible, and the marks
that may stand around it. A text with a line end needs threefold marks, and a
mark may not occur in the text. When every mark occurs, the text is quoted. -/
def written (marks : List String) (escapeBlanks : Bool) (text : List Char) :
    List Char × List String :=
  let escaped := text.flatMap (escape escapeBlanks)
  let threefold :=
    if escaped.contains '\n' then marks.filter (fun mark => mark.length == 3) else marks
  let possible := threefold.filter fun mark => !occurs mark.toList escaped
  match possible with
  | [] => requoted marks text
  | _ =>
    match escaped.getLast? with
    | none => (escaped, possible)
    | some last =>
      let starts (mark : String) : Bool := mark.toList.head? == some last
      let ordered := possible.filter (fun mark => !starts mark) ++ possible.filter starts
      if (ordered.head?.map starts).getD false then
        (escaped.dropLast ++ [Quoted.backslash, last], ordered)
      else (escaped, ordered)

/-- The text with its preferred marks around it. -/
def enclosed (text : List Char × List String) : String :=
  let mark := text.2.headD "'"
  mark ++ String.ofList text.1 ++ mark

/-- A text with as few escapes as possible. -/
def sparing (text : String) : String := enclosed (written allMarks false text.toList)

/-- The written forms of the parts of a formatted string, each either literal or
a replacement field. Every part narrows the marks for the parts behind it. -/
def writtenParts (marks : List String) :
    List (List Char × Bool) → List (List Char) × List String
  | [] => ([], marks)
  | (part, isLiteral) :: parts =>
    let (text, fitting) := written marks isLiteral part
    let (texts, last) := writtenParts fitting parts
    (text :: texts, last)

/-- The parts of a formatted string between the marks that are left behind the last
one. -/
def formatted (parts : List (List Char × Bool)) : String :=
  let (texts, marks) := writtenParts allMarks parts
  enclosed (texts.flatten, marks)

end Literal

/-! ## Constants -/

/-- The magnitude of a double as a literal; an infinite one overflows. -/
def doubleLiteral : Binary64 → String
  | .infinite negative => if negative then "-1e309" else "1e309"
  | .nan => "(1e309-1e309)"
  | value => value.text

/-- The imaginary part of a complex literal, which drops a `.0`. -/
def imaginaryText (value : Binary64) : String := Binary64.withoutPoint (doubleLiteral value)

/-- A literal. Inside a replacement field texts avoid escapes. -/
def Constant.text (inField : Bool) : Constant → String
  | .none => "None"
  | .ellipsis => "..."
  | .bool true => "True"
  | .bool false => "False"
  | .int value => toString value
  | .float value => doubleLiteral value
  | .complex imaginary => imaginaryText imaginary ++ "j"
  | .str value => if inField then Literal.sparing value else quoted value
  | .bytes value => quotedBytes value

/-! ## Assembling -/

/-- Why an expression has no text: a whole number has too many digits, a replacement field would
need a backslash or has a conversion that there is not, or a formatted string holds a part that is
neither text nor replacement. -/
inductive SourceTextError where
  | tooManyDigits
  | backslashInField
  | unknownConversion
  | conversionOutOfRange
  | valueAsPart
  | unexpectedPart (kind : String)
deriving DecidableEq, Repr

/-- The wording of a refusal. -/
def SourceTextError.message : SourceTextError → String
  | .tooManyDigits =>
    "Exceeds the limit (" ++ toString Numeral.digitLimit
      ++ " digits) for integer string conversion; use sys.set_int_max_str_digits() to increase"
      ++ " the limit"
  | .backslashInField => "Unable to avoid backslash in f-string expression part"
  | .unknownConversion => "Unknown f-string conversion."
  | .conversionOutOfRange => "chr() arg not in range(0x110000)"
  | .valueAsPart => "Constants inside JoinedStr should be a string."
  | .unexpectedPart kind => "'_Unparser' object has no attribute '_fstring_" ++ kind ++ "'"

/-- The text, or the reason why there is none. -/
abbrev Written := Except SourceTextError String

/-- Whether a constant has more digits than can be written in decimals. -/
def Constant.isTooLong : Constant → Bool
  | .int value => decide (Numeral.digitLimit < (toString value).length)
  | _ => false

/-- A literal, with a letter in front where the kind of a text asks for it. -/
def Constant.write (inField : Bool) (kind : Option String) (value : Constant) : Written :=
  if value.isTooLong then .error .tooManyDigits
  else .ok (if kind = some "u" then "u" ++ value.text inField else value.text inField)

/-- Parentheses around a text that binds more weakly than its place requires. -/
def parenthesized (required own : Strength) (text : String) : String :=
  if own.rank < required.rank then "(" ++ text ++ ")" else text

/-- Items separated by commas, with a comma behind a single one. -/
def commaList : List String → String
  | [item] => item ++ ","
  | items => ", ".intercalate items

/-- A parameter with its default. -/
def withDefault (parameter : String) : Option String → String
  | none => parameter
  | some default => parameter ++ "=" ++ default

/-- The parameters of a function: a slash behind the positional-only ones, and a
star before the keyword-only ones. -/
def parameterList (positionalOnly regular : List String) (variadic : Option String)
    (keywordOnly : List String) (keywordDefaults : List (Option String))
    (keywordVariadic : Option String) (defaults : List String) : String :=
  let positional := positionalOnly ++ regular
  let slots := List.replicate (positional.length - defaults.length) none ++ defaults.map some
  let written := (positional.zip slots).map fun (parameter, default) =>
    withDefault parameter default
  let before := written.take positionalOnly.length
  let slash := if positionalOnly.isEmpty then [] else ["/"]
  let star := match variadic with
    | some name => ["*" ++ name]
    | none => if keywordOnly.isEmpty then [] else ["*"]
  let named := (keywordOnly.zip keywordDefaults).map fun (parameter, default) =>
    withDefault parameter default
  let spread := match keywordVariadic with
    | some name => ["**" ++ name]
    | none => []
  let after := written.drop positionalOnly.length
  ", ".intercalate (before ++ slash ++ after ++ star ++ named ++ spread)

/-- The conversion of a replacement field: none, or a letter behind an exclamation mark. -/
def conversionMark (conversion : Int) : Written :=
  if conversion = -1 then .ok ""
  else if conversion < 0 ∨ 0x110000 ≤ conversion then .error .conversionOutOfRange
  else
    let letter := Char.ofNat conversion.toNat
    if ['s', 'r', 'a'].contains letter then .ok (String.ofList ['!', letter])
    else .error .unknownConversion

/-- A replacement field without its format and its last brace: a brace, the expression and
the conversion. An expression that starts with a brace is set off by a blank. -/
def fieldStart (expr : String) (conversion : Int) : Written :=
  if expr.toList.contains Quoted.backslash then .error .backslashInField
  else
    let gap := if expr.toList.head? == some '\x7b' then " " else ""
    (conversionMark conversion).map fun mark => "\x7b" ++ gap ++ expr ++ mark

/-- Literal text of a formatted string, with doubled braces. -/
def doubledBraces (text : String) : String :=
  String.ofList (text.toList.flatMap fun c => if c = '\x7b' ∨ c = '\x7d' then [c, c] else [c])

/-- Whether a part of a formatted string is literal text. -/
def isLiteralPart : Expr → Bool
  | .constant .. => true
  | _ => false

/-- Whether a literal needs a blank before a point. -/
def needsBlankBeforePoint : Expr → Bool
  | .constant _ (.int _) _ => true
  | .constant _ (.bool _) _ => true
  | _ => false

/-- One comparison of a chain with its operator. -/
def comparison (op : CompareOp) (operand : String) : String :=
  " " ++ op.sign ++ " " ++ operand

mutual

/-- The text of an expression where the given strength is required. -/
def Expr.write (inField : Bool) (required : Strength) : Expr → Written
  | .boolOp _ op operands => do
    let (own, sign) := op.sign
    let texts ← Expr.writeRising inField own operands
    return parenthesized required own (sign.intercalate texts)
  | .namedExpr _ target value => do
    let target ← target.write inField .atom
    let value ← value.write inField .atom
    return parenthesized required .namedExpr (target ++ " := " ++ value)
  | .binOp _ left op right => do
    let (own, sign) := op.sign
    let left ← left.write inField (if op = .pow then own.next else own)
    let right ← right.write inField (if op = .pow then own else own.next)
    return parenthesized required own (left ++ " " ++ sign ++ " " ++ right)
  | .unaryOp _ op operand => do
    let (own, sign) := op.sign
    let operand ← operand.write inField own
    return parenthesized required own (sign ++ operand)
  | .lambda _ parameters body => do
    let parameters ← parameters.write inField
    let body ← body.write inField .test
    let head := if parameters.isEmpty then "lambda: " else "lambda " ++ parameters ++ ": "
    return parenthesized required .test (head ++ body)
  | .ifExp _ test body orElse => do
    let body ← body.write inField Strength.test.next
    let test ← test.write inField Strength.test.next
    let orElse ← orElse.write inField .test
    return parenthesized required .test (body ++ " if " ++ test ++ " else " ++ orElse)
  | .dict _ keys values => do
    let keys ← Expr.writeSlots inField keys
    let entries ← Expr.writeEntries inField keys values
    return "\x7b" ++ ", ".intercalate entries ++ "\x7d"
  | .set _ elements => do
    let elements ← Expr.writeAll inField .test elements
    return if elements.isEmpty then "\x7b*()\x7d" else "\x7b" ++ ", ".intercalate elements ++ "\x7d"
  | .listComp _ element clauses => do
    let element ← element.write inField .test
    let clauses ← Comprehension.writeAll inField clauses
    return "[" ++ element ++ clauses ++ "]"
  | .setComp _ element clauses => do
    let element ← element.write inField .test
    let clauses ← Comprehension.writeAll inField clauses
    return "\x7b" ++ element ++ clauses ++ "\x7d"
  | .dictComp _ key value clauses => do
    let key ← key.write inField .test
    let value ← value.write inField .test
    let clauses ← Comprehension.writeAll inField clauses
    return "\x7b" ++ key ++ ": " ++ value ++ clauses ++ "\x7d"
  | .generatorExp _ element clauses => do
    let element ← element.write inField .test
    let clauses ← Comprehension.writeAll inField clauses
    return "(" ++ element ++ clauses ++ ")"
  | .await _ value => do
    let value ← value.write inField .atom
    return parenthesized required .await ("await " ++ value)
  | .yieldOne _ none => return parenthesized required .yield "yield"
  | .yieldOne _ (some value) => do
    let value ← value.write inField .atom
    return parenthesized required .yield ("yield " ++ value)
  | .yieldFrom _ value => do
    let value ← value.write inField .atom
    return parenthesized required .yield ("yield from " ++ value)
  | .compare _ left ops comparators => do
    let left ← left.write inField Strength.compare.next
    let comparators ← Expr.writeAll inField Strength.compare.next comparators
    let chain := (ops.zip comparators).map fun (op, operand) => comparison op operand
    return parenthesized required .compare (left ++ String.join chain)
  | .call _ callee arguments keywords => do
    let callee ← callee.write inField .atom
    let arguments ← Expr.writeAll inField .test arguments
    let keywords ← Keyword.writeAll inField keywords
    return callee ++ "(" ++ ", ".intercalate (arguments ++ keywords) ++ ")"
  | .formattedValue _ value conversion none => do
    let value ← value.write true Strength.test.next
    let start ← fieldStart value conversion
    return "f" ++ Literal.sparing (start ++ "\x7d")
  | .formattedValue _ value conversion (some format) => do
    let value ← value.write true Strength.test.next
    let start ← fieldStart value conversion
    let format ← Expr.writeInner format
    return "f" ++ Literal.sparing (start ++ ":" ++ format ++ "\x7d")
  | .joinedStr _ parts => do
    let texts ← Expr.writeInners parts
    return if inField then "f" ++ Literal.sparing (String.join texts)
      else "f" ++ Literal.formatted ((texts.map String.toList).zip (parts.map isLiteralPart))
  | .constant _ value kind => value.write inField kind
  | .attr _ value name _ => do
    let text ← value.write inField .atom
    return text ++ (if needsBlankBeforePoint value then " ." else ".") ++ name
  | .subscript _ value (.tuple _ (first :: rest) _) _ => do
    let value ← value.write inField .atom
    let first ← first.write inField .test
    let rest ← Expr.writeAll inField .test rest
    return value ++ "[" ++ commaList (first :: rest) ++ "]"
  | .subscript _ value index _ => do
    let value ← value.write inField .atom
    let index ← index.write inField .test
    return value ++ "[" ++ index ++ "]"
  | .starred _ value _ => do
    let value ← value.write inField .bitOr
    return "*" ++ value
  | .name _ id _ => return id
  | .list _ elements _ => do
    let elements ← Expr.writeAll inField .test elements
    return "[" ++ ", ".intercalate elements ++ "]"
  | .tuple _ elements _ => do
    let texts ← Expr.writeAll inField .test elements
    return if texts.isEmpty then "()" else parenthesized required .tuple (commaList texts)
  | .slice _ lower upper step => do
    let lower ← Expr.writeOption inField lower
    let upper ← Expr.writeOption inField upper
    let step ← Expr.writeOption inField step
    return lower.getD "" ++ ":" ++ upper.getD "" ++ (step.map (":" ++ ·)).getD ""

/-- The texts of expressions where one strength is required. -/
def Expr.writeAll (inField : Bool) (required : Strength) :
    List Expr → Except SourceTextError (List String)
  | [] => return []
  | expr :: exprs => do
    let text ← expr.write inField required
    let texts ← Expr.writeAll inField required exprs
    return text :: texts

/-- The texts of the operands of a short-circuit chain, each requiring more
strength than the one before. -/
def Expr.writeRising (inField : Bool) (previous : Strength) :
    List Expr → Except SourceTextError (List String)
  | [] => return []
  | expr :: exprs => do
    let text ← expr.write inField previous.next
    let texts ← Expr.writeRising inField previous.next exprs
    return text :: texts

/-- The text of an expression that may be absent. -/
def Expr.writeOption (inField : Bool) : Option Expr → Except SourceTextError (Option String)
  | none => return none
  | some expr => do
    let text ← expr.write inField .test
    return some text

/-- The texts of slots for expressions. -/
def Expr.writeSlots (inField : Bool) :
    List (Option Expr) → Except SourceTextError (List (Option String))
  | [] => return []
  | none :: slots => do
    let texts ← Expr.writeSlots inField slots
    return none :: texts
  | some expr :: slots => do
    let text ← expr.write inField .test
    let texts ← Expr.writeSlots inField slots
    return some text :: texts

/-- The entries of a dictionary display from the texts of their keys. -/
def Expr.writeEntries (inField : Bool) :
    List (Option String) → List Expr → Except SourceTextError (List String)
  | some key :: keys, value :: values => do
    let value ← value.write inField .test
    let entries ← Expr.writeEntries inField keys values
    return (key ++ ": " ++ value) :: entries
  | none :: keys, value :: values => do
    let value ← value.write inField .bitOr
    let entries ← Expr.writeEntries inField keys values
    return ("**" ++ value) :: entries
  | _, _ => return []

/-- A part of a formatted string or of a format. -/
def Expr.writeInner : Expr → Written
  | .joinedStr _ parts => do
    let texts ← Expr.writeInners parts
    return String.join texts
  | .constant _ (.str value) _ => return doubledBraces value
  | .constant .. => .error .valueAsPart
  | .formattedValue _ value conversion none => do
    let value ← value.write true Strength.test.next
    let start ← fieldStart value conversion
    return start ++ "\x7d"
  | .formattedValue _ value conversion (some format) => do
    let value ← value.write true Strength.test.next
    let start ← fieldStart value conversion
    let format ← Expr.writeInner format
    return start ++ ":" ++ format ++ "\x7d"
  | other => .error (.unexpectedPart other.kindName)

/-- The parts of a formatted string. -/
def Expr.writeInners : List Expr → Except SourceTextError (List String)
  | [] => return []
  | expr :: exprs => do
    let text ← Expr.writeInner expr
    let texts ← Expr.writeInners exprs
    return text :: texts

/-- A parameter with its type. -/
def Parameter.write (inField : Bool) : Parameter → Written
  | .mk _ name none => return name
  | .mk _ name (some hint) => do
    let hint ← hint.write inField .test
    return name ++ ": " ++ hint

/-- Parameters with their types. -/
def Parameter.writeAll (inField : Bool) : List Parameter → Except SourceTextError (List String)
  | [] => return []
  | parameter :: parameters => do
    let text ← parameter.write inField
    let texts ← Parameter.writeAll inField parameters
    return text :: texts

/-- A parameter that may be absent. -/
def Parameter.writeOption (inField : Bool) :
    Option Parameter → Except SourceTextError (Option String)
  | none => return none
  | some parameter => do
    let text ← parameter.write inField
    return some text

/-- The parameters of a function. -/
def Parameters.write (inField : Bool) : Parameters → Written
  | .mk positionalOnly regular variadic keywordOnly keywordDefaults keywordVariadic defaults => do
    let positionalOnly ← Parameter.writeAll inField positionalOnly
    let regular ← Parameter.writeAll inField regular
    let variadic ← Parameter.writeOption inField variadic
    let keywordOnly ← Parameter.writeAll inField keywordOnly
    let keywordDefaults ← Expr.writeSlots inField keywordDefaults
    let keywordVariadic ← Parameter.writeOption inField keywordVariadic
    let defaults ← Expr.writeAll inField .test defaults
    return parameterList positionalOnly regular variadic keywordOnly keywordDefaults
      keywordVariadic defaults

/-- Keyword arguments. -/
def Keyword.writeAll (inField : Bool) : List Keyword → Except SourceTextError (List String)
  | [] => return []
  | .mk _ name value :: keywords => do
    let value ← value.write inField .test
    let texts ← Keyword.writeAll inField keywords
    return ((match name with
      | some name => name ++ "="
      | none => "**") ++ value) :: texts

/-- The clauses of a comprehension, each with a blank before it. -/
def Comprehension.writeAll (inField : Bool) : List Comprehension → Written
  | [] => return ""
  | .mk target iter conditions isAsync :: clauses => do
    let target ← target.write inField .tuple
    let iter ← iter.write inField Strength.test.next
    let conditions ← Expr.writeAll inField Strength.test.next conditions
    let rest ← Comprehension.writeAll inField clauses
    return (if isAsync then " async for " else " for ") ++ target ++ " in " ++ iter
      ++ String.join (conditions.map (" if " ++ ·)) ++ rest

end

/-- The source text of an expression that stands by itself. -/
def Expr.sourceText (expr : Expr) : Written := expr.write false .test

end DesignLint.Syntax
