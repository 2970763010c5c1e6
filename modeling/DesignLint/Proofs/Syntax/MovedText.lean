import DesignLint.Proofs.Syntax.Moved
import DesignLint.Syntax.SourceText

/-!
# The text of moved code

The source text of an expression does not depend on where the expression stands.
-/

namespace DesignLint.Syntax

section Text

variable (lines : Nat)

@[simp]
theorem Expr.isLiteralPart_moved (expr : Expr) :
    isLiteralPart (expr.moved lines) = isLiteralPart expr := by
  cases expr <;> rfl

theorem Expr.map_isLiteralPart_moved (parts : List Expr) :
    (Expr.movedAll lines parts).map isLiteralPart = parts.map isLiteralPart := by
  simp

theorem Expr.needsBlankBeforePoint_moved (expr : Expr) :
    needsBlankBeforePoint (expr.moved lines) = needsBlankBeforePoint expr := by
  cases expr with
  | constant _ value _ => cases value <;> rfl
  | _ => rfl

/-- Moving an expression makes no index out of several from another one. -/
theorem Expr.moved_ne_tuple_cons {index : Expr}
    (single : ∀ p first rest context, index ≠ .tuple p (first :: rest) context)
    (p : Position) (first : Expr) (rest : List Expr) (context : Context) :
    index.moved lines ≠ .tuple p (first :: rest) context := by
  intro same
  cases index with
  | tuple position elements other =>
      cases elements with
      | nil => cases same
      | cons head tail => exact single position head tail other rfl
  | _ => cases same

/-- Several indexes are written without their parentheses, a single one like any expression. -/
theorem Expr.write_subscript_moved {inField : Bool} {required : Strength} {position : Position}
    {value index : Expr} {context : Context}
    (valueText : (value.moved lines).write inField .atom = value.write inField .atom)
    (indexText : (index.moved lines).write inField .test = index.write inField .test)
    (single : ∀ p first rest context, index ≠ .tuple p (first :: rest) context) :
    ((Expr.subscript position value index context).moved lines).write inField required =
      (Expr.subscript position value index context).write inField required := by
  rw [Expr.moved, Expr.write, Expr.write, valueText, indexText]
  · exact single
  · exact Expr.moved_ne_tuple_cons lines single

mutual

theorem Expr.write_moved (inField : Bool) (required : Strength) : ∀ expr : Expr,
    (expr.moved lines).write inField required = expr.write inField required
  | .boolOp _ op operands => by
    simp only [Expr.moved, Expr.write, Expr.writeRising_moved inField op.sign.1 operands]
  | .namedExpr _ target value => by
    simp only [Expr.moved, Expr.write, Expr.write_moved inField .atom target,
      Expr.write_moved inField .atom value]
  | .binOp _ left op right => by
    simp only [Expr.moved, Expr.write, Expr.write_moved inField _ left,
      Expr.write_moved inField _ right]
  | .unaryOp _ op operand => by
    simp only [Expr.moved, Expr.write, Expr.write_moved inField op.sign.1 operand]
  | .lambda _ parameters body => by
    simp only [Expr.moved, Expr.write, Parameters.write_moved inField parameters,
      Expr.write_moved inField .test body]
  | .ifExp _ test body orElse => by
    simp only [Expr.moved, Expr.write, Expr.write_moved inField _ test,
      Expr.write_moved inField _ body, Expr.write_moved inField .test orElse]
  | .dict _ keys values => by
    simp only [Expr.moved, Expr.write, Expr.writeSlots_moved inField keys,
      Expr.writeEntries_moved inField _ values]
  | .set _ elements => by
    simp only [Expr.moved, Expr.write, Expr.writeAll_moved inField .test elements]
  | .listComp _ element clauses => by
    simp only [Expr.moved, Expr.write, Expr.write_moved inField .test element,
      Comprehension.writeAll_moved inField clauses]
  | .setComp _ element clauses => by
    simp only [Expr.moved, Expr.write, Expr.write_moved inField .test element,
      Comprehension.writeAll_moved inField clauses]
  | .dictComp _ key value clauses => by
    simp only [Expr.moved, Expr.write, Expr.write_moved inField .test key,
      Expr.write_moved inField .test value, Comprehension.writeAll_moved inField clauses]
  | .generatorExp _ element clauses => by
    simp only [Expr.moved, Expr.write, Expr.write_moved inField .test element,
      Comprehension.writeAll_moved inField clauses]
  | .await _ value => by
    simp only [Expr.moved, Expr.write, Expr.write_moved inField .atom value]
  | .yieldOne _ none => rfl
  | .yieldOne _ (some value) => by
    simp only [Expr.moved, Expr.write, Expr.movedOption, Expr.write_moved inField .atom value]
  | .yieldFrom _ value => by
    simp only [Expr.moved, Expr.write, Expr.write_moved inField .atom value]
  | .compare _ left _ comparators => by
    simp only [Expr.moved, Expr.write, Expr.write_moved inField _ left,
      Expr.writeAll_moved inField _ comparators]
  | .call _ callee arguments keywords => by
    simp only [Expr.moved, Expr.write, Expr.write_moved inField .atom callee,
      Expr.writeAll_moved inField .test arguments, Keyword.writeAll_moved inField keywords]
  | .formattedValue _ value _ none => by
    simp only [Expr.moved, Expr.write, Expr.movedOption, Expr.write_moved true _ value]
  | .formattedValue _ value _ (some format) => by
    simp only [Expr.moved, Expr.write, Expr.movedOption, Expr.write_moved true _ value,
      Expr.writeInner_moved format]
  | .joinedStr _ parts => by
    simp only [Expr.moved, Expr.write, Expr.writeInners_moved parts, Expr.map_isLiteralPart_moved]
  | .constant _ _ _ => rfl
  | .attr _ value _ _ => by
    simp only [Expr.moved, Expr.write, Expr.write_moved inField .atom value,
      Expr.needsBlankBeforePoint_moved]
  | .subscript _ value index _ => by
    have valueText := Expr.write_moved inField .atom value
    have indexText := Expr.write_moved inField .test index
    cases index with
    | tuple _ elements _ =>
        cases elements with
        | nil => simp only [Expr.moved, Expr.movedAll, Expr.write, valueText]
        | cons first rest =>
            simp only [Expr.moved, Expr.movedAll, Expr.write, valueText,
              Expr.write_moved inField .test first, Expr.writeAll_moved inField .test rest]
    | _ =>
        exact Expr.write_subscript_moved lines valueText indexText (by nofun)
  | .starred _ value _ => by
    simp only [Expr.moved, Expr.write, Expr.write_moved inField .bitOr value]
  | .name _ _ _ => rfl
  | .list _ elements _ => by
    simp only [Expr.moved, Expr.write, Expr.writeAll_moved inField .test elements]
  | .tuple _ elements _ => by
    simp only [Expr.moved, Expr.write, Expr.writeAll_moved inField .test elements]
  | .slice _ lower upper step => by
    simp only [Expr.moved, Expr.write, Expr.writeOption_moved inField lower,
      Expr.writeOption_moved inField upper, Expr.writeOption_moved inField step]

theorem Expr.writeAll_moved (inField : Bool) (required : Strength) : ∀ exprs : List Expr,
    Expr.writeAll inField required (Expr.movedAll lines exprs) =
      Expr.writeAll inField required exprs
  | [] => rfl
  | expr :: exprs => by
    simp only [Expr.movedAll, Expr.writeAll, Expr.write_moved inField required expr,
      Expr.writeAll_moved inField required exprs]

theorem Expr.writeRising_moved (inField : Bool) (previous : Strength) : ∀ exprs : List Expr,
    Expr.writeRising inField previous (Expr.movedAll lines exprs) =
      Expr.writeRising inField previous exprs
  | [] => rfl
  | expr :: exprs => by
    simp only [Expr.movedAll, Expr.writeRising, Expr.write_moved inField previous.next expr,
      Expr.writeRising_moved inField previous.next exprs]

theorem Expr.writeOption_moved (inField : Bool) : ∀ expr : Option Expr,
    Expr.writeOption inField (Expr.movedOption lines expr) = Expr.writeOption inField expr
  | none => rfl
  | some expr => by
    simp only [Expr.movedOption, Expr.writeOption, Expr.write_moved inField .test expr]

theorem Expr.writeSlots_moved (inField : Bool) : ∀ slots : List (Option Expr),
    Expr.writeSlots inField (Expr.movedSlots lines slots) = Expr.writeSlots inField slots
  | [] => rfl
  | none :: slots => by
    simp only [Expr.movedSlots, Expr.writeSlots, Expr.writeSlots_moved inField slots]
  | some expr :: slots => by
    simp only [Expr.movedSlots, Expr.writeSlots, Expr.write_moved inField .test expr,
      Expr.writeSlots_moved inField slots]

theorem Expr.writeEntries_moved (inField : Bool) (keys : List (Option String)) :
    ∀ values : List Expr, Expr.writeEntries inField keys (Expr.movedAll lines values) =
      Expr.writeEntries inField keys values
  | [] => by
    rcases keys with _ | ⟨_ | _, _⟩ <;> rfl
  | value :: values => by
    rcases keys with _ | ⟨_ | key, keys⟩
    · rfl
    · simp only [Expr.movedAll, Expr.writeEntries, Expr.write_moved inField .bitOr value,
        Expr.writeEntries_moved inField keys values]
    · simp only [Expr.movedAll, Expr.writeEntries, Expr.write_moved inField .test value,
        Expr.writeEntries_moved inField keys values]

theorem Expr.writeInner_moved : ∀ expr : Expr, (expr.moved lines).writeInner = expr.writeInner
  | .joinedStr _ parts => by
    simp only [Expr.moved, Expr.writeInner, Expr.writeInners_moved parts]
  | .constant _ value _ => by
    cases value <;> rfl
  | .formattedValue _ value _ none => by
    simp only [Expr.moved, Expr.movedOption, Expr.writeInner, Expr.write_moved true _ value]
  | .formattedValue _ value _ (some format) => by
    simp only [Expr.moved, Expr.movedOption, Expr.writeInner, Expr.write_moved true _ value,
      Expr.writeInner_moved format]
  | .boolOp .. | .namedExpr .. | .binOp .. | .unaryOp .. | .lambda .. | .ifExp .. | .dict ..
  | .set .. | .listComp .. | .setComp .. | .dictComp .. | .generatorExp .. | .await ..
  | .yieldOne .. | .yieldFrom .. | .compare .. | .call .. | .attr .. | .subscript ..
  | .starred .. | .name .. | .list .. | .tuple .. | .slice .. => rfl

theorem Expr.writeInners_moved : ∀ exprs : List Expr,
    Expr.writeInners (Expr.movedAll lines exprs) = Expr.writeInners exprs
  | [] => rfl
  | expr :: exprs => by
    simp only [Expr.movedAll, Expr.writeInners, Expr.writeInner_moved expr,
      Expr.writeInners_moved exprs]

theorem Parameter.write_moved (inField : Bool) : ∀ parameter : Parameter,
    (parameter.moved lines).write inField = parameter.write inField
  | .mk _ _ none => rfl
  | .mk _ _ (some hint) => by
    simp only [Parameter.moved, Expr.movedOption, Parameter.write,
      Expr.write_moved inField .test hint]

theorem Parameter.writeAll_moved (inField : Bool) : ∀ parameters : List Parameter,
    Parameter.writeAll inField (Parameter.movedAll lines parameters) =
      Parameter.writeAll inField parameters
  | [] => rfl
  | parameter :: parameters => by
    simp only [Parameter.movedAll, Parameter.writeAll, Parameter.write_moved inField parameter,
      Parameter.writeAll_moved inField parameters]

theorem Parameter.writeOption_moved (inField : Bool) : ∀ parameter : Option Parameter,
    Parameter.writeOption inField (Parameter.movedOption lines parameter) =
      Parameter.writeOption inField parameter
  | none => rfl
  | some parameter => by
    simp only [Parameter.movedOption, Parameter.writeOption,
      Parameter.write_moved inField parameter]

theorem Parameters.write_moved (inField : Bool) : ∀ parameters : Parameters,
    (parameters.moved lines).write inField = parameters.write inField
  | .mk positionalOnly regular variadic keywordOnly keywordDefaults keywordVariadic defaults => by
    simp only [Parameters.moved, Parameters.write, Parameter.writeAll_moved inField positionalOnly,
      Parameter.writeAll_moved inField regular, Parameter.writeOption_moved inField variadic,
      Parameter.writeAll_moved inField keywordOnly,
      Expr.writeSlots_moved inField keywordDefaults,
      Parameter.writeOption_moved inField keywordVariadic,
      Expr.writeAll_moved inField .test defaults]

theorem Keyword.writeAll_moved (inField : Bool) : ∀ keywords : List Keyword,
    Keyword.writeAll inField (Keyword.movedAll lines keywords) =
      Keyword.writeAll inField keywords
  | [] => rfl
  | .mk _ _ value :: keywords => by
    simp only [Keyword.movedAll, Keyword.moved, Keyword.writeAll,
      Expr.write_moved inField .test value, Keyword.writeAll_moved inField keywords]

theorem Comprehension.writeAll_moved (inField : Bool) : ∀ clauses : List Comprehension,
    Comprehension.writeAll inField (Comprehension.movedAll lines clauses) =
      Comprehension.writeAll inField clauses
  | [] => rfl
  | .mk target iter conditions _ :: clauses => by
    simp only [Comprehension.movedAll, Comprehension.moved, Comprehension.writeAll,
      Expr.write_moved inField .tuple target, Expr.write_moved inField _ iter,
      Expr.writeAll_moved inField _ conditions, Comprehension.writeAll_moved inField clauses]

end

@[simp]
theorem Expr.sourceText_moved (expr : Expr) : (expr.moved lines).sourceText = expr.sourceText :=
  Expr.write_moved lines false .test expr

end Text

end DesignLint.Syntax
