/-!
# Finding and splitting

Whether a text occurs inside another, the pieces of a text between the occurrences
of a character, and the lines of a text.
-/

namespace DesignLint

/-- Whether a text occurs inside another. -/
def occurs (part : List Char) : List Char → Bool
  | [] => part.isEmpty
  | c :: rest => part.isPrefixOf (c :: rest) || occurs part rest

/-- The pieces of a text between the occurrences of a character. There is one
piece more than there are occurrences. -/
def pieces (separator : Char) : List Char → List (List Char)
  | [] => [[]]
  | c :: rest =>
    if c = separator then [] :: pieces separator rest
    else match pieces separator rest with
      | [] => [[c]]
      | piece :: others => (c :: piece) :: others

/-- The texts between the occurrences of a character. -/
def splitText (separator : Char) (text : String) : List String :=
  (pieces separator text.toList).map String.ofList

/-- The text before the first occurrence of a character and the text behind it, if
there is one. -/
def splitAtFirst (separator : Char) (text : String) : String × Option String :=
  let characters := text.toList
  let head := characters.takeWhile (· != separator)
  match characters.drop head.length with
  | [] => (text, none)
  | _ :: tail => (String.ofList head, some (String.ofList tail))

/-! ## Lines -/

/-- A text without the line end behind it, if there is one. -/
def withoutFinalLineEnd (text : List Char) : List Char :=
  if text.getLast? = some '\n' then text.dropLast else text

/-- The characters that end a line. -/
def lineEnds : List Char :=
  ['\n', '\r', '\x0b', '\x0c', '\x1c', '\x1d', '\x1e', '\x85', '\u2028', '\u2029']

/-- The lines of a text, without what ends them. A line feed behind a carriage return ends
no other line, and the last line needs no end. -/
def linesOf : List Char → List (List Char)
  | [] => []
  | '\r' :: '\n' :: rest => [] :: linesOf rest
  | c :: rest =>
    if lineEnds.contains c then [] :: linesOf rest
    else match linesOf rest with
      | [] => [[c]]
      | line :: others => (c :: line) :: others

/-- The lines of a text. -/
def textLines (text : String) : List String := (linesOf text.toList).map String.ofList

end DesignLint
