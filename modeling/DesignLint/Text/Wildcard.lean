/-!
# Wildcard patterns

A pattern matches a whole text: `*` any run of characters, `?` any one, a
bracketed class any one of its members, and every other character itself. A
class may be negated by `!`; a closing bracket in first place is a member, a
bracket that is never closed is an ordinary character, and a range whose ends
are in the wrong order has no members. Slashes and line ends are ordinary.
-/

namespace DesignLint

namespace Wildcard

/-- One element of a pattern. -/
inductive Token where
  | anyRun
  | anyOne
  | literal (c : Char)
  | oneOf (negated : Bool) (ranges : List (Char × Char))
deriving DecidableEq, Repr

namespace Token

/-- Whether the element matches one character; a run is not matched this way. -/
def accepts : Token → Char → Bool
  | .anyRun, _ => false
  | .anyOne, _ => true
  | .literal expected, c => expected == c
  | .oneOf negated ranges, c =>
    ranges.any (fun range => decide (range.1 ≤ c) && decide (c ≤ range.2)) != negated

end Token

/-! ## Reading a pattern -/

/-- The text before the next hyphen at or after position `skip`, and the text
behind that hyphen. -/
def splitAtHyphen (skip : Nat) (members : List Char) : Option (List Char × List Char) :=
  let tail := members.drop skip
  let before := tail.takeWhile (· != '-')
  match tail.dropWhile (· != '-') with
  | [] => none
  | _ :: rest => some (members.take skip ++ before, rest)

/-- The pieces between the hyphens of a class that make ranges. A hyphen right
after a range is a member, so the search resumes two characters further on. -/
def piecesFrom : Nat → Nat → List Char → List (List Char)
  | 0, _, members => [members]
  | fuel + 1, skip, members =>
    match splitAtHyphen skip members with
    | none => [members]
    | some (piece, rest) => piece :: piecesFrom fuel 2 rest

/-- The pieces of a class. A hyphen in last place is a member. -/
def pieces (negated : Bool) (members : List Char) : List (List Char) :=
  let cut := piecesFrom members.length (if negated then 2 else 1) members
  match cut.reverse with
  | [] :: last :: before => ((last ++ ['-']) :: before).reverse
  | _ => cut

/-- Joins two pieces whose range has its ends in the wrong order, dropping the
ends. -/
def mergeInverted : List (List Char) → List (List Char)
  | [] => []
  | piece :: rest =>
    match mergeInverted rest with
    | [] => [piece]
    | next :: others =>
      match piece.getLast?, next.head? with
      | some low, some high =>
        if high < low then (piece.dropLast ++ next.drop 1) :: others
        else piece :: next :: others
      | _, _ => piece :: next :: others

/-- The ranges between pieces, and the single members inside them. -/
def rangesOf (pieces : List (List Char)) : List (Char × Char) :=
  let members := pieces.flatten.map fun c => (c, c)
  let ends := (pieces.zip (pieces.drop 1)).filterMap fun (left, right) =>
    match left.getLast?, right.head? with
    | some low, some high => some (low, high)
    | _, _ => none
  members ++ ends

/-- The element written by the inside of a pair of brackets. What is left after
joining decides about negation, and a hyphen right behind the `!` is a member.
An empty class accepts nothing, and an empty negated one everything. -/
def classOf (inside : List Char) : Token :=
  match mergeInverted (pieces (inside.head? == some '!') inside) with
  | ['!'] :: next :: others => .oneOf true (rangesOf (('-' :: next) :: others))
  | ('!' :: first) :: others => .oneOf true (rangesOf (first :: others))
  | others => .oneOf false (rangesOf others)

/-- The inside of a class and the text behind its closing bracket, if there is
one. The first member may be a bracket. -/
def splitClass (text : List Char) : Option (List Char × List Char) :=
  let (bang, text) := match text with
    | '!' :: rest => (['!'], rest)
    | other => ([], other)
  let (first, text) := match text with
    | ']' :: rest => ([']'], rest)
    | other => ([], other)
  match text.dropWhile (· != ']') with
  | [] => none
  | _ :: rest => some (bang ++ first ++ text.takeWhile (· != ']'), rest)

/-- Reads a pattern with at most `fuel` elements. -/
def readFrom : Nat → List Char → List Token
  | 0, _ => []
  | _, [] => []
  | fuel + 1, '*' :: rest => .anyRun :: readFrom fuel rest
  | fuel + 1, '?' :: rest => .anyOne :: readFrom fuel rest
  | fuel + 1, '[' :: rest =>
    match splitClass rest with
    | none => .literal '[' :: readFrom fuel rest
    | some (inside, after) => classOf inside :: readFrom fuel after
  | fuel + 1, c :: rest => .literal c :: readFrom fuel rest

/-- The elements of a pattern. -/
def read (pattern : String) : List Token :=
  readFrom pattern.length pattern.toList

/-! ## Matching -/

/-- Whether some end of the text satisfies the predicate. -/
def anySuffix (accept : List Char → Bool) : List Char → Bool
  | [] => accept []
  | c :: rest => accept (c :: rest) || anySuffix accept rest

/-- Whether the elements match the whole text. -/
def matchesTokens : List Token → List Char → Bool
  | [], text => text.isEmpty
  | .anyRun :: tokens, text => anySuffix (matchesTokens tokens) text
  | _ :: _, [] => false
  | token :: tokens, c :: text => token.accepts c && matchesTokens tokens text

/-! ## Matching in one pass per element

Trying every split of the text at every run is exponential in the number of
runs. A table of the answers for all ends of the text, the whole text first, is
filled from the last element to the first, and each entry is found in one step.
-/

/-- The ends of a text, the whole text first. -/
def suffixes : List Char → List (List Char)
  | [] => [[]]
  | c :: rest => (c :: rest) :: suffixes rest

/-- For each place of a table, whether the table holds at it or behind it. -/
def holdsLater : List Bool → List Bool
  | [] => []
  | here :: rest =>
    let later := holdsLater rest
    (here || later.headD false) :: later

/-- The table for an element that takes one character, from the table for the
elements behind it. -/
def afterOne (token : Token) : List Char → List Bool → List Bool
  | c :: text, _ :: table => (token.accepts c && table.headD false) :: afterOne token text table
  | _, _ => [false]

/-- Which ends of a text the elements match. -/
def matchTable : List Token → List Char → List Bool
  | [], text => (suffixes text).map List.isEmpty
  | .anyRun :: tokens, text => holdsLater (matchTable tokens text)
  | token :: tokens, text => afterOne token text (matchTable tokens text)

theorem holdsLater_map_suffixes (accept : List Char → Bool) (text : List Char) :
    holdsLater ((suffixes text).map accept) = (suffixes text).map (anySuffix accept) := by
  induction text with
  | nil => simp [suffixes, holdsLater, anySuffix]
  | cons c rest ih =>
    have first : ((suffixes rest).map (anySuffix accept)).headD false = anySuffix accept rest := by
      cases rest <;> rfl
    simp only [suffixes, List.map_cons, holdsLater, ih, first, anySuffix]

theorem afterOne_map_suffixes (token : Token) (tokens : List Token) (notRun : token ≠ .anyRun)
    (text : List Char) :
    afterOne token text ((suffixes text).map (matchesTokens tokens)) =
      (suffixes text).map (matchesTokens (token :: tokens)) := by
  induction text with
  | nil => cases token <;> simp_all [suffixes, afterOne, matchesTokens]
  | cons c rest ih =>
    have first : ((suffixes rest).map (matchesTokens tokens)).headD false =
        matchesTokens tokens rest := by
      cases rest <;> rfl
    simp only [suffixes, List.map_cons, afterOne, ih, first]
    cases token <;> simp_all [matchesTokens]

/-- The table answers as the elements match. -/
theorem matchTable_eq (tokens : List Token) (text : List Char) :
    matchTable tokens text = (suffixes text).map (matchesTokens tokens) := by
  induction tokens with
  | nil => simp only [matchTable]; rfl
  | cons token tokens ih =>
    cases token with
    | anyRun =>
      rw [matchTable, ih, holdsLater_map_suffixes]
      rfl
    | anyOne =>
      exact (congrArg _ ih).trans (afterOne_map_suffixes _ _ (by simp) _)
    | literal c =>
      exact (congrArg _ ih).trans (afterOne_map_suffixes _ _ (by simp) _)
    | oneOf negated ranges =>
      exact (congrArg _ ih).trans (afterOne_map_suffixes _ _ (by simp) _)

end Wildcard

/-- Whether a wildcard pattern matches the whole text. -/
def wildcardMatches (pattern text : String) : Bool :=
  (Wildcard.matchTable (Wildcard.read pattern) text.toList).headD false

/-- A wildcard pattern matches as its elements do. -/
theorem wildcardMatches_eq (pattern text : String) :
    wildcardMatches pattern text =
      Wildcard.matchesTokens (Wildcard.read pattern) text.toList := by
  rw [wildcardMatches, Wildcard.matchTable_eq]
  cases text.toList <;> rfl

end DesignLint
