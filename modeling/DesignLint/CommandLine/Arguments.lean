import DesignLint.Text.Search
import DesignLint.Text.Unicode

/-!
# Command-line arguments

Arguments are options and words. An option is written with its long name, with
any beginning of that name that no other option shares, or with a letter; letters
of several options may stand together, also with an equals sign behind the first.
The value of an option is the next word, or is joined to the long name by an equals
sign; a double hyphen joined to it is no value at all. Behind a double hyphen there
are only words. Negative numbers and arguments with spaces are words, unless they
are written like an option.
-/

namespace DesignLint.CommandLine

/-! ## Options -/

/-- How an option is used: alone, with a value that must be acceptable, or to show
something and stop. -/
inductive OptionForm where
  | switch
  | value (accepts : String → Bool)
  | stop

/-- An option: what it is for, its long names and its letter. Only options without a
value have letters. -/
structure OptionSpec (κ : Type) where
  key : κ
  names : List String
  letter : Option Char := none
  form : OptionForm

/-- Why arguments are not read to their end. -/
inductive Stop where
  | shown | misused
deriving DecidableEq, Repr

/-- A kind of argument. The text joined to a long name by an equals sign comes with the
option. -/
inductive Token (κ : Type) where
  | named (spec : OptionSpec κ) (joined : Option String)
  | letters (letters : List Char)
  | unknown
  | word (text : String)
  | separator

variable {κ : Type}

/-- The option with a letter. -/
def ofLetter? (specs : List (OptionSpec κ)) (letter : Char) : Option (OptionSpec κ) :=
  specs.find? fun spec => spec.letter == some letter

/-- The options whose long names begin with a text, once for each such name. -/
def beginningWith (specs : List (OptionSpec κ)) (text : String) : List (OptionSpec κ) :=
  specs.flatMap fun spec => (spec.names.filter fun name =>
    text.toList.isPrefixOf name.toList).map fun _ => spec

/-- The option with exactly a long name. -/
def ofName? (specs : List (OptionSpec κ)) (name : String) : Option (OptionSpec κ) :=
  specs.find? fun spec => spec.names.contains name

/-- Whether a text is a whole negative number, or one with places. One line end may
follow. -/
def isNegativeNumber (text : List Char) : Bool :=
  let isDigit (c : Char) : Bool := (Unicode.digit? c).isSome
  match withoutFinalLineEnd text with
  | '-' :: rest =>
    let behind := rest.dropWhile isDigit
    if behind.isEmpty then !rest.isEmpty
    else match behind with
      | '.' :: places => !places.isEmpty && places.all isDigit
      | _ => false
  | _ => false

/-- An argument that no option is written like. -/
def otherToken (text : String) : Token κ :=
  if isNegativeNumber text.toList || text.toList.contains ' ' then .word text else .unknown

/-- The token of an argument with a long name. -/
def longToken (specs : List (OptionSpec κ)) (text : String) : Except Stop (Token κ) :=
  let (name, joined) := splitAtFirst '=' text
  match ofName? specs name with
  | some spec => .ok (.named spec joined)
  | none =>
    match beginningWith specs name with
    | [] => .ok (otherToken text)
    | [spec] => .ok (.named spec joined)
    | _ => .error .misused

/-- The letters behind the first letter of an option. An equals sign in front of others
does not count. -/
def lettersBehind : List Char → List Char
  | '=' :: letter :: rest => letter :: rest
  | rest => rest

/-- The token of an argument. -/
def token (specs : List (OptionSpec κ)) (text : String) : Except Stop (Token κ) :=
  match text.toList with
  | '-' :: '-' :: _ => longToken specs text
  | '-' :: letter :: rest =>
    if (ofLetter? specs letter).isSome then .ok (.letters (letter :: lettersBehind rest))
    else .ok (otherToken text)
  | _ => .ok (.word text)

/-- The tokens of arguments. -/
def tokens (specs : List (OptionSpec κ)) : List String → Except Stop (List (Token κ))
  | [] => .ok []
  | text :: rest =>
    if text = "--" then .ok (.separator :: rest.map .word)
    else do
      let first ← token specs text
      return first :: (← tokens specs rest)

/-! ## Reading -/

/-- What arguments say: options with their values in order, the words that were expected,
and whether there is more than was expected. -/
structure Arguments (κ : Type) where
  options : List (κ × Option String) := []
  words : List String := []
  surplus : Bool := false

namespace Arguments

/-- Takes an option without a value. -/
def takeSwitch (arguments : Arguments κ) (spec : OptionSpec κ) : Except Stop (Arguments κ) :=
  match spec.form with
  | .stop => .error .shown
  | _ => .ok { arguments with options := arguments.options ++ [(spec.key, none)] }

/-- Takes an option with a value. -/
def takeValue (arguments : Arguments κ) (spec : OptionSpec κ) (accepts : String → Bool)
    (value : String) : Except Stop (Arguments κ) :=
  if value = "--" then
    .ok { arguments with options := arguments.options ++ [(spec.key, none)] }
  else if accepts value then
    .ok { arguments with options := arguments.options ++ [(spec.key, some value)] }
  else .error .misused

end Arguments

/-- Takes the options of letters that stand together, if there is an option for each. -/
def Arguments.takeLetters (specs : List (OptionSpec κ)) (arguments : Arguments κ)
    (letters : List Char) : Except Stop (Arguments κ) :=
  match letters.mapM (ofLetter? specs) with
  | some taken => taken.foldlM Arguments.takeSwitch arguments
  | none => .error .misused

/-- Reads tokens when so many more words are expected. A separator belongs to the word
behind it, or to an expected word right before it. -/
def readTokens (specs : List (OptionSpec κ)) (afterWord : Bool) (expected : Nat)
    (arguments : Arguments κ) : List (Token κ) → Except Stop (Arguments κ)
  | [] => .ok { arguments with surplus := arguments.surplus || decide (0 < expected) }
  | .named spec joined :: rest =>
    match spec.form, joined, rest with
    | .value accepts, some value, rest => do
      readTokens specs false expected (← arguments.takeValue spec accepts value) rest
    | .value accepts, none, .word value :: rest => do
      readTokens specs false expected (← arguments.takeValue spec accepts value) rest
    | .value _, none, _ => .error .misused
    | _, some _, _ => .error .misused
    | _, none, rest => do
      readTokens specs false expected (← arguments.takeSwitch spec) rest
  | .letters letters :: rest => do
    readTokens specs false expected (← arguments.takeLetters specs letters) rest
  | .unknown :: rest =>
    readTokens specs false expected { arguments with surplus := true } rest
  | .word text :: rest =>
    match expected with
    | 0 => readTokens specs false 0 { arguments with surplus := true } rest
    | expected + 1 =>
      readTokens specs true expected { arguments with words := arguments.words ++ [text] } rest
  | .separator :: rest =>
    let belongs := afterWord || (decide (0 < expected) && !rest.isEmpty)
    readTokens specs afterWord expected
      { arguments with surplus := arguments.surplus || !belongs } rest

/-- What arguments say, when so many words are expected. Too few or too many are not
accepted. -/
def readArguments (specs : List (OptionSpec κ)) (expected : Nat) (arguments : List String) :
    Except Stop (Arguments κ) := do
  let read ← readTokens specs false expected {} (← tokens specs arguments)
  if read.surplus then .error .misused else return read

/-- Reads arguments up to the first word, which begins a command of its own: gives what
stood before it, and the arguments from there on. A separator before it is part of the
command. -/
def splitCommand (specs : List (OptionSpec κ)) (arguments : Arguments κ) :
    List (String × Token κ) → Except Stop (Arguments κ × List String)
  | [] => .ok (arguments, [])
  | (text, .word _) :: rest => .ok (arguments, text :: rest.map (·.1))
  | (text, .separator) :: rest =>
    if rest.isEmpty then .ok ({ arguments with surplus := true }, [])
    else .ok (arguments, text :: rest.map (·.1))
  | (_, .named spec none) :: rest => do
    splitCommand specs (← arguments.takeSwitch spec) rest
  | (_, .named _ (some _)) :: _ => .error .misused
  | (_, .letters letters) :: rest => do
    splitCommand specs (← arguments.takeLetters specs letters) rest
  | (_, .unknown) :: rest => splitCommand specs { arguments with surplus := true } rest

end DesignLint.CommandLine
