import DesignLint.CommandLine.Command
import DesignLint.Proofs.Outcome
import Mathlib.Data.List.TakeWhile

/-!
# What decides about the command

A scan is written as a path among options, and reads the same wherever the path stands. But whether
arguments are read as a scan is decided before they are read, by the first of them that does not
begin with a hyphen, and that may be the value of an option in front of the path. So the arguments
of a scan are refused exactly if that first argument is empty or the name of another command.
-/

namespace DesignLint.CommandLine

/-! ## How scans are written -/

/-- An argument that is written like no option. -/
def IsWord (text : String) : Prop :=
  text ≠ "--" ∧ token scanOptions text = .ok (.word text)

/-- The long names of the options of a scan: in full, or cut where no other name begins alike. -/
inductive Names : String → OptionSpec ScanOption → Prop
  | whole {name : String} {spec : OptionSpec ScanOption} (listed : spec ∈ scanOptions)
      (named : name ∈ spec.names) :
    Names name spec
  | cut {characters : List Char} {spec : OptionSpec ScanOption}
      (noSign : '=' ∉ characters) (nonempty : characters ≠ [])
      (unshared : beginningWith scanOptions (.ofList ('-' :: '-' :: characters)) = [spec]) :
    Names (.ofList ('-' :: '-' :: characters)) spec

/-- The ways to write an option of a scan, and what they say. A value is the next argument, or is
joined to the name by an equals sign. -/
inductive WritesOption : List String → List (ScanOption × Option String) → Prop
  | switch {name : String} {spec : OptionSpec ScanOption} (named : Names name spec)
      (alone : spec.form = .switch) :
    WritesOption [name] [(spec.key, none)]
  | verbose (more : Nat) :
    WritesOption [.ofList ('-' :: 'v' :: List.replicate more 'v')]
      (List.replicate (more + 1) (.verbose, none))
  | separate {name value : String} {spec : OptionSpec ScanOption} {accepts : String → Bool}
      (named : Names name spec) (form : spec.form = .value accepts)
      (accepted : accepts value = true) (word : IsWord value) :
    WritesOption [name, value] [(spec.key, some value)]
  | joined {name value : String} {spec : OptionSpec ScanOption} {accepts : String → Bool}
      (named : Names name spec) (form : spec.form = .value accepts)
      (accepted : accepts value = true) (noSeparator : value ≠ "--") :
    WritesOption [name ++ "=" ++ value] [(spec.key, some value)]

/-- Options of a scan, written one after another. -/
inductive WritesOptions : List String → List (ScanOption × Option String) → Prop
  | nil : WritesOptions [] []
  | cons {first rest : List String} {said more : List (ScanOption × Option String)}
      (written : WritesOption first said) (later : WritesOptions rest more) :
    WritesOptions (first ++ rest) (said ++ more)

theorem WritesOptions.append {first rest : List String}
    {said more : List (ScanOption × Option String)} (written : WritesOptions first said)
    (later : WritesOptions rest more) : WritesOptions (first ++ rest) (said ++ more) := by
  induction written with
  | nil => exact later
  | cons here _ inductionHypothesis =>
      rw [List.append_assoc, List.append_assoc]
      exact .cons here inductionHypothesis

/-- The scan of a path with options. -/
def ScanArguments.ofOptions (path : String) (options : List (ScanOption × Option String)) :
    ScanArguments :=
  options.foldl ScanArguments.with { path := .ofText path }

/-! ## Names and words -/

theorem splitAtFirst_of_absent {sign : Char} {text : String} (absent : sign ∉ text.toList) :
    splitAtFirst sign text = (text, none) := by
  have whole : text.toList.takeWhile (· != sign) = text.toList := by
    rw [List.takeWhile_eq_self_iff]
    intro c member
    rw [bne_iff_ne]
    rintro rfl
    exact absent member
  simp [splitAtFirst, whole]

theorem splitAtFirst_joined {sign : Char} {front behind : String}
    (absent : sign ∉ front.toList) :
    splitAtFirst sign (front ++ String.singleton sign ++ behind) = (front, some behind) := by
  have head : (front.toList ++ sign :: behind.toList).takeWhile (· != sign) = front.toList := by
    rw [List.takeWhile_append_of_pos]
    · simp
    · intro c member
      rw [bne_iff_ne]
      rintro rfl
      exact absent member
  simp [splitAtFirst, head]

theorem mem_beginningWith_of_ofName? {name : String} {spec : OptionSpec ScanOption}
    (found : ofName? scanOptions name = some spec) : spec ∈ beginningWith scanOptions name := by
  have listed := List.mem_of_find?_eq_some found
  have named := List.find?_some found
  rw [beginningWith, List.mem_flatMap]
  refine ⟨spec, listed, List.mem_map.mpr ⟨name, List.mem_filter.mpr ⟨?_, ?_⟩, rfl⟩⟩
  · exact List.contains_iff_mem.mp named
  · exact List.isPrefixOf_iff_prefix.mpr (List.prefix_refl _)

/-- A name is read as the option that it names. -/
structure IsRead (name : String) (spec : OptionSpec ScanOption) : Prop where
  dashes : ∃ characters, name.toList = '-' :: '-' :: characters
  noSign : '=' ∉ name.toList
  long : name ≠ "--"
  found : ofName? scanOptions name = some spec ∨
    ofName? scanOptions name = none ∧ beginningWith scanOptions name = [spec]

theorem Names.isRead {name : String} {spec : OptionSpec ScanOption} (named : Names name spec) :
    IsRead name spec := by
  cases named with
  | whole listed named =>
      simp only [scanOptions, List.mem_cons, List.not_mem_nil, or_false] at listed
      rcases listed with rfl | rfl | rfl | rfl | rfl | rfl | rfl | rfl | rfl | rfl <;>
        · simp only [List.mem_cons, List.not_mem_nil, or_false] at named
          rcases named with rfl | rfl <;>
            exact ⟨⟨_, rfl⟩, by decide, by decide, .inl rfl⟩
  | @cut characters _ noSign nonempty unshared =>
      refine ⟨⟨characters, by simp⟩, by simpa using noSign, ?_, ?_⟩
      · intro same
        have characters := congrArg String.toList same
        simp [nonempty] at characters
      · cases found : ofName? scanOptions (.ofList ('-' :: '-' :: characters)) with
        | none => exact .inr ⟨rfl, unshared⟩
        | some other =>
            have begins := mem_beginningWith_of_ofName? found
            rw [unshared, List.mem_singleton] at begins
            exact .inl (congrArg some begins)

namespace IsRead

variable {name : String} {spec : OptionSpec ScanOption} (read : IsRead name spec)

include read

/-- A name stands for its option, with and without a text joined to it. -/
theorem token_eq {text : String} {joined : Option String}
    (behind : ∃ rest, text.toList = name.toList ++ rest)
    (split : splitAtFirst '=' text = (name, joined)) :
    token scanOptions text = .ok (.named spec joined) := by
  obtain ⟨rest, characters⟩ := behind
  obtain ⟨letters, dashes⟩ := read.dashes
  have long : token scanOptions text = longToken scanOptions text := by
    rw [dashes] at characters
    rw [token, characters]
    rfl
  rw [long, longToken, split]
  rcases read.found with found | ⟨none, unshared⟩
  · simp only [found]
  · simp only [none, unshared]

theorem token_name : token scanOptions name = .ok (.named spec none) :=
  read.token_eq ⟨[], by simp⟩ (splitAtFirst_of_absent read.noSign)

theorem token_joined (value : String) :
    token scanOptions (name ++ "=" ++ value) = .ok (.named spec (some value)) :=
  read.token_eq ⟨'=' :: value.toList, by simp⟩ (splitAtFirst_joined read.noSign)

theorem joined_ne (value : String) : name ++ "=" ++ value ≠ "--" := by
  intro same
  have characters := congrArg String.toList same
  obtain ⟨letters, dashes⟩ := read.dashes
  simp [dashes] at characters

end IsRead

theorem token_verbose (more : Nat) :
    token scanOptions (.ofList ('-' :: 'v' :: List.replicate more 'v')) =
      .ok (.letters (List.replicate (more + 1) 'v')) := by
  cases more <;> simp [token, ofLetter?, scanOptions, lettersBehind, List.replicate_succ]

/-! ## Reading a scan -/

section Tokens

variable {specs : List (OptionSpec ScanOption)} {spec : OptionSpec ScanOption} {afterWord : Bool}
  {expected : Nat} {read : Arguments ScanOption} {more : List (Token ScanOption)}
  {accepts : String → Bool} {value : String}

/-- What is read, with more options. -/
def Arguments.adding (read : Arguments ScanOption) (said : List (ScanOption × Option String)) :
    Arguments ScanOption :=
  { read with options := read.options ++ said }

theorem adding_adding (said others : List (ScanOption × Option String)) :
    (read.adding said).adding others = read.adding (said ++ others) := by
  simp [Arguments.adding]

theorem takeSwitch_eq_ok (alone : spec.form = .switch) :
    read.takeSwitch spec = .ok (read.adding [(spec.key, none)]) := by
  rw [Arguments.takeSwitch, alone]
  rfl

theorem takeValue_eq_ok (accepted : accepts value = true) (noSeparator : value ≠ "--") :
    read.takeValue spec accepts value = .ok (read.adding [(spec.key, some value)]) := by
  rw [Arguments.takeValue, if_neg noSeparator, if_pos accepted]
  rfl

theorem takeLetters_replicate {letter : Char} (found : ofLetter? specs letter = some spec)
    (alone : spec.form = .switch) (number : Nat) :
    read.takeLetters specs (List.replicate number letter) =
      .ok (read.adding (List.replicate number (spec.key, none))) := by
  have taken : (List.replicate number letter).mapM (ofLetter? specs) =
      some (List.replicate number spec) := by
    induction number with
    | zero => rfl
    | succ number inductionHypothesis =>
        rw [List.replicate_succ, List.mapM_cons, found, inductionHypothesis]
        rfl
  rw [Arguments.takeLetters, taken]
  dsimp only
  clear taken
  induction number generalizing read with
  | zero => simp [Arguments.adding, pure, Except.pure]
  | succ number inductionHypothesis =>
      rw [List.replicate_succ, List.foldlM_cons, takeSwitch_eq_ok alone]
      refine inductionHypothesis.trans ?_
      rw [adding_adding]
      rfl

theorem readTokens_switch (alone : spec.form = .switch) :
    readTokens specs afterWord expected read (.named spec none :: more) =
      readTokens specs false expected (read.adding [(spec.key, none)]) more := by
  rw [readTokens.eq_def]
  simp only [alone, takeSwitch_eq_ok alone]
  rfl

theorem readTokens_joined (form : spec.form = .value accepts) (accepted : accepts value = true)
    (noSeparator : value ≠ "--") :
    readTokens specs afterWord expected read (.named spec (some value) :: more) =
      readTokens specs false expected (read.adding [(spec.key, some value)]) more := by
  rw [readTokens.eq_def]
  simp only [form, takeValue_eq_ok accepted noSeparator]
  rfl

theorem readTokens_separate (form : spec.form = .value accepts) (accepted : accepts value = true)
    (noSeparator : value ≠ "--") :
    readTokens specs afterWord expected read (.named spec none :: .word value :: more) =
      readTokens specs false expected (read.adding [(spec.key, some value)]) more := by
  rw [readTokens.eq_def]
  simp only [form, takeValue_eq_ok accepted noSeparator]
  rfl

theorem readTokens_verbose (number : Nat) :
    readTokens scanOptions afterWord expected read
        (.letters (List.replicate number 'v') :: more) =
      readTokens scanOptions false expected
        (read.adding (List.replicate number (.verbose, none))) more := by
  obtain ⟨spec, found, key, alone⟩ : ∃ spec, ofLetter? scanOptions 'v' = some spec ∧
      spec.key = .verbose ∧ spec.form = .switch := ⟨_, rfl, rfl, rfl⟩
  rw [readTokens, takeLetters_replicate found alone, key]
  rfl

end Tokens

/-- Tokens of arguments that add options to what is read, wherever they stand. -/
structure Adds (arguments : List String) (said : List (ScanOption × Option String))
    (parts : List (Token ScanOption)) : Prop where
  tokens_append : ∀ rest,
    tokens scanOptions (arguments ++ rest) = (tokens scanOptions rest).map (parts ++ ·)
  reads : ∀ afterWord expected read more, ∃ later,
    readTokens scanOptions afterWord expected read (parts ++ more) =
      readTokens scanOptions later expected (read.adding said) more

theorem tokens_cons {text : String} {first : Token ScanOption} (noSeparator : text ≠ "--")
    (read : token scanOptions text = .ok first) (rest : List String) :
    tokens scanOptions (text :: rest) = (tokens scanOptions rest).map (first :: ·) := by
  rw [tokens, if_neg noSeparator, read]
  cases tokens scanOptions rest <;> rfl

theorem WritesOption.exists_adds {arguments : List String}
    {said : List (ScanOption × Option String)} (written : WritesOption arguments said) :
    ∃ parts, Adds arguments said parts := by
  cases written with
  | @switch name spec named alone =>
      exact ⟨[.named spec none], tokens_cons named.isRead.long named.isRead.token_name,
        fun _ _ _ _ => ⟨false, readTokens_switch alone⟩⟩
  | verbose more =>
      have noSeparator : String.ofList ('-' :: 'v' :: List.replicate more 'v') ≠ "--" := by
        intro same
        simpa using congrArg String.toList same
      exact ⟨[.letters (List.replicate (more + 1) 'v')],
        tokens_cons noSeparator (token_verbose more),
        fun _ _ _ _ => ⟨false, readTokens_verbose (more + 1)⟩⟩
  | @separate name value spec accepts named form accepted word =>
      refine ⟨[.named spec none, .word value], ?_,
        fun _ _ _ _ => ⟨false, readTokens_separate form accepted word.1⟩⟩
      intro rest
      rw [List.cons_append, List.singleton_append,
        tokens_cons named.isRead.long named.isRead.token_name, tokens_cons word.1 word.2, map_map]
      rfl
  | @joined name value spec accepts named form accepted noSeparator =>
      exact ⟨[.named spec (some value)],
        tokens_cons (named.isRead.joined_ne value) (named.isRead.token_joined value),
        fun _ _ _ _ => ⟨false, readTokens_joined form accepted noSeparator⟩⟩

theorem WritesOptions.exists_adds {arguments : List String}
    {said : List (ScanOption × Option String)} (written : WritesOptions arguments said) :
    ∃ parts, Adds arguments said parts := by
  induction written with
  | nil =>
      refine ⟨[], fun rest => ?_, fun afterWord _ read _ => ⟨afterWord, ?_⟩⟩
      · simp only [List.nil_append]
        cases tokens scanOptions rest <;> rfl
      · simp [Arguments.adding]
  | cons here _ inductionHypothesis =>
      obtain ⟨parts, first⟩ := here.exists_adds
      obtain ⟨others, rest⟩ := inductionHypothesis
      refine ⟨parts ++ others, fun behind => ?_, fun afterWord expected read more => ?_⟩
      · rw [List.append_assoc, first.tokens_append, rest.tokens_append, map_map]
        simp only [Function.comp_def, List.append_assoc]
      · obtain ⟨later, same⟩ := first.reads afterWord expected read (others ++ more)
        obtain ⟨last, sameToo⟩ := rest.reads later expected _ more
        exact ⟨last, by rw [List.append_assoc, same, sameToo, adding_adding]⟩

/-- A scan reads the same wherever the path stands among the options. -/
theorem readScan_eq {path : String} {before after : List String}
    {said more : List (ScanOption × Option String)} (word : IsWord path)
    (front : WritesOptions before said) (behind : WritesOptions after more) :
    readScan (before ++ path :: after) = .ok (.ofOptions path (said ++ more)) := by
  obtain ⟨parts, first⟩ := front.exists_adds
  obtain ⟨others, last⟩ := behind.exists_adds
  have whole : tokens scanOptions (before ++ path :: after) =
      .ok (parts ++ .word path :: others) := by
    have closing := last.tokens_append []
    rw [List.append_nil] at closing
    rw [first.tokens_append, tokens_cons word.1 word.2, closing]
    simp [tokens, Except.map]
  have read : ∀ afterWord, readTokens scanOptions afterWord 1 {} (parts ++ .word path :: others) =
      .ok { options := said ++ more, words := [path] } := by
    intro afterWord
    obtain ⟨later, same⟩ := first.reads afterWord 1 {} (.word path :: others)
    rw [same, readTokens]
    obtain ⟨ending, sameToo⟩ := last.reads true 0
      { (Arguments.adding {} said) with words := (Arguments.adding {} said).words ++ [path] } []
    rw [List.append_nil] at sameToo
    rw [sameToo, readTokens]
    simp [Arguments.adding]
  unfold readScan readArguments
  simp only [whole, read, bind, Except.bind]
  rfl

/-! ## Other commands -/

section Named

variable {specs : List (OptionSpec Unit)} {before after : Arguments Unit}

theorem surplus_of_takeSwitch {spec : OptionSpec Unit} (taken : before.takeSwitch spec = .ok after)
    (surplus : before.surplus = true) : after.surplus = true := by
  unfold Arguments.takeSwitch at taken
  split at taken
  · cases taken
  · cases taken
    exact surplus

theorem surplus_of_takeLetters {letters : List Char}
    (taken : before.takeLetters specs letters = .ok after) (surplus : before.surplus = true) :
    after.surplus = true := by
  unfold Arguments.takeLetters at taken
  split at taken
  · exact foldlM_keeps (fun arguments => arguments.surplus = true)
      (fun _ _ _ => surplus_of_takeSwitch) taken surplus
  · cases taken

/-- What is too much in front of a command stays too much. -/
theorem surplus_of_splitCommand {items : List (String × Token Unit)} {rest : List String}
    (divided : splitCommand specs before items = .ok (after, rest))
    (surplus : before.surplus = true) : after.surplus = true := by
  induction items generalizing before with
  | nil =>
      cases divided
      exact surplus
  | cons item items inductionHypothesis =>
      obtain ⟨text, part⟩ := item
      cases part with
      | named spec joined =>
          cases joined with
          | none =>
              obtain ⟨middle, first, later⟩ := bind_eq_ok_iff.mp divided
              exact inductionHypothesis later (surplus_of_takeSwitch first surplus)
          | some value => cases divided
      | letters letters =>
          obtain ⟨middle, first, later⟩ := bind_eq_ok_iff.mp divided
          exact inductionHypothesis later (surplus_of_takeLetters first surplus)
      | unknown => exact inductionHypothesis divided rfl
      | word =>
          cases divided
          exact surplus
      | separator =>
          rw [splitCommand] at divided
          split at divided
          · cases divided
            rfl
          · cases divided
            exact surplus

end Named

theorem form_of_mem_commonOptions {spec : OptionSpec Unit} (listed : spec ∈ commonOptions) :
    spec.form = .stop := by
  simp only [commonOptions, List.mem_cons, List.not_mem_nil, or_false] at listed
  rcases listed with rfl | rfl <;> rfl

/-- What an argument can be in front of a command. -/
inductive StandsInFront (text : String) : Token Unit → Prop
  | word : StandsInFront text (.word text)
  | unknown : StandsInFront text .unknown
  | named {spec : OptionSpec Unit} (listed : spec ∈ commonOptions) (joined : Option String) :
    StandsInFront text (.named spec joined)
  | letters {letter : Char} {spec : OptionSpec Unit}
      (found : ofLetter? commonOptions letter = some spec) (more : List Char) :
    StandsInFront text (.letters (letter :: more))

theorem standsInFront_otherToken (text : String) : StandsInFront text (otherToken text) := by
  unfold otherToken
  split
  · exact .word
  · exact .unknown

theorem standsInFront_of_token {text : String} {part : Token Unit}
    (read : token commonOptions text = .ok part) : StandsInFront text part := by
  unfold token at read
  split at read
  · unfold longToken at read
    dsimp only at read
    split at read
    · rename_i spec found
      cases read
      exact .named (List.mem_of_find?_eq_some found) _
    · split at read
      · cases read
        exact standsInFront_otherToken text
      · rename_i spec alone
        cases read
        have begins : spec ∈ beginningWith commonOptions (splitAtFirst '=' text).1 :=
          alone ▸ List.mem_singleton_self spec
        obtain ⟨own, listed, made⟩ := List.mem_flatMap.mp begins
        obtain ⟨_, _, rfl⟩ := List.mem_map.mp made
        exact .named listed _
      · cases read
  · split at read
    · rename_i known
      cases read
      obtain ⟨spec, found⟩ := Option.isSome_iff_exists.mp known
      exact .letters found _
    · cases read
      exact standsInFront_otherToken text
  · cases read
    exact .word

/-- Arguments that do not begin with the name of a command are too much in front of one, or stop,
or have none. -/
theorem surplus_or_of_splitCommand {text : String} {part : Token Unit}
    {items : List (String × Token Unit)} {after : Arguments Unit} {rest : List String}
    (front : StandsInFront text part)
    (divided : splitCommand commonOptions {} ((text, part) :: items) = .ok (after, rest)) :
    after.surplus = true ∨ rest = text :: items.map (·.1) := by
  cases front with
  | word =>
      cases divided
      exact .inr rfl
  | unknown =>
      rw [splitCommand] at divided
      exact .inl (surplus_of_splitCommand divided rfl)
  | @named spec listed joined =>
      cases joined with
      | none =>
          obtain ⟨middle, taken, -⟩ := bind_eq_ok_iff.mp divided
          rw [Arguments.takeSwitch, form_of_mem_commonOptions listed] at taken
          cases taken
      | some value => cases divided
  | @letters letter spec found more =>
      obtain ⟨middle, taken, -⟩ := bind_eq_ok_iff.mp divided
      unfold Arguments.takeLetters at taken
      split at taken
      · rename_i known all
        rw [List.mapM_cons, found] at all
        obtain ⟨_, firstFound, others⟩ := Option.bind_eq_some_iff.mp all
        cases firstFound
        obtain ⟨others, -, same⟩ := Option.bind_eq_some_iff.mp others
        cases same
        rw [List.foldlM_cons, Arguments.takeSwitch,
          form_of_mem_commonOptions (List.mem_of_find?_eq_some found)] at taken
        cases taken
      · cases taken

/-- Arguments that do not begin with the name of a command are refused as a command. -/
theorem exists_readNamed_eq_error {text : String} {rest : List String}
    (noCommand : text ∉ commandNames) (noSeparator : text ≠ "--") :
    ∃ stop, readNamed (text :: rest) = .error stop := by
  cases outcome : readNamed (text :: rest) with
  | error stop => exact ⟨stop, rfl⟩
  | ok command =>
      exfalso
      unfold readNamed at outcome
      obtain ⟨parts, tokenized, outcome⟩ := bind_eq_ok_iff.mp outcome
      rw [tokens, if_neg noSeparator] at tokenized
      obtain ⟨part, read, tokenized⟩ := bind_eq_ok_iff.mp tokenized
      obtain ⟨others, -, made⟩ := bind_eq_ok_iff.mp tokenized
      cases made
      obtain ⟨⟨after, behind⟩, divided, outcome⟩ := bind_eq_ok_iff.mp outcome
      have tooMuch := surplus_or_of_splitCommand (standsInFront_of_token read) divided
      have command : after.surplus = true := by
        rcases tooMuch with surplus | rfl
        · exact surplus
        · -- the words in front are no command, so no command is found
          exfalso
          dsimp only at outcome
          split at outcome
          · rename_i none
            cases none
          · rename_i same
            cases same
            exact noCommand (by decide)
          · rename_i same
            cases same
            exact noCommand (by decide)
          · cases outcome
      simp only [command, if_true] at outcome
      split at outcome
      · cases outcome
      · obtain ⟨_, -, impossible⟩ := bind_eq_ok_iff.mp outcome
        cases impossible
      · obtain ⟨_, -, impossible⟩ := bind_eq_ok_iff.mp outcome
        cases impossible
      · cases outcome

theorem readNamed_ne_scan {arguments : List String} {scan : ScanArguments} :
    readNamed arguments ≠ .ok (.scan scan) := by
  intro outcome
  unfold readNamed at outcome
  obtain ⟨parts, -, outcome⟩ := bind_eq_ok_iff.mp outcome
  obtain ⟨⟨after, behind⟩, -, outcome⟩ := bind_eq_ok_iff.mp outcome
  dsimp only at outcome
  have last : ∀ command : Command,
      (if after.surplus = true then Except.error Stop.misused else pure command) =
        .ok (.scan scan) → command = .scan scan := by
    intro command same
    split at same
    · cases same
    · cases same
      rfl
  split at outcome
  · cases last _ outcome
  · obtain ⟨command, listing, outcome⟩ := bind_eq_ok_iff.mp outcome
    rw [last _ outcome] at listing
    obtain ⟨_, -, impossible⟩ := bind_eq_ok_iff.mp listing
    cases impossible
  · obtain ⟨command, validation, outcome⟩ := bind_eq_ok_iff.mp outcome
    rw [last _ outcome] at validation
    obtain ⟨_, -, impossible⟩ := bind_eq_ok_iff.mp validation
    cases impossible
  · cases outcome

/-! ## Choosing between them -/

/-- Whether the first argument without a hyphen in front can be the path of a scan. -/
inductive LooksLikeScan (arguments : List String) : Prop
  | intro {options : List String} {first : String} {rest : List String}
      (split : arguments = options ++ first :: rest)
      (dashes : ∀ text ∈ options, text.toList.head? = some '-')
      (noDash : first.toList.head? ≠ some '-') (nonempty : first ≠ "")
      (noCommand : first ∉ commandNames)

theorem not_isPrefixOf_dash (text : String) :
    (!"-".toList.isPrefixOf text.toList) = decide (text.toList.head? ≠ some '-') := by
  have dash : "-".toList = ['-'] := rfl
  rw [dash]
  cases text.toList with
  | nil => rfl
  | cons c rest =>
      by_cases same : c = '-'
      · simp [same]
      · simp [same, List.isPrefixOf, Ne.symm same]

/-- Arguments are read as a scan if their first one without a hyphen in front looks like a path. -/
theorem read_of_looksLikeScan {arguments : List String} (looks : LooksLikeScan arguments) :
    Command.read arguments = (readScan arguments).map .scan := by
  obtain @⟨options, first, rest, split, dashes, noDash, nonempty, noCommand⟩ := looks
  have found : arguments.find? (fun text => decide (text.toList.head? ≠ some '-')) =
      some first := by
    rw [List.find?_eq_some_iff_append]
    refine ⟨decide_eq_true noDash, options, rest, split, ?_⟩
    intro text listed
    simp [dashes text listed]
  have usual : ¬((first.isEmpty || commandNames.contains first) = true) := by
    rw [Bool.or_eq_true, String.isEmpty_iff, List.contains_iff_mem, not_or]
    exact ⟨nonempty, noCommand⟩
  unfold Command.read
  simp only [not_isPrefixOf_dash, found]
  rw [if_neg usual]

/-- Any other arguments are read as another command. -/
theorem read_of_not_looksLikeScan {arguments : List String}
    (other : ¬LooksLikeScan arguments) : Command.read arguments = readNamed arguments := by
  unfold Command.read
  simp only [not_isPrefixOf_dash]
  split
  · rename_i first found
    obtain ⟨noDash, options, rest, split, dashes⟩ := List.find?_eq_some_iff_append.mp found
    rw [if_pos]
    by_contra usual
    rw [Bool.or_eq_true, String.isEmpty_iff, List.contains_iff_mem, not_or] at usual
    refine other (.intro split ?_ (of_decide_eq_true noDash) usual.1 usual.2)
    intro text listed
    simpa using dashes text listed
  · rfl

/-- The arguments that write an option begin with a name or with letters. -/
theorem WritesOption.exists_cons {arguments : List String}
    {said : List (ScanOption × Option String)} (written : WritesOption arguments said) :
    ∃ first rest, arguments = first :: rest ∧ first.toList.head? = some '-' ∧ first ≠ "--" ∧
      ∀ text ∈ rest, ∃ option, (option, some text) ∈ said := by
  cases written with
  | @switch name spec named alone =>
      obtain ⟨letters, dashes⟩ := named.isRead.dashes
      exact ⟨name, [], rfl, by simp [dashes], named.isRead.long, by simp⟩
  | verbose more =>
      refine ⟨_, [], rfl, by simp, ?_, by simp⟩
      intro same
      simpa using congrArg String.toList same
  | @separate name value spec accepts named form accepted word =>
      obtain ⟨letters, dashes⟩ := named.isRead.dashes
      exact ⟨name, [value], rfl, by simp [dashes], named.isRead.long, by simp⟩
  | @joined name value spec accepts named form accepted noSeparator =>
      obtain ⟨letters, dashes⟩ := named.isRead.dashes
      exact ⟨name ++ "=" ++ value, [], rfl, by simp [dashes], named.isRead.joined_ne value,
        by simp⟩

theorem WritesOptions.head_eq {arguments : List String}
    {said : List (ScanOption × Option String)} (written : WritesOptions arguments said) :
    ∀ first ∈ arguments.head?, first.toList.head? = some '-' ∧ first ≠ "--" := by
  cases written with
  | nil => simp
  | cons here later =>
      obtain ⟨first, rest, rfl, dash, noSeparator, -⟩ := here.exists_cons
      simpa using ⟨dash, noSeparator⟩

/-- Among options, an argument without a hyphen in front is a value. -/
theorem WritesOptions.exists_option {arguments : List String}
    {said : List (ScanOption × Option String)} (written : WritesOptions arguments said)
    {text : String} (listed : text ∈ arguments) (noDash : text.toList.head? ≠ some '-') :
    ∃ option, (option, some text) ∈ said := by
  induction written with
  | nil => cases listed
  | cons here _ inductionHypothesis =>
      rcases List.mem_append.mp listed with own | later
      · obtain ⟨first, rest, rfl, dash, -, values⟩ := here.exists_cons
        rcases List.mem_cons.mp own with rfl | behind
        · exact absurd dash noDash
        · obtain ⟨option, member⟩ := values text behind
          exact ⟨option, List.mem_append_left _ member⟩
      · obtain ⟨option, member⟩ := inductionHypothesis later
        exact ⟨option, List.mem_append_right _ member⟩

/-- What looks like a path in front of other arguments, or is one, decides. -/
theorem LooksLikeScan.of_forall {path : String} {before after : List String} (nonempty : path ≠ "")
    (noDash : path.toList.head? ≠ some '-') (noCommand : path ∉ commandNames)
    (usual : ∀ text ∈ before, text.toList.head? ≠ some '-' → text ≠ "" ∧ text ∉ commandNames) :
    LooksLikeScan (before ++ path :: after) := by
  cases found : before.find? fun text => decide (text.toList.head? ≠ some '-') with
  | none =>
      refine .intro rfl (fun text listed => ?_) noDash nonempty noCommand
      simpa using List.find?_eq_none.mp found text listed
  | some value =>
      obtain ⟨plain, front, rest, rfl, dashes⟩ := List.find?_eq_some_iff_append.mp found
      have plain := of_decide_eq_true plain
      obtain ⟨nonempty, noCommand⟩ := usual value (by simp) plain
      refine .intro (List.append_assoc front (value :: rest) (path :: after))
        (fun text listed => ?_) plain nonempty noCommand
      simpa using dashes text listed

/-- A scan of a path with options says the same wherever the path stands, and with the path first it
is read as a scan. Elsewhere it is read as a scan exactly if the first argument that does not begin
with a hyphen looks like a path, and refused otherwise. With an ordinary path, it is refused over
the value of an option in front of the path: one that is empty or the name of another command. -/
theorem read_eq_scan_iff {path : String} {before after : List String}
    {said more : List (ScanOption × Option String)} (word : IsWord path)
    (noCommand : path ∉ commandNames) (front : WritesOptions before said)
    (behind : WritesOptions after more) :
    (readScan (before ++ path :: after) = .ok (.ofOptions path (said ++ more)) ∧
      readScan (path :: (before ++ after)) = .ok (.ofOptions path (said ++ more))) ∧
    (Command.read (before ++ path :: after) = .ok (.scan (.ofOptions path (said ++ more))) ↔
      LooksLikeScan (before ++ path :: after)) ∧
    (¬LooksLikeScan (before ++ path :: after) →
      ∃ stop, Command.read (before ++ path :: after) = .error stop) ∧
    (path ≠ "" → path.toList.head? ≠ some '-' →
      Command.read (path :: (before ++ after)) = .ok (.scan (.ofOptions path (said ++ more))) ∧
      (¬LooksLikeScan (before ++ path :: after) →
        ∃ option value, (option, some value) ∈ said ∧ value ∈ before ∧
          (value = "" ∨ value ∈ commandNames))) := by
  have anywhere := readScan_eq word front behind
  have first : readScan (path :: (before ++ after)) = .ok (.ofOptions path (said ++ more)) :=
    readScan_eq word .nil (front.append behind)
  refine ⟨⟨anywhere, first⟩, ?decided, ?refused, fun nonempty noDash => ⟨?pathFirst, ?value⟩⟩
  case decided =>
    constructor
    · intro read
      by_contra other
      rw [read_of_not_looksLikeScan other] at read
      exact readNamed_ne_scan read
    · intro looks
      rw [read_of_looksLikeScan looks, anywhere]
      rfl
  case refused =>
    intro other
    rw [read_of_not_looksLikeScan other]
    cases before with
    | nil => exact exists_readNamed_eq_error noCommand word.1
    | cons text rest =>
        obtain ⟨dash, noSeparator⟩ := front.head_eq text rfl
        refine exists_readNamed_eq_error ?_ noSeparator
        intro member
        simp only [commandNames, List.mem_cons, List.not_mem_nil, or_false] at member
        rcases member with rfl | rfl <;> simp at dash
  case pathFirst =>
    have looks : LooksLikeScan ([] ++ path :: (before ++ after)) :=
      .of_forall nonempty noDash noCommand (by simp)
    exact (read_of_looksLikeScan looks).trans (congrArg (Except.map Command.scan) first)
  case value =>
    intro other
    by_contra none
    refine other (.of_forall nonempty noDash noCommand ?_)
    intro text listed plain
    obtain ⟨option, member⟩ := front.exists_option listed plain
    exact not_or.mp fun wrong => none ⟨option, text, member, listed, wrong⟩

/-- The name of a project that is the name of a command hides the path behind it. -/
theorem read_rulesProject :
    Command.read [".", "--project-id", "rules"] =
        .ok (.scan { path := .ofText ".", projectId := "rules" }) ∧
      ∃ stop, Command.read ["--project-id", "rules", "."] = .error stop := by
  have listed : ⟨.projectId, ["--project-id"], none, anyValue⟩ ∈ scanOptions := by
    simp [scanOptions]
  have front : WritesOptions ["--project-id", "rules"] [(.projectId, some "rules")] :=
    .append (.cons (.separate (.whole listed (by decide)) rfl rfl ⟨by decide, rfl⟩) .nil) .nil
  have path : IsWord "." := ⟨by decide, rfl⟩
  have hidden : ¬LooksLikeScan (["--project-id", "rules"] ++ ["."]) := by
    rintro @⟨options, first, rest, split, dashes, noDash, -, noCommand⟩
    rcases options with _ | ⟨name, _ | ⟨value, options⟩⟩
    · cases split
      exact noDash rfl
    · cases split
      exact noCommand (by decide)
    · injection split with _ split
      injection split with same
      subst same
      exact absurd (dashes "rules" (by simp)) (by decide)
  obtain ⟨-, -, refused, pathFirst⟩ := read_eq_scan_iff path (by decide) front .nil
  exact ⟨(pathFirst (by decide) (by decide)).1, refused hidden⟩

end DesignLint.CommandLine
