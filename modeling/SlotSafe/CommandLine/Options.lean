import SlotSafe.Text.DecimalDigit
import SlotSafe.Text.Quoted

/-!
# Options and operands

A command accepts options, with or without a value, and operands. An option has a long name, a
short name, or both; a long name may be shortened to any beginning that no other long name shares.
The value of an option follows as the next word, after an equals sign, or right after a short
name; short names without a value may be joined. After two dashes alone every word is an operand.
Two dashes alone are dropped where they are taken, the first time for each operand and each option,
so that an operand or an option can be left with nothing.

The words are judged before any of them is taken, so that an ambiguous option is found wherever it
stands. A word that has no place is set aside, and what is to become of such words is for the caller
to say.
-/

namespace SlotSafe.CommandLine

/-- An option. -/
structure OptionRule where
  /-- The names, each with its dashes. -/
  names : List String
  takesValue : Bool := false
  /-- The values that are accepted, if not all are. -/
  choices : Option (List String) := none
  required : Bool := false
  deriving DecidableEq, Repr

/-- The option as it is named in messages. -/
def OptionRule.label (o : OptionRule) : String := "/".intercalate o.names

/-- The option that every command has. -/
def helpOption : OptionRule := { names := ["-h", "--help"] }

/-- What a command accepts. -/
structure Grammar where
  options : List OptionRule
  operands : List String
  /-- Whether the first operand takes all words after it. -/
  takesAll : Bool := false
  deriving DecidableEq, Repr

/-- Why words are refused. -/
inductive UsageError where
  | ambiguous (word : String) (candidates : List String)
  | valueMissing (label : String)
  /-- A value for an option that takes none. -/
  | valueUnused (label value : String)
  | invalidChoice (label value : String) (choices : List String)
  | required (labels : List String)
  | unrecognized (words : List String)
  deriving DecidableEq, Repr

/-- The error in words. -/
def UsageError.message : UsageError → String
  | .ambiguous word candidates =>
    "ambiguous option: " ++ word ++ " could match " ++ ", ".intercalate candidates
  | .valueMissing label => "argument " ++ label ++ ": expected one argument"
  | .valueUnused label value =>
    "argument " ++ label ++ ": ignored explicit argument " ++ Text.quoted value
  | .invalidChoice label value choices =>
    "argument " ++ label ++ ": invalid choice: " ++ Text.quoted value ++ " (choose from "
      ++ ", ".intercalate (choices.map Text.quoted) ++ ")"
  | .required labels => "the following arguments are required: " ++ ", ".intercalate labels
  | .unrecognized words => "unrecognized arguments: " ++ " ".intercalate words

/-! ## Judging words -/

/-- What a word is. -/
inductive Word where
  | operand
  /-- Two dashes alone. -/
  | separator
  /-- An option, under one of its names, with the text that the word attaches to it. -/
  | option (rule : OptionRule) (name : String) (attached : Option (List Char))
  | unknownOption
  deriving DecidableEq, Repr

/-- Whether a name begins with one dash only. -/
def isShort (name : String) : Bool := name.toList.take 2 != ['-', '-']

/-- The names of options in order, each with its option. -/
def namesOf (options : List OptionRule) : List (String × OptionRule) :=
  options.flatMap fun o => o.names.map fun name => (name, o)

/-- A text before and after its first equals sign. -/
def splitEquals (s : List Char) : List Char × Option (List Char) :=
  match s.span (· != '=') with
  | (before, _ :: after) => (before, some after)
  | (before, []) => (before, none)

/-- The options that a word of two dashes can be short for. -/
def longCandidates (options : List OptionRule) (word : List Char) : List (String × Word) :=
  let (stem, value) := splitEquals word
  (namesOf options).filterMap fun (name, o) =>
    if stem.isPrefixOf name.toList then some (name, .option o name value) else none

/-- The options that a word of one dash can stand for. -/
def shortCandidates (options : List OptionRule) (word : List Char) : List (String × Word) :=
  (namesOf options).filterMap fun (name, o) =>
    if name.toList = word.take 2 then some (name, .option o name (some (word.drop 2)))
    else if word.isPrefixOf name.toList then some (name, .option o name none)
    else none

/-- The options that a word can stand for without being the name of one. -/
def candidates (options : List OptionRule) (word : List Char) : List (String × Word) :=
  match word with
  | '-' :: '-' :: _ => longCandidates options word
  | _ => shortCandidates options word

/-- Whether a word is a negative number. A line feed may follow it. -/
def isNegativeNumber (word : List Char) : Bool :=
  let isDigit (c : Char) : Bool := (Text.decimalDigit? c).isSome
  match if word.getLast? = some '\n' then word.dropLast else word with
  | '-' :: body => match body.span (· != '.') with
    | (whole, []) => !whole.isEmpty && whole.all isDigit
    | (whole, _ :: fraction) => whole.all isDigit && !fraction.isEmpty && fraction.all isDigit
  | _ => false

/-- Judges a word that begins with a dash and is longer. -/
def judgeDashed (options : List OptionRule) (word : String) : Except UsageError Word :=
  let names := namesOf options
  let (stem, value) := splitEquals word.toList
  match names.lookup word, names.lookup (String.ofList stem), value with
  | some o, _, _ => .ok (.option o word none)
  | none, some o, some value => .ok (.option o (String.ofList stem) (some value))
  | none, _, _ => match candidates options word.toList with
    | [(_, found)] => .ok found
    | [] =>
      if isNegativeNumber word.toList || word.toList.contains ' ' then .ok .operand
      else .ok .unknownOption
    | several => .error (.ambiguous word (several.map (·.1)))

/-- The word after which all words are operands. -/
def separator : String := "--"

/-- Judges a word before any separator. -/
def judge (options : List OptionRule) (word : String) : Except UsageError Word :=
  match word.toList with
  | '-' :: _ :: _ => judgeDashed options word
  | _ => .ok .operand

/-- Judges words. After the first separator all are operands. -/
def judgeAll (options : List OptionRule) : List String → Except UsageError (List (String × Word))
  | [] => .ok []
  | word :: rest =>
    if word = separator then .ok ((word, .separator) :: rest.map fun w => (w, .operand))
    else do
      let kind ← judge options word
      let others ← judgeAll options rest
      .ok ((word, kind) :: others)

/-! ## Taking words -/

/-- What has been taken. -/
structure Taken where
  /-- The options in the order in which they were given, with their values. -/
  options : List (OptionRule × Option String) := []
  /-- The operands, each the word that is left of its words. -/
  operands : List (Option String) := []
  /-- The words without a place. -/
  leftOver : List String := []
  deriving DecidableEq, Repr

/-- Why the words of a command are not carried out. -/
inductive Refusal where
  | help
  | error (e : UsageError)
  deriving DecidableEq, Repr

namespace Taken

/-- A word that is taken alone: nothing is left of two dashes. -/
def remaining (word : String) : Option String := if word = separator then none else some word

/-- Takes an option with its value. -/
def takeOption (t : Taken) (o : OptionRule) (value : Option String) : Except Refusal Taken :=
  if o = helpOption then .error .help
  else match o.choices, value with
    | some choices, some word =>
      if choices.contains word then .ok { t with options := t.options ++ [(o, value)] }
      else .error (.error (.invalidChoice o.label word choices))
    | _, _ => .ok { t with options := t.options ++ [(o, value)] }

/-- Takes options without a value. -/
def takeFlags (t : Taken) : List OptionRule → Except Refusal Taken
  | [] => .ok t
  | o :: rest => do takeFlags (← t.takeOption o none) rest

/-- Takes an operand. -/
def takeOperand (t : Taken) (word : Option String) : Taken :=
  { t with operands := t.operands ++ [word] }

/-- Takes all that is left as operands. -/
def takeAll (t : Taken) (words : List (String × Word)) : Taken :=
  { t with operands := words.map fun word => some word.1 }

/-- Sets words aside. -/
def setAside (t : Taken) (words : List String) : Taken :=
  { t with leftOver := t.leftOver ++ words }

/-- What a word of options asks for: options without a value, and a last option that takes one, with
the value if the word holds it. -/
structure Demand where
  flags : List OptionRule
  last : Option (OptionRule × Option String) := none
  deriving DecidableEq, Repr

/-- What an option asks for to which nothing is attached, after options without a value. -/
def Demand.ofOption (flags : List OptionRule) (o : OptionRule) : Demand :=
  if o.takesValue then ⟨flags, some (o, none)⟩ else ⟨flags ++ [o], none⟩

/-- Reads an option, after options without a value, with the text attached to it: its value, or
further short names. -/
def readAttached (options : List OptionRule) (flags : List OptionRule) (o : OptionRule)
    (name : String) (text : List Char) : Except Refusal Demand :=
  if o.takesValue then .ok ⟨flags, some (o, some (String.ofList text))⟩
  else match text with
    | [] => .error (.error (.valueUnused o.label ""))
    | c :: rest =>
      let nextName := String.ofList ['-', c]
      match if isShort name then (namesOf options).lookup nextName else none with
      | none => .error (.error (.valueUnused o.label (String.ofList (c :: rest))))
      | some next =>
        if rest.isEmpty then .ok (.ofOption (flags ++ [o]) next)
        else readAttached options (flags ++ [o]) next nextName rest
termination_by text.length

/-- Reads an option with what is attached to it. -/
def readOption (options : List OptionRule) (o : OptionRule) (name : String) :
    Option (List Char) → Except Refusal Demand
  | none => .ok (.ofOption [] o)
  | some text => readAttached options [] o name text

end Taken

/-- Which words stand right before. -/
inductive Before where
  | operand
  /-- A separator that the next operand takes. -/
  | separator
  | other
  deriving DecidableEq, Repr

/-- Takes words one after the other. `wanted` is the number of operands that are still wanted. A
separator next to an operand is taken with it, with the one before it if there is one. -/
def takeWords (g : Grammar) (wanted : Nat) (before : Before) (t : Taken) :
    List (String × Word) → Except Refusal Taken
  | [] => .ok t
  | (word, .operand) :: rest =>
    match wanted with
    | 0 => takeWords g 0 .other (t.setAside [word]) rest
    | wanted + 1 =>
      if g.takesAll then .ok (t.takeAll ((word, .operand) :: rest))
      else
        let left := if before = .separator then some word else Taken.remaining word
        takeWords g wanted .operand (t.takeOperand left) rest
  | (word, .separator) :: rest =>
    if g.takesAll && !rest.isEmpty then .ok (t.takeAll ((word, .separator) :: rest))
    else if before = .operand then takeWords g wanted .other t rest
    else if wanted != 0 && !rest.isEmpty then takeWords g wanted .separator t rest
    else takeWords g wanted .other (t.setAside [word]) rest
  | (word, .unknownOption) :: rest => takeWords g wanted .other (t.setAside [word]) rest
  | (_, .option o name attached) :: rest => do
    let demand ← Taken.readOption g.options o name attached
    match demand.last with
    | none => takeWords g wanted .other (← t.takeFlags demand.flags) rest
    | some (last, some value) =>
      let t ← (← t.takeFlags demand.flags).takeOption last (Taken.remaining value)
      takeWords g wanted .other t rest
    | some (last, none) => match rest with
      | (value, .operand) :: rest =>
        let t ← (← t.takeFlags demand.flags).takeOption last (Taken.remaining value)
        takeWords g wanted .other t rest
      | _ => throw (.error (.valueMissing last.label))

/-- The labels of operands and options that are required and were not given. -/
def Grammar.missing (g : Grammar) (t : Taken) : List String :=
  g.operands.drop t.operands.length
    ++ (g.options.filter fun o => o.required && !t.options.any fun given => given.1 == o).map
      OptionRule.label

/-- Takes the words of a command. -/
def Grammar.take (g : Grammar) (words : List String) : Except Refusal Taken := do
  let judged ← (judgeAll g.options words).mapError .error
  let t ← takeWords g g.operands.length .other {} judged
  if (g.missing t).isEmpty then .ok t else .error (.error (.required (g.missing t)))

end SlotSafe.CommandLine
