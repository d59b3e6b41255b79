import Progressions.CommandLine.Usage
import Progressions.Text.Integer

/-!
# Arguments

Each argument is first a word: an operand, the terminator `--`, an option, or
something that looks like an option and is none.  An option may be abbreviated as
long as that is unambiguous, may have a value attached behind `=`, and short
options without values may stand together.  Behind the terminator every argument
is an operand.

The words are then taken from left to right.  The first operand that no option
takes as its value is the specification; help and version end the work at once.
-/

set_option autoImplicit false

namespace Progressions.CommandLine

def terminator : String := "--"

inductive Word where
  | operand (text : String)
  | terminator
  /-- An option, whether its spelling is a short one, and what is attached to it: directly or
  behind an equals sign. -/
  | option (switch : Switch) (short : Bool) (attachment : Option (List Char))
  | unknown (text : String)

/-! ## Words -/

def isDecimalDigit (character : Char) : Bool := (Text.digitValue? character).isSome

/-- A negative number's text behind its sign: digits, or a point with digits behind it and
perhaps in front; a line end may follow. -/
def looksNumeric (text : List Char) : Bool :=
  let body := if text.getLast? = some '\n' then text.dropLast else text
  match body.dropWhile isDecimalDigit with
  | [] => !body.isEmpty
  | '.' :: places => !places.isEmpty && places.all isDecimalDigit
  | _ => false

/-- The text before the first equals sign and, if there is one, the text behind it. -/
def splitEquals (text : List Char) : List Char × Option (List Char) :=
  match text.dropWhile (· != '=') with
  | _ :: value => (text.takeWhile (· != '='), some value)
  | [] => (text, none)

def isShort : List Char → Bool
  | '-' :: '-' :: _ => false
  | _ => true

/-- The readings of an argument as an abbreviated option, or as a short option with something
attached, each with its full spelling. -/
def readings (argument : List Char) : List (List Char × Word) :=
  if isShort argument then
    let (spelling, attached) := (argument.take 2, argument.drop 2)
    (Switch.table.filter (·.1 == spelling)).map fun (full, switch) =>
      (full, .option switch true (some attached))
  else
    let (abbreviation, value) := splitEquals argument
    (Switch.table.filter (abbreviation.isPrefixOf ·.1)).map fun (full, switch) =>
      (full, .option switch false value)

/-- The word of an argument that starts with a hyphen and has something behind it. -/
def optionWord (argument : List Char) : Except UsageError Word :=
  match readings argument with
  | [(_, word)] => .ok word
  | [] =>
    if looksNumeric (argument.drop 1) || argument.contains ' ' then
      .ok (.operand (String.ofList argument))
    else
      .ok (.unknown (String.ofList argument))
  | several => .error (.ambiguous (String.ofList argument) (several.map (String.ofList ·.1)))

def word (argument : String) : Except UsageError Word :=
  let text := argument.toList
  if text.head? ≠ some '-' ∨ text = ['-'] then .ok (.operand argument)
  else
    match Switch.ofSpelling? text with
    | some switch => .ok (.option switch (isShort text) none)
    | none =>
      match splitEquals text with
      | (spelling, some value) =>
        match Switch.ofSpelling? spelling with
        | some switch => .ok (.option switch (isShort spelling) (some value))
        | none => optionWord text
      | (_, none) => optionWord text

def words : List String → Except UsageError (List Word)
  | [] => .ok []
  | argument :: rest =>
    if argument = terminator then .ok (.terminator :: rest.map .operand)
    else do
      let first ← word argument
      return first :: (← words rest)

/-! ## Settings -/

def defaultLimit : Int := 100

/-- The settings of a run.  An option whose value is the terminator is left without one. -/
structure Settings where
  describe : Bool
  limit : Option Int
  separator : Option String
  verbose : Bool
deriving DecidableEq

def Settings.initial : Settings := ⟨false, some defaultLimit, some "\n", false⟩

inductive Invocation where
  | help
  | version
  | misuse (error : UsageError)
  | run (specification : String) (settings : Settings)

structure Taken where
  specification : Option String
  settings : Settings
  extras : List String

namespace Taken

def start : Taken := ⟨none, .initial, []⟩

def addExtra (taken : Taken) (argument : String) : Taken :=
  { taken with extras := taken.extras ++ [argument] }

def apply (taken : Taken) : Switch → Except Invocation Taken
  | .help => .error .help
  | .version => .error .version
  | .describe => .ok { taken with settings := { taken.settings with describe := true } }
  | .verbose => .ok { taken with settings := { taken.settings with verbose := true } }
  | _ => .ok taken

def assign (taken : Taken) (switch : Switch) (value : String) : Except Invocation Taken :=
  let value? := if value = terminator then none else some value
  match switch with
  | .limit =>
    match value?.map Text.integer? with
    | some none => .error (.misuse (.limitInvalid value))
    | limit? => .ok { taken with settings := { taken.settings with limit := limit?.join } }
  | .separator => .ok { taken with settings := { taken.settings with separator := value? } }
  | _ => .ok taken

/-- The short options that stand together, each of whose letters must be one. -/
def cluster (switch : Switch) : List Char → Except UsageError (List Switch)
  | [] => .error (.valueIgnored switch "")
  | letter :: rest =>
    match Switch.ofSpelling? ['-', letter], rest with
    | none, _ => .error (.valueIgnored switch (String.ofList (letter :: rest)))
    | some next, [] => .ok [switch, next]
    | some next, _ => do return switch :: (← cluster next rest)

/-- An option that takes no value, with what is attached to it. -/
def applyAttached (taken : Taken) (switch : Switch) (short : Bool) (attachment : List Char) :
    Except Invocation Taken :=
  if short then
    match cluster switch attachment with
    | .error cause => .error (.misuse cause)
    | .ok switches => switches.foldlM apply taken
  else
    .error (.misuse (.valueIgnored switch (String.ofList attachment)))

def take (taken : Taken) : List Word → Except Invocation Taken
  | [] => .ok taken
  | .operand text :: rest =>
    match taken.specification with
    | some _ => take (taken.addExtra text) rest
    | none =>
      match rest with
      | .terminator :: after => take { taken with specification := some text } after
      | rest => take { taken with specification := some text } rest
  | .terminator :: rest =>
    match taken.specification, rest with
    | none, .operand text :: after => take { taken with specification := some text } after
    | _, rest => take (taken.addExtra "--") rest
  | .unknown text :: rest => take (taken.addExtra text) rest
  | .option switch short attachment :: rest =>
    match switch.takesValue, attachment with
    | true, some attachment => do
      take (← taken.assign switch (String.ofList attachment)) rest
    | true, none =>
      match rest with
      | .operand text :: after => do take (← taken.assign switch text) after
      | _ => .error (.misuse (.valueMissing switch))
    | false, some attachment => do
      take (← taken.applyAttached switch short attachment) rest
    | false, none => do take (← taken.apply switch) rest

def finish (taken : Taken) : Invocation :=
  match taken.specification with
  | none => .misuse .specificationMissing
  | some specification =>
    if taken.extras.isEmpty then .run specification taken.settings
    else .misuse (.unrecognized taken.extras)

end Taken

def Invocation.ofArguments (arguments : List String) : Invocation :=
  match words arguments with
  | .error cause => .misuse cause
  | .ok words =>
    match Taken.start.take words with
    | .error invocation => invocation
    | .ok taken => taken.finish

end Progressions.CommandLine
