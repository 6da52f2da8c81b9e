import CommBindings.Fault
import CommBindings.Number.Numeral

set_option autoImplicit false

/-! # Options of the command line

The options may be shortened as long as it is clear which one is meant, and the value of an option
follows as the next word or after an equals sign. All words are classified first; only then do they
take effect, one after another. The separator after an equals sign is dropped, which leaves the
option without a value; that is not noticed before the value is needed.
-/

namespace CommBindings.CommandLine

/-- The options, in the order in which messages list them. -/
inductive OptionName where
  | help
  | commsDir
  | typeScriptDir
  | rustDir
  | pythonDir
  | comm
  | check
  | quiet
  | noParallel
  | workers
  deriving Repr, DecidableEq

namespace OptionName

/-- All options. -/
def all : List OptionName := [
  help, commsDir, typeScriptDir, rustDir, pythonDir, comm, check, quiet, noParallel, workers]

/-- The spellings of an option. -/
def spellings : OptionName → List String
  | help => ["-h", "--help"]
  | commsDir => ["--comms-dir"]
  | typeScriptDir => ["--typescript-dir"]
  | rustDir => ["--rust-dir"]
  | pythonDir => ["--python-dir"]
  | comm => ["--comm"]
  | check => ["--check"]
  | quiet => ["--quiet"]
  | noParallel => ["--no-parallel"]
  | workers => ["--workers"]

/-- The option as messages show it. -/
def shown (name : OptionName) : String := "/".intercalate name.spellings

/-- Whether the option has a value. -/
def takesValue : OptionName → Bool
  | help | check | quiet | noParallel => false
  | commsDir | typeScriptDir | rustDir | pythonDir | comm | workers => true

/-- All spellings with their options. -/
def spelled : List (String × OptionName) :=
  all.flatMap fun name => name.spellings.map fun spelling => (spelling, name)

/-- The spelling that says what an option is for. -/
def longSpelling (name : OptionName) : String := name.spellings.getLast?.getD ""

/-- The option with a spelling. -/
def ofSpelling? (spelling : List Char) : Option OptionName :=
  spelled.lookup (String.ofList spelling)

end OptionName

/-- Why the words are no command. -/
inductive UsageError where
  | ambiguous (word : String) (candidates : List String)
  | valueMissing (option : OptionName)
  | valueIgnored (option : OptionName) (value : String)
  | noInteger (option : OptionName) (value : String)
  | unrecognized (words : List String)
  deriving Repr, DecidableEq

/-- What is said of a failed command. -/
def UsageError.message : UsageError → String
  | ambiguous word candidates =>
    "ambiguous option: " ++ word ++ " could match " ++ ", ".intercalate candidates
  | valueMissing option => "argument " ++ option.shown ++ ": expected one argument"
  | valueIgnored option value =>
    "argument " ++ option.shown ++ ": ignored explicit argument " ++ Text.Quoted.shown value
  | noInteger option value =>
    "argument " ++ option.shown ++ ": invalid int value: " ++ Text.Quoted.shown value
  | unrecognized words => "unrecognized arguments: " ++ " ".intercalate words

/-! ## Classifying words -/

/-- A word of the command line. The value of an option may be in its word. The only option of one
letter is the one for help, and other letters may follow it in the word, also after an equals
sign. -/
inductive Word where
  | plain (text : String)
  | separator
  | unknown (text : String)
  | option (name : OptionName) (value : Option String)
  | helpLetters (letters : List Char)
  deriving Repr, DecidableEq

/-- A word that begins with one hyphen only. -/
def isShort (word : List Char) : Bool :=
  match word with
  | '-' :: c :: _ => c ≠ '-'
  | _ => false

/-- What stands before the first equals sign, and what stands after it if there is one. -/
def splitValue (word : List Char) : List Char × Option String :=
  let before := word.takeWhile (· ≠ '=')
  match word.dropWhile (· ≠ '=') with
  | [] => (before, none)
  | _ :: value => (before, some (String.ofList value))

/-- The spellings that a word may begin. -/
def candidates (start : List Char) : List (String × OptionName) :=
  OptionName.spelled.filter fun entry => start.isPrefixOf entry.1.toList

/-- Digits, and perhaps a point with digits after it. -/
def isUnsignedNumber (text : List Char) : Bool :=
  let isDigit := fun c => (Text.decimalValue? c).isSome
  let whole := text.takeWhile isDigit
  match text.dropWhile isDigit with
  | [] => !whole.isEmpty
  | '.' :: fraction => !fraction.isEmpty && fraction.all isDigit
  | _ => false

/-- A word that is a negative number. A line feed at its end does not count. -/
def isNegativeNumber (word : List Char) : Bool :=
  match word with
  | '-' :: text =>
    isUnsignedNumber (if text.getLast? = some '\n' then text.dropLast else text)
  | _ => false

/-- Classifies a word that is no option. Of the words that begin with a hyphen, negative numbers and
those with a space are plain. -/
def classifyOther (word : List Char) : Word :=
  if isNegativeNumber word || word.contains ' ' then .plain (String.ofList word)
  else .unknown (String.ofList word)

/-- Classifies a word with one hyphen, which may begin with the letter for help. -/
def classifyShort (word : List Char) : Word :=
  if OptionName.ofSpelling? (word.take 2) = some .help then .helpLetters (word.drop 2)
  else classifyOther word

/-- Classifies a word that may be shortened. -/
def classifyShortened (word : List Char) : Except UsageError Word :=
  let (start, value) := splitValue word
  match candidates start with
  | [(_, name)] => .ok (.option name value)
  | [] => .ok (classifyOther word)
  | several => .error (.ambiguous (String.ofList word) (several.map (·.1)))

/-- Classifies a word. -/
def classify (word : List Char) : Except UsageError Word :=
  if word.head? ≠ some '-' || word.length = 1 then .ok (.plain (String.ofList word))
  else
    match OptionName.ofSpelling? word with
    | some name => .ok (.option name none)
    | none =>
      match OptionName.ofSpelling? (splitValue word).1, (splitValue word).2 with
      | some name, some value =>
        if isShort word && value ≠ "" then .ok (.helpLetters value.toList)
        else .ok (.option name (some value))
      | _, _ => if isShort word then .ok (classifyShort word) else classifyShortened word

/-- The word after which no word is an option. -/
def separatorText : String := "--"

/-- Classifies all words. -/
def classifyAll : List String → Except UsageError (List Word)
  | [] => .ok []
  | word :: rest =>
    if word = separatorText then .ok (.separator :: rest.map Word.plain)
    else do
      let first ← classify word.toList
      let others ← classifyAll rest
      pure (first :: others)

/-! ## The effect of words -/

/-- The value of an option, which may be missing. -/
inductive Argument (α : Type) where
  | given (value : α)
  | missing
  deriving Repr, DecidableEq

/-- Whether the value is missing. -/
def Argument.isMissing {α : Type} : Argument α → Bool
  | missing => true
  | given _ => false

/-- The value, if there is one. -/
def Argument.value? {α : Type} : Argument α → Option α
  | given value => some value
  | missing => none

/-- The options that were given. -/
structure Options where
  commsDir : Option (Argument String)
  typeScriptDir : Option (Argument String)
  rustDir : Option (Argument String)
  pythonDir : Option (Argument String)
  comms : List (Argument String)
  check : Bool
  quiet : Bool
  noParallel : Bool
  workers : Option (Argument Int)
  deriving Repr, DecidableEq

/-- No options. -/
def Options.none : Options :=
  ⟨Option.none, Option.none, Option.none, Option.none, [], false, false, false, Option.none⟩

/-- Why the words lead to no run: help is asked for, or they are no command. -/
inductive NoRun where
  | helpRequested
  | usage (error : UsageError)
  deriving Repr, DecidableEq

namespace Options

/-- The number of workers that a value asks for. -/
def readWorkers : Argument String → Except NoRun (Argument Int)
  | .missing => .ok .missing
  | .given value =>
    match Numeral.readInt? 10 value.toList with
    | some count => .ok (.given count)
    | Option.none => .error (.usage (.noInteger .workers value))

/-- The options with a value for one of them. -/
def give (options : Options) (name : OptionName) (value : Argument String) :
    Except NoRun Options :=
  match name with
  | .commsDir => .ok { options with commsDir := some value }
  | .typeScriptDir => .ok { options with typeScriptDir := some value }
  | .rustDir => .ok { options with rustDir := some value }
  | .pythonDir => .ok { options with pythonDir := some value }
  | .comm => .ok { options with comms := options.comms ++ [value] }
  | .workers => do
    let count ← readWorkers value
    pure { options with workers := some count }
  | .help | .check | .quiet | .noParallel => .ok options

/-- The value after an equals sign. -/
def attached (value : String) : Argument String :=
  if value = separatorText then .missing else .given value

/-- The options with one that has no value. -/
def turnOn (options : Options) (name : OptionName) : Except NoRun Options :=
  match name with
  | .help => .error .helpRequested
  | .check => .ok { options with check := true }
  | .quiet => .ok { options with quiet := true }
  | .noParallel => .ok { options with noParallel := true }
  | _ => .ok options

/-- The end of a word of letters that begins with the one for help, of which there may be more.
What follows them would be a value. -/
def endOfHelp : List Char → NoRun
  | [] => .helpRequested
  | 'h' :: rest => endOfHelp rest
  | value => .usage (.valueIgnored .help (String.ofList value))

/-- The options after the effect of words, and the words that are none of them. -/
def take (options : Options) (extras : List String) :
    List Word → Except NoRun (Options × List String)
  | [] => .ok (options, extras)
  | .plain text :: rest => options.take (extras ++ [text]) rest
  | .separator :: rest => options.take (extras ++ [separatorText]) rest
  | .unknown text :: rest => options.take (extras ++ [text]) rest
  | .helpLetters letters :: _ => .error (endOfHelp letters)
  | .option name (some value) :: rest =>
    if name.takesValue then do (← options.give name (attached value)).take extras rest
    else .error (.usage (.valueIgnored name value))
  | .option name Option.none :: rest =>
    if name.takesValue then
      match rest with
      | .plain value :: rest => do (← options.give name (.given value)).take extras rest
      | _ => .error (.usage (.valueMissing name))
    else do (← options.turnOn name).take extras rest

/-- The options that the words of a command line give. -/
def ofWords (words : List String) : Except NoRun Options :=
  match classifyAll words with
  | .error error => .error (.usage error)
  | .ok classified =>
    match Options.none.take [] classified with
    | .error reason => .error reason
    | .ok (options, []) => .ok options
    | .ok (_, extras) => .error (.usage (.unrecognized extras))

end Options

end CommBindings.CommandLine
