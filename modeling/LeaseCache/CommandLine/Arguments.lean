import LeaseCache.CommandLine.Grammar

/-!
# Reading a command line

The words of a command line are read from left to right. An option is a switch,
or it takes the rest of its word behind `=` or else the next word as its value;
that word must not begin with a dash. An option is given at most once, and
behind the word `--` only plain arguments follow. A command takes all words
behind it.

The first fault and the first request for help decide what becomes of the whole
line. An option whose value is a word of its own is checked only when the next
option or plain argument is read, or at the end, so a request for help by the
name of a command comes before a fault in the value in front of it.
-/

set_option autoImplicit false

namespace LeaseCache.CommandLine

/-- Why a command line gives no arguments: it is wrong, or it asks for help. -/
inductive Refusal where
  | misused
  | help (page : String)
  deriving DecidableEq, Repr

/-- The options and plain arguments of one command. A switch is kept with an empty value. -/
structure Arguments where
  options : List (String × String) := []
  plain : List String := []
  deriving DecidableEq, Repr

/-- What a command line holds: the arguments of the program, and the command with its own. -/
structure Invocation where
  program : Arguments
  command : Option (String × Arguments)
  deriving DecidableEq, Repr

/-- The name in an option word and the value behind its first `=`. -/
def splitOption (word : List Char) : String × Option String :=
  let (name, rest) := word.span (· ≠ '=')
  (String.ofList name, rest.tail?.map String.ofList)

/-- Whether a word stands where only an option can stand. -/
def isDashed (word : String) : Bool := word.startsWith "-" && word ≠ "-"

/-! ## One command -/

/-- What has been read so far, and an option that has not been checked yet. Its value is
missing while the next word may still give it. -/
structure Reading where
  arguments : Arguments := {}
  pending : Option (OptionSpec × Option String) := none

namespace Reading

/-- Whether an option waits for its value. -/
def waits (reading : Reading) : Bool :=
  match reading.pending with
  | some (_, none) => true
  | _ => false

/-- Adds an option, unless it was given before or its value is of another kind. -/
def add (reading : Reading) (option : OptionSpec) (value : String) : Except Refusal Reading :=
  if reading.arguments.options.any fun given => given.1 = option.name then .error .misused
  else if option.kind.accepts value then
    .ok { reading with
      arguments.options := reading.arguments.options ++ [(option.name, value)] }
  else .error .misused

/-- Checks the option that has not been checked yet. -/
def settle (reading : Reading) : Except Refusal Reading :=
  match reading.pending with
  | none => .ok reading
  | some (_, none) => .error .misused
  | some (option, some value) => add { reading with pending := none } option value

/-- Adds a plain argument, unless the command has enough. -/
def addPlain (command : CommandSpec) (reading : Reading) (word : String) :
    Except Refusal Reading := do
  if reading.arguments.plain.length < command.plain.length then
    let settled ← reading.settle
    return { settled with arguments.plain := settled.arguments.plain ++ [word] }
  else throw .misused

/-- Shows help, unless the option in front of it is wrong. -/
def showHelp (page : String) (reading : Reading) : Except Refusal Reading := do
  let _ ← reading.settle
  throw (.help page)

/-- Reads an option word. -/
def readOption (command : CommandSpec) (page : String) (reading : Reading) (word : String) :
    Except Refusal Reading :=
  let (name, attached) := splitOption (word.toList.drop 2)
  match command.option? name, attached with
  | some option, value => do
      let settled ← reading.settle
      match option.kind, value with
      | .switch, none => settled.add option ""
      | .switch, some _ => throw .misused
      | _, some text => settled.add option text
      | _, none => return { settled with pending := some (option, none) }
  | none, none => if name = "help" then reading.showHelp page else .error .misused
  | none, some _ => .error .misused

/-- Reads one word that names no command and is not `--`. -/
def step (command : CommandSpec) (page : String) (reading : Reading) (word : String) :
    Except Refusal Reading :=
  if word.startsWith "--" then reading.readOption command page word
  else if word.startsWith "-h" then reading.showHelp page
  else if isDashed word then .error .misused
  else match reading.pending with
    | some (option, none) => .ok { reading with pending := some (option, some word) }
    | _ => reading.addPlain command word

/-- Reads words up to the end or the name of a command, which is left with the words behind it. -/
def readWords (command : CommandSpec) (page : String) (names : List String) :
    List String → Reading → Except Refusal (Reading × Option (String × List String))
  | [], reading => .ok (reading, none)
  | word :: rest, reading =>
      if !reading.waits && names.contains word then .ok (reading, some (word, rest))
      else if word = "--" then do
        let settled ← reading.settle
        let filled ← rest.foldlM (addPlain command) settled
        return (filled, none)
      else do readWords command page names rest (← reading.step command page word)

/-- The arguments that have been read, with the defaults of the options that were not given. -/
def finish (command : CommandSpec) (reading : Reading) : Except Refusal Arguments := do
  let settled ← reading.settle
  let arguments := settled.arguments
  if arguments.plain.length = command.plain.length then
    let defaults := command.options.filterMap fun option =>
      if arguments.options.any fun given => given.1 = option.name then none
      else option.default.map fun text => (option.name, text)
    return { arguments with options := arguments.options ++ defaults }
  else throw .misused

end Reading

/-- Reads all words behind a command. -/
def CommandSpec.read (command : CommandSpec) (page : String) (words : List String) :
    Except Refusal Arguments := do
  let (reading, _) ← Reading.readWords command page [] words {}
  reading.finish command

/-! ## The whole line -/

/-- Reads the words behind the name of a program. A program with commands needs one of them. -/
def Grammar.read (grammar : Grammar) (words : List String) : Except Refusal Invocation := do
  let names := if grammar.commands.isEmpty then []
    else grammar.commands.map CommandSpec.name ++ ["help"]
  let (reading, found) ← Reading.readWords grammar.program grammar.page names words {}
  match found with
  | none =>
      let arguments ← reading.finish grammar.program
      if grammar.commands.isEmpty then return ⟨arguments, none⟩ else throw .misused
  | some (name, rest) =>
      match grammar.command? name with
      | some command =>
          let inner ← command.read (grammar.commandPage command) rest
          let arguments ← reading.finish grammar.program
          return ⟨arguments, some (name, inner)⟩
      | none =>
          match grammar.pageOf? rest with
          | some page => throw (.help page)
          | none => throw .misused

/-! ## Values by name -/

/-- A number of megabytes in bytes. The program breaks off if the product is no word. -/
def megabytes? (count : Nat) : Option Nat :=
  let bytes := count * 1024 * 1024
  if bytes < wordBound then some bytes else none

namespace Arguments

/-- The value of an option, if it was given or has a default. -/
def value? (arguments : Arguments) (name : String) : Option String :=
  (arguments.options.find? fun option => option.1 = name).map Prod.snd

/-- Whether a switch was given. -/
def switch (arguments : Arguments) (name : String) : Bool := (arguments.value? name).isSome

/-- The number that an option has, if it has one. -/
def word? (arguments : Arguments) (name : String) : Option Nat :=
  (arguments.value? name).bind readWord

/-- The number that an option with a default has. -/
def word (arguments : Arguments) (name : String) : Nat := (arguments.word? name).getD 0

end Arguments

end LeaseCache.CommandLine
