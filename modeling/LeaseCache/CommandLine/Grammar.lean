import LeaseCache.Limits

/-!
# What a command line may hold

A program has options of its own and may have commands under it; a command has
options and plain arguments. The same description says which words are accepted
(`OptionKind.accepts`) and what the help of a program shows (`Grammar.page`).
-/

set_option autoImplicit false

namespace LeaseCache.CommandLine

/-! ## Values of options -/

/-- A whole number in decimal digits, perhaps behind a plus sign. -/
def readDigits (text : List Char) : Option Nat :=
  let digits := match text with
    | '+' :: rest => rest
    | _ => text
  if digits.isEmpty ∨ !digits.all Char.isDigit then none
  else some (digits.foldl (fun value digit => value * 10 + (digit.toNat - '0'.toNat)) 0)

/-- A whole number of 64 bits. -/
def readWord (text : String) : Option Nat :=
  (readDigits text.toList).filter fun value => value < wordBound

/-- A whole number of 32 bits, which may have a sign. -/
def readNode (text : String) : Option Nat :=
  match text.toList with
  | '-' :: '+' :: _ => none
  | '-' :: digits => (readDigits digits).filter fun value => value = 0
  | digits => (readDigits digits).filter fun value => value < UInt32.size

/-- What an option takes: nothing, or a value of a kind. A path has at least one character. -/
inductive OptionKind where
  | switch
  | text
  | path
  | word
  | node
  deriving DecidableEq, Repr

/-- Whether a text is a value of a kind. -/
def OptionKind.accepts : OptionKind → String → Bool
  | .switch, _ => true
  | .text, _ => true
  | .path, value => !value.isEmpty
  | .word, value => (readWord value).isSome
  | .node, value => (readNode value).isSome

/-! ## Descriptions -/

/-- An option: its name, which is written behind two dashes, and what it is for. -/
structure OptionSpec where
  name : String
  kind : OptionKind
  about : String
  default : Option String := none
  deriving DecidableEq, Repr

/-- A plain argument: the name that stands for it and what it is for. -/
structure PlainSpec where
  name : String
  about : String
  deriving DecidableEq, Repr

/-- A command: its name, what it is for and what follows it. -/
structure CommandSpec where
  name : String
  about : String
  options : List OptionSpec := []
  plain : List PlainSpec := []
  deriving DecidableEq, Repr

/-- A program and the commands under it. -/
structure Grammar where
  program : CommandSpec
  commands : List CommandSpec := []
  deriving DecidableEq, Repr

/-- The option with a name. -/
def CommandSpec.option? (command : CommandSpec) (name : String) : Option OptionSpec :=
  command.options.find? fun option => option.name = name

/-- The command with a name. -/
def Grammar.command? (grammar : Grammar) (name : String) : Option CommandSpec :=
  grammar.commands.find? fun command => command.name = name

/-! ## Help -/

/-- A line of a list in a help page: a term, what it means, and a note. -/
structure HelpRow where
  term : String
  about : String
  note : String := ""
  deriving DecidableEq, Repr

/-- The meaning of a term together with its note. -/
def HelpRow.meaning (row : HelpRow) : String :=
  if row.note.isEmpty then row.about else row.about ++ " " ++ row.note

/-- The width of a help page. -/
def pageWidth : Nat := 100

/-- Some blanks. -/
def blank (count : Nat) : String := String.ofList (List.replicate count ' ')

/-- Whether the meanings stand below their terms: the terms are wider than two fifths of the
page, and next to them there is no room for one of the meanings. -/
def meaningsBelow (rows : List HelpRow) (widest : Nat) : Bool :=
  let taken := widest + 4
  taken ≤ pageWidth && pageWidth * 2 < taken * 5 &&
    rows.any fun row => pageWidth - taken < row.about.length + row.note.length

/-- A list of a help page under its title. -/
def helpList (title : String) (rows : List HelpRow) : List String :=
  let widest := (rows.map fun row => row.term.length).foldl max 0
  let below := meaningsBelow rows widest
  "" :: title :: rows.flatMap fun row =>
    if below then [blank 2 ++ row.term, blank 10 ++ row.meaning]
    else [blank 2 ++ row.term ++ blank (widest - row.term.length) ++ blank 2 ++ row.meaning]

/-- The name that stands for the value of an option. -/
def valueName (name : String) : String :=
  "<" ++ (name.map fun char => if char = '-' then '_' else char.toUpper) ++ ">"

/-- The line of an option. Only the help has a short form, so there is room for one in front. -/
def OptionSpec.row (option : OptionSpec) : HelpRow where
  term := match option.kind with
    | .switch => blank 4 ++ "--" ++ option.name
    | _ => blank 4 ++ "--" ++ option.name ++ " " ++ valueName option.name
  about := option.about
  note := match option.default with
    | some text => "[default: " ++ text ++ "]"
    | none => ""

/-- The line of the option that shows help. -/
def helpRow : HelpRow := ⟨"-h, --help", "Print help", ""⟩

/-- What the command that shows help is for. -/
def helpAbout : String := "Print this message or the help of the given subcommand(s)"

/-- The words of a help page: what is described, how it is written, and its lists. -/
def helpPage (about usage : String) (lists : List (List String)) : String :=
  String.join (([about, "", "Usage: " ++ usage] ++ lists.flatten).map fun line => line ++ "\n")

/-- The help of a command under a path of names. -/
def CommandSpec.page (command : CommandSpec) (path : String) (commands : List CommandSpec) :
    String :=
  let options := if command.options.isEmpty then [] else ["[OPTIONS]"]
  let plain := command.plain.map fun argument => "<" ++ argument.name ++ ">"
  let under := if commands.isEmpty then [] else ["<COMMAND>"]
  let rows := commands.map fun command => (⟨command.name, command.about, ""⟩ : HelpRow)
  let arguments := command.plain.map fun argument =>
    (⟨"<" ++ argument.name ++ ">", argument.about, ""⟩ : HelpRow)
  helpPage command.about (String.intercalate " " ([path] ++ options ++ plain ++ under)) [
    if commands.isEmpty then [] else helpList "Commands:" (rows ++ [⟨"help", helpAbout, ""⟩]),
    if arguments.isEmpty then [] else helpList "Arguments:" arguments,
    helpList "Options:" (command.options.map OptionSpec.row ++ [helpRow])]

namespace Grammar

/-- The help of a program. -/
def page (grammar : Grammar) : String :=
  grammar.program.page grammar.program.name grammar.commands

/-- The help of a command of a program. -/
def commandPage (grammar : Grammar) (command : CommandSpec) : String :=
  command.page (grammar.program.name ++ " " ++ command.name) []

/-- The help that is asked for by names behind the command that shows help. -/
def pageOf? (grammar : Grammar) : List String → Option String
  | [] => some grammar.page
  | ["help"] => some (helpPage helpAbout (grammar.program.name ++ " help [COMMAND]...")
      [helpList "Arguments:" [⟨"[COMMAND]...", "Print help for the subcommand(s)", ""⟩]])
  | [name] => (grammar.command? name).map grammar.commandPage
  | _ => none

end Grammar

end LeaseCache.CommandLine
