import LeaseCache.CommandLine.Arguments
import LeaseCache.Error

/-!
# Programs that write lines

A program changes a state, writes text to its output and to its error output,
and may stop early: it fails with a text, or it breaks off. Running it gives a
report: what it has written, and an exit status that tells how it ended.
-/

set_option autoImplicit false

namespace LeaseCache.CommandLine

/-- What a finished program leaves behind. -/
structure Report where
  status : Nat
  output : String
  errors : String
  deriving DecidableEq, Repr

/-- The report of a command line that gives no arguments. -/
def Report.ofRefusal : Refusal → Report
  | .misused => ⟨2, "", "Error: the arguments are not understood\n"⟩
  | .help page => ⟨0, page, ""⟩

/-- The report of a program that breaks off: what it wrote before, and the reason below a blank
line. -/
def Report.crash (output errors reason : String) : Report :=
  ⟨101, output, errors ++ "\n" ++ reason ++ "\n"⟩

/-- Why a program stops early: it fails with a text, or it breaks off for a reason. -/
inductive Stop where
  | failure (text : String)
  | crash (reason : String)
  deriving DecidableEq, Repr

/-- The program breaks off at a product that is no word. -/
def Stop.product : Stop := .crash "attempt to multiply with overflow"

/-- The program breaks off at a sum that is no word. -/
def Stop.sum : Stop := .crash "attempt to add with overflow"

/-- The program breaks off where it asks for too many bytes at once. -/
def Stop.unaddressable : Stop := .crash LeaseCache.unaddressable

/-- A program stops if it cannot make what it needs. -/
def Stop.ofCreationError : CreationError → Stop
  | .refused error => .failure error.message
  | .unaddressable => .unaddressable

/-- The line that tells a failure. -/
def failureLine (text : String) : String := "Error: " ++ text ++ "\n"

/-- The report of a program that stops early, behind what it wrote before. -/
def Stop.report (stop : Stop) (output errors : String) : Report :=
  match stop with
  | .failure text => ⟨1, output, errors ++ failureLine text⟩
  | .crash reason => .crash output errors reason

/-- The state of a running program and what it has written. -/
structure Console (σ : Type) where
  state : σ
  output : String
  errors : String

/-- A program over a state, which may stop early. -/
abbrev Program (σ : Type) (α : Type) := ExceptT Stop (StateM (Console σ)) α

namespace Program

variable {σ : Type} {α ε : Type}

/-- Writes text. -/
def write (text : String) : Program σ Unit :=
  modify fun console => { console with output := console.output ++ text }

/-- Writes a line. -/
def say (line : String) : Program σ Unit := write (line ++ "\n")

/-- Writes a line to the error output. -/
def warn (line : String) : Program σ Unit :=
  modify fun console => { console with errors := console.errors ++ line ++ "\n" }

/-- Writes a failure to the error output and goes on. -/
def complain (text : String) : Program σ Unit :=
  modify fun console => { console with errors := console.errors ++ failureLine text }

/-- The present state. -/
def state : Program σ σ := do return (← get).state

/-- Changes the state and gives the result of the change. -/
def attempt (act : σ → σ × Except ε α) : Program σ (Except ε α) :=
  modifyGet fun console =>
    let (next, result) := act console.state
    (result, { console with state := next })

/-- Ends a program with the text of a failure. -/
def fail (text : String) : Program σ α := throw (.failure text)

/-- Goes on with a value that is there, and stops otherwise. -/
def demand (stop : Stop) : Option α → Program σ α
  | some value => return value
  | none => throw stop

/-- Changes the state, and stops if the change fails. -/
def perform (stop : ε → Stop) (act : σ → σ × Except ε α) : Program σ α := do
  match ← attempt act with
  | .ok value => return value
  | .error error => throw (stop error)

/-- Runs a program from a state. -/
def report (program : Program σ Unit) (start : σ) : Report :=
  match program.run ⟨start, "", ""⟩ with
  | (.ok (), console) => ⟨0, console.output, console.errors⟩
  | (.error stop, console) => stop.report console.output console.errors

end Program

end LeaseCache.CommandLine
