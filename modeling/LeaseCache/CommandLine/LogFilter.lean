import LeaseCache.CommandLine.Grammar
import LeaseCache.Pattern.Fault
import LeaseCache.Text.Numeral
import LeaseCache.Text.Slice

/-!
# Which log lines are shown

A filter is a list of directives with commas between them. A directive is a
level, or a target with a level (`target=level`), where a span and one field may
stand in brackets behind the target. The value of a field is a numeral or a
pattern. A directive without a level lets everything through. A line is judged
by the most specific directive that its target begins with, and of equally
specific ones by the last. A directive that names a span or the value of a field
says nothing about lines outside of spans.
-/

set_option autoImplicit false

namespace LeaseCache.CommandLine

/-- How much is shown, from nothing to everything. -/
inductive LogLevel where
  | off
  | error
  | warn
  | info
  | debug
  | trace
  deriving DecidableEq, Repr

namespace LogLevel

/-- The levels in their order. -/
def all : List LogLevel := [.off, .error, .warn, .info, .debug, .trace]

/-- The number of a level. -/
def rank : LogLevel → Nat
  | .off => 0
  | .error => 1
  | .warn => 2
  | .info => 3
  | .debug => 4
  | .trace => 5

/-- The name of a level. -/
def name : LogLevel → String
  | .off => "off"
  | .error => "error"
  | .warn => "warn"
  | .info => "info"
  | .debug => "debug"
  | .trace => "trace"

/-- The level that a text names, by its name in any case or by its number. -/
def read (text : String) : Option LogLevel :=
  all.find? fun level => readWord text = some level.rank || text.toLower = level.name

end LogLevel

/-- A directive of a filter. -/
structure LogDirective where
  level : LogLevel := .trace
  target : Option String := none
  span : Option String := none
  field : Option (String × Option String) := none
  deriving DecidableEq, Repr

/-- Why a text is no directive. -/
inductive DirectiveFault where
  | form
  | level
  | value (fault : Pattern.Fault)
  deriving DecidableEq, Repr

/-- The text of a fault. -/
def DirectiveFault.message : DirectiveFault → String
  | .form => "invalid filter directive"
  | .level => "error parsing level filter: expected one of \"off\", \"error\", \"warn\", \"info\", \"debug\", \"trace\", or a number 0-5"
  | .value .malformed => "invalid field filter: error building NFA"
  | .value .wordBoundary => "invalid field filter: unsupported regex feature for DFAs: cannot build DFAs for regexes with Unicode word boundaries; switch to ASCII word boundaries, or heuristically enable Unicode word boundaries or use a different regex engine"

/-- Why no directive could be read: the text is none, or a part of it would begin or end inside of
a character. -/
inductive DirectiveError where
  | fault (fault : DirectiveFault)
  | cut
  deriving DecidableEq, Repr

namespace LogDirective

/-- What is being read, and where it began. -/
inductive Place where
  | start
  | levelOrTarget (first : Nat)
  | span (first : Nat)
  | field (first : Nat)
  | afterField
  | afterSpan
  | level (first : Nat)
  deriving DecidableEq, Repr

/-- Whether a directive can begin with a character. -/
def canBegin (char : Char) : Bool :=
  Text.isAlphanumeric char || ['-', ':', '_'].contains char

/-- The text that a part is, if it neither begins nor ends inside of a character. -/
def whole : Option (List Char) → Except DirectiveError String
  | some part => .ok (String.ofList part)
  | none => .error .cut

/-- A field with the value behind its first `=`, if there is one. -/
def readField (text : String) : Except DirectiveFault (String × Option String) :=
  let (name, rest) := text.toList.span (· ≠ '=')
  match rest with
  | [] => .ok (String.ofList name, none)
  | _ :: rest =>
      let value := rest.takeWhile (· ≠ '=')
      match if Text.isNumeral value then none else Pattern.fault? value with
      | some fault => .error (.value fault)
      | none => .ok (String.ofList name, some (String.ofList value))

/-- Reads one character at a position. -/
def readChar (text : List Char) (index : Nat) (char : Char) :
    Place × LogDirective → Except DirectiveError (Place × LogDirective)
  | (.start, directive) =>
      if char = '[' then .ok (.span (index + 1), directive)
      else if canBegin char then .ok (.levelOrTarget index, directive)
      else .error (.fault .form)
  | (.levelOrTarget first, directive) =>
      if char = '=' ∨ char = '[' then do
        let targeted := { directive with target := some (← whole (Text.slice text first index)) }
        return (if char = '=' then .level (index + 1) else .span (index + 1), targeted)
      else .ok (.levelOrTarget first, directive)
  | (.span first, directive) =>
      if char = ']' then do
        let name ← whole (Text.slice text first index)
        return (.afterSpan, { directive with span := some name })
      else if char = '\x7b' then do
        let name ← whole (Text.slice text first index)
        return (.field (index + 1),
          { directive with span := if name.isEmpty then none else some name })
      else .ok (.span first, directive)
  | (.field first, directive) =>
      if char = '\x7d' then do
        let field ← whole (Text.slice text first index)
        if field.isEmpty then throw (.fault .form)
        match readField field with
        | .ok field => return (.afterField, { directive with field := some field })
        | .error fault => throw (.fault fault)
      else .ok (.field first, directive)
  | (.afterField, directive) =>
      if char = ']' then .ok (.afterSpan, directive) else .error (.fault .form)
  | (.afterSpan, directive) =>
      if char = '=' then .ok (.level (index + 1), directive) else .error (.fault .form)
  | (.level first, directive) => .ok (.level first, directive)

/-- Reads characters from a position on. -/
def readChars (text : List Char) :
    (index : Nat) → List Char → Place × LogDirective → Except DirectiveError (Place × LogDirective)
  | _, [], state => .ok state
  | index, char :: rest, state => do
      readChars text (index + char.utf8Size) rest (← readChar text index char state)

/-- Ends a directive where its text ends. -/
def close (text : List Char) : Place × LogDirective → Except DirectiveError LogDirective
  | (.levelOrTarget first, directive) => do
      let name ← whole (Text.behind first text)
      match LogLevel.read name with
      | some level => return { directive with level := level }
      | none => return { directive with target := some name }
  | (.level first, directive) => do
      let name ← whole (Text.behind first text)
      if name.isEmpty then return directive
      match LogLevel.read name with
      | some level => return { directive with level := level }
      | none => throw (.fault .level)
  | (.afterSpan, directive) => .ok directive
  | _ => .error (.fault .form)

/-- The directive that a text is. Positions count from the first character that is no blank,
but the parts are cut out of the whole text, blanks and all. -/
def read (text : String) : Except DirectiveError LogDirective := do
  close text.toList (← readChars text.toList 0 (Text.trimBlanks text.toList) (.start, {}))

/-- Whether a directive judges lines of a target with fields of the given names. -/
def judges (directive : LogDirective) (target : String) (fields : List String) : Bool :=
  let targeted := match directive.target with
    | some front => target.startsWith front
    | none => true
  let plain := match directive.field with
    | some (name, none) => fields.contains name
    | some (_, some _) => false
    | none => true
  directive.span.isNone && targeted && plain

/-- How specific a directive is: first by the length of its target, then by its field. -/
def weight (directive : LogDirective) : Nat :=
  let target := match directive.target with
    | some front => front.utf8ByteSize + 1
    | none => 0
  2 * target + (if directive.field.isSome then 1 else 0)

end LogDirective

/-- A filter: its directives, what is told about the texts that are ignored because they are no
directives, and whether reading stopped at a text that would have to be cut inside of a
character. -/
structure LogFilter where
  directives : List LogDirective
  ignored : List String
  broken : Bool
  deriving DecidableEq, Repr

namespace LogFilter

/-- The filter of the texts of some directives. -/
def ofTexts : List String → LogFilter
  | [] => ⟨[], [], false⟩
  | text :: rest =>
      match LogDirective.read text with
      | .ok directive =>
          let filter := ofTexts rest
          { filter with directives := directive :: filter.directives }
      | .error (.fault fault) =>
          let filter := ofTexts rest
          { filter with ignored := ("ignoring `" ++ text ++ "`: " ++ fault.message) :: filter.ignored }
      | .error .cut => ⟨[], [], true⟩

/-- The filter that a text writes. -/
def read (text : String) : LogFilter :=
  ofTexts ((text.splitOn ",").filter fun part => !part.isEmpty)

/-- The directive that judges lines of a target with fields of the given names. -/
def judge? (filter : LogFilter) (target : String) (fields : List String) : Option LogDirective :=
  (filter.directives.filter fun directive => directive.judges target fields).foldl
    (fun best directive => match best with
      | some other => some (if other.weight ≤ directive.weight then directive else other)
      | none => some directive) none

/-- Whether a filter shows lines of a level. -/
def shows (filter : LogFilter) (target : String) (fields : List String) (level : LogLevel) : Bool :=
  match filter.judge? target fields with
  | some directive => level.rank ≤ directive.level.rank
  | none => false

end LogFilter

/-! ## Text of a line -/

/-- A character of a log line. The control characters that a terminal obeys are spelt out. -/
def logChar (char : Char) : List Char :=
  let code := char.toNat
  let digits := Nat.toDigits 16 code
  if [0x07, 0x08, 0x0c, 0x1b, 0x7f].contains code then
    ['\\', 'x'] ++ List.replicate (2 - digits.length) '0' ++ digits
  else if 0x80 ≤ code ∧ code ≤ 0x9f then ['\\', 'u', '\x7b'] ++ digits ++ ['\x7d']
  else [char]

/-- The text of a log line. -/
def logText (text : String) : String := String.ofList (text.toList.flatMap logChar)

end LeaseCache.CommandLine
