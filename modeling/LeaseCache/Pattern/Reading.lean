import LeaseCache.Pattern.Basic
import LeaseCache.Text.Class

/-!
# Reading patterns

A pattern is read from left to right. In a spaced pattern, blanks and comments
between its parts are left out; a comment goes from a number sign to the end of
the line. Counted repetition and references back are not part of patterns.
-/

set_option autoImplicit false

namespace LeaseCache.Pattern

open Text (isBlank isLetter isAlphanumeric)

/-- A text without the blanks and comments at its front. -/
def dropSpace (comment : Bool) : List Char → List Char
  | [] => []
  | char :: rest =>
      if comment then dropSpace (char ≠ '\n') rest
      else if isBlank char then dropSpace false rest
      else if char = '#' then dropSpace true rest
      else char :: rest

/-- The next part of a text, behind blanks and comments if the pattern is spaced. -/
def next (spaced : Bool) (text : List Char) : List Char :=
  if spaced then dropSpace false text else text

/-! ## Escapes -/

/-- The value of a hexadecimal digit. -/
def hexDigit? (char : Char) : Option Nat :=
  if char.isDigit then some (char.toNat - '0'.toNat)
  else if 'a' ≤ char ∧ char ≤ 'f' then some (char.toNat - 'a'.toNat + 10)
  else if 'A' ≤ char ∧ char ≤ 'F' then some (char.toNat - 'A'.toNat + 10)
  else none

/-- Reads a number of hexadecimal digits. -/
def readHex (spaced : Bool) : (count : Nat) → (value : Nat) → List Char → Option (Nat × List Char)
  | 0, value, text => some (value, text)
  | count + 1, value, text =>
      match next spaced text with
      | [] => none
      | char :: rest => do readHex spaced count (value * 16 + (← hexDigit? char)) rest

/-- How many hexadecimal digits follow an escaped letter. -/
def hexCount? (char : Char) : Option Nat := [('x', 2), ('u', 4), ('U', 8)].lookup char

/-- The code points of the control characters that have a letter. -/
def controlLetters : List (Char × Char) :=
  [('a', '\x07'), ('f', '\x0c'), ('t', '\t'), ('n', '\n'), ('r', '\r'), ('v', '\x0b')]

/-- What an escaped character stands for. Signs of ASCII stand for themselves. -/
def escaped? (char : Char) : Option Leaf :=
  if ['d', 's', 'w'].contains char then some (.shorthand false)
  else if ['D', 'S', 'W'].contains char then some (.shorthand true)
  else if ['A', 'z'].contains char then some .anchor
  else if ['b', 'B', '<', '>'].contains char then some .wordBoundary
  else match controlLetters.lookup char with
    | some control => some (.one ⟨control, false⟩)
    | none => if char.isAlphanum || 0x80 ≤ char.toNat then none else some (.one ⟨char, false⟩)

/-- Reads what follows a backslash. -/
def readEscape (spaced : Bool) : List Char → Option (Leaf × List Char)
  | [] => none
  | char :: rest =>
      match hexCount? char with
      | some count => do
          let (code, rest) ← readHex spaced count 0 rest
          if code.isValidChar then some (.one ⟨Char.ofNat code, count = 2⟩, rest) else none
      | none => (escaped? char).map fun leaf => (leaf, rest)

/-! ## Sets -/

/-- The names of sets. -/
def setNames : List String :=
  ["alnum", "alpha", "ascii", "blank", "cntrl", "digit", "graph", "lower", "print", "punct",
    "space", "upper", "word", "xdigit"]

/-- Reads a negation, if there is one. -/
def readNegation : List Char → Bool × List Char
  | [] => (false, [])
  | char :: rest => if char = '^' then (true, rest) else (false, char :: rest)

/-- Reads the name of a set with a colon at either side, behind its bracket. -/
def readNamed? : List Char → Option (CharSet × List Char)
  | ':' :: rest =>
      let (negated, rest) := readNegation rest
      match rest.span (· ≠ ':') with
      | (name, ':' :: ']' :: rest) =>
          if setNames.contains (String.ofList name) then some (.named negated, rest) else none
      | _ => none
  | _ => none

/-- Reads a sign for a combination, which is a character written twice. -/
def readCombination? : List Char → Option (Combination × List Char)
  | first :: second :: rest =>
      if first ≠ second then none
      else if first = '&' then some (.intersection, rest)
      else if first = '-' then some (.difference, rest)
      else if first = '~' then some (.symmetricDifference, rest)
      else none
  | _ => none

/-- Reads a character or an escape in a set. -/
def readLeaf (spaced : Bool) : List Char → Option (Leaf × List Char)
  | [] => none
  | char :: rest => if char = '\\' then readEscape spaced rest else some (.one ⟨char, false⟩, rest)

/-- The character behind a hyphen by which it is seen whether the hyphen makes a range. Of a
comment the first character that is no blank is seen. -/
def glance (spaced : Bool) (text : List Char) : Option Char :=
  if spaced then
    match text.dropWhile isBlank with
    | '#' :: rest => (rest.dropWhile isBlank).head?
    | rest => rest.head?
  else text.head?

/-- The set of a leaf that may stand in a set. -/
def memberOf? : Leaf → Option CharSet
  | .one glyph => some (.one glyph)
  | .shorthand negated => some (.shorthand negated)
  | _ => none

/-- The range from one leaf to another. -/
def rangeOf? : Leaf → Leaf → Option CharSet
  | .one first, .one last => if first.char ≤ last.char then some (.range first last) else none
  | _, _ => none

/-- Reads a character, an escape or a range in a set. -/
def readMember (spaced : Bool) (text : List Char) : Option (CharSet × List Char) := do
  let (first, rest) ← readLeaf spaced text
  match next spaced rest with
  | '-' :: behind =>
      if [some ']', some '-'].contains (glance spaced behind) then
        return (← memberOf? first, rest)
      let (last, rest) ← readLeaf spaced (next spaced behind)
      return (← rangeOf? first last, rest)
  | _ => return (← memberOf? first, rest)

/-- The set of what was read last, in reverse order, and what it is combined with. -/
def gather (members : List CharSet) : Option (Combination × CharSet) → CharSet
  | none => .ofMembers members.reverse
  | some (combination, left) => .combined combination left (.ofMembers members.reverse)

/-- Reads a set up to its closing bracket. Hyphens that stand first are characters, and so is a
closing bracket that stands first. -/
def readMembers (spaced : Bool) : (fuel : Nat) → (first : Bool) → (members : List CharSet) →
    Option (Combination × CharSet) → List Char → Option (CharSet × List Char)
  | 0, _, _, _, _ => none
  | fuel + 1, first, members, left, text =>
      match next spaced text with
      | [] => none
      | char :: rest =>
          if first && (char = '-' || (char = ']' && members.isEmpty)) then
            readMembers spaced fuel (char = '-') (.one ⟨char, false⟩ :: members) left rest
          else if char = ']' then some (gather members left, rest)
          else if char = '[' then
            match readNamed? rest with
            | some (set, rest) => readMembers spaced fuel false (set :: members) left rest
            | none => do
                let (negated, rest) := readNegation (next spaced rest)
                let (set, rest) ← readMembers spaced fuel true [] none rest
                readMembers spaced fuel false (.bracket negated set :: members) left rest
          else match readCombination? (char :: rest) with
            | some (combination, rest) =>
                readMembers spaced fuel false [] (some (combination, gather members left)) rest
            | none => do
                let (set, rest) ← readMember spaced (char :: rest)
                readMembers spaced fuel false (set :: members) left rest

/-- Reads a set behind its opening bracket. -/
def readSet (spaced : Bool) (text : List Char) : Option (CharSet × List Char) := do
  let (negated, rest) := readNegation (next spaced text)
  let (set, rest) ← readMembers spaced (rest.length + 1) true [] none rest
  return (.bracket negated set, rest)

/-! ## Groups -/

/-- What is left of a pattern, whether it is spaced, and the names of its groups so far. -/
structure Cursor where
  rest : List Char
  spaced : Bool
  names : List String
  deriving DecidableEq, Repr

/-- The letters of settings, and the sign between those that are switched on and off. -/
def settingLetters : List Char := ['i', 'm', 's', 'U', 'u', 'R', 'x', '-']

/-- The settings that letters write. -/
def settingsOf (letters : List Char) : Settings :=
  let setting (letter : Char) : Option Bool :=
    if letters.contains letter then some ((letters.takeWhile (· ≠ '-')).contains letter) else none
  ⟨setting 'i', setting 'u', setting 'x'⟩

/-- What an opening parenthesis begins: a group, or settings for the rest of the group around. -/
inductive Opening where
  | group (settings : Settings)
  | switch (settings : Settings)
  deriving DecidableEq, Repr

/-- Reads letters of settings behind a question mark. No letter stands twice. -/
def readSettings (cursor : Cursor) (text : List Char) : Option (Opening × Cursor) :=
  match text.span fun char => char ≠ ':' && char ≠ ')' with
  | (_, []) => none
  | (letters, stop :: rest) =>
      if !letters.all settingLetters.contains || !letters.Nodup || letters.getLast? = some '-' then
        none
      else if stop = ':' then some (.group (settingsOf letters), { cursor with rest })
      else if letters.isEmpty then none
      else some (.switch (settingsOf letters), { cursor with rest })

/-- Reads the name of a group up to its closing bracket. No other group has this name. -/
def readName (cursor : Cursor) (text : List Char) : Option (Opening × Cursor) :=
  match text.span (· ≠ '>') with
  | (first :: more, _ :: rest) =>
      let name := String.ofList (first :: more)
      if (first = '_' || isLetter first)
          && more.all (fun char => isAlphanumeric char || ['_', '.', '[', ']'].contains char)
          && !cursor.names.contains name then
        some (.group {}, { cursor with rest, names := name :: cursor.names })
      else none
  | _ => none

/-- Reads what follows an opening parenthesis. -/
def readOpening (cursor : Cursor) : Option (Opening × Cursor) :=
  match next cursor.spaced cursor.rest with
  | '?' :: 'P' :: '<' :: rest => readName cursor rest
  | '?' :: '<' :: rest => readName cursor rest
  | '?' :: rest => readSettings cursor rest
  | rest => some (.group {}, { cursor with rest })

/-! ## Patterns -/

/-- Repeats the pattern that was read last. -/
def repeatLast : List Pattern → Option (List Pattern)
  | [] => none
  | .switch _ :: _ => none
  | pattern :: patterns => some (.repeated pattern :: patterns)

/-- A text without the question mark that makes a repetition stop early. -/
def dropQuestion : List Char → List Char
  | [] => []
  | char :: rest => if char = '?' then rest else char :: rest

/-- Reads a leaf outside of sets. -/
def readPlain (spaced : Bool) : List Char → Option (Leaf × List Char)
  | [] => none
  | char :: rest =>
      if char = '.' then some (.any, rest)
      else if char = '^' || char = '$' then some (.anchor, rest)
      else if char = '[' then (readSet spaced rest).map fun (set, rest) => (.oneOf set, rest)
      else if char = '\x7b' then none
      else readLeaf spaced (char :: rest)

/-- Reads choices up to a closing parenthesis or the end. What was read before is kept in reverse
order: the choices that are complete, and the parts of the present one. -/
def readChoices : (fuel : Nat) → (choices parts : List Pattern) → Cursor → Option (Pattern × Cursor)
  | 0, _, _, _ => none
  | fuel + 1, choices, parts, cursor =>
      let text := next cursor.spaced cursor.rest
      let done := some (ofChoice (ofSequence parts.reverse :: choices).reverse,
        { cursor with rest := text })
      match text with
      | [] => done
      | char :: rest =>
          if char = ')' then done
          else if char = '|' then
            readChoices fuel (ofSequence parts.reverse :: choices) [] { cursor with rest }
          else if char = '(' then do
            match ← readOpening { cursor with rest } with
            | (.switch settings, inner) =>
                readChoices fuel choices (.switch settings :: parts)
                  { inner with spaced := settings.spaced.getD cursor.spaced }
            | (.group settings, inner) =>
                let (pattern, inner) ← readChoices fuel [] []
                  { inner with spaced := settings.spaced.getD cursor.spaced }
                match inner.rest with
                | [] => none
                | _ :: rest =>
                    readChoices fuel choices (.group settings pattern :: parts)
                      { inner with rest, spaced := cursor.spaced }
          else if ['?', '*', '+'].contains char then do
            readChoices fuel choices (← repeatLast parts) { cursor with rest := dropQuestion rest }
          else do
            let (leaf, rest) ← readPlain cursor.spaced text
            readChoices fuel choices (.single leaf :: parts) { cursor with rest }

/-- The pattern that a text writes. -/
def read (text : List Char) : Option Pattern := do
  let (pattern, cursor) ← readChoices (text.length + 1) [] [] ⟨text, false, []⟩
  if cursor.rest.isEmpty then some pattern else none

end LeaseCache.Pattern
