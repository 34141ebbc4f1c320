/-!
# Patterns of texts

A pattern is built from leaves, each of which stands for one character or for a
place in a text, by repetition, sequence and choice. Settings in parentheses
change how the leaves behind them are understood.
-/

set_option autoImplicit false

namespace LeaseCache

/-- A character as a pattern writes it: `asByte` tells that it is written as one byte, by two
hexadecimal digits. -/
structure Pattern.Glyph where
  char : Char
  asByte : Bool
  deriving DecidableEq, Repr

/-- The ways to combine two sets of characters. -/
inductive Pattern.Combination where
  | intersection
  | difference
  | symmetricDifference
  deriving DecidableEq, Repr

/-- A set of characters. A named set and a shorthand are described only by whether they are
negated. -/
inductive Pattern.CharSet where
  | empty
  | one (glyph : Pattern.Glyph)
  | range (first last : Pattern.Glyph)
  | named (negated : Bool)
  | shorthand (negated : Bool)
  | bracket (negated : Bool) (set : CharSet)
  | union (sets : List CharSet)
  | combined (combination : Pattern.Combination) (left right : CharSet)

/-- What stands for one character or for a place. -/
inductive Pattern.Leaf where
  | one (glyph : Pattern.Glyph)
  | any
  | oneOf (set : Pattern.CharSet)
  | shorthand (negated : Bool)
  | anchor
  | wordBoundary

/-- Settings that are switched on or off, or left as they are. -/
structure Pattern.Settings where
  caseless : Option Bool := none
  unicode : Option Bool := none
  spaced : Option Bool := none
  deriving DecidableEq, Repr

/-- A pattern. -/
inductive Pattern where
  | empty
  | single (leaf : Pattern.Leaf)
  | switch (settings : Pattern.Settings)
  | repeated (pattern : Pattern)
  | group (settings : Pattern.Settings) (pattern : Pattern)
  | sequence (patterns : List Pattern)
  | choice (patterns : List Pattern)

namespace Pattern

/-- The set of some members. -/
def CharSet.ofMembers : List CharSet → CharSet
  | [] => .empty
  | [set] => set
  | sets => .union sets

/-- One pattern behind the other. -/
def ofSequence : List Pattern → Pattern
  | [] => .empty
  | [pattern] => pattern
  | patterns => .sequence patterns

/-- One pattern or the other. -/
def ofChoice : List Pattern → Pattern
  | [] => .empty
  | [pattern] => pattern
  | patterns => .choice patterns

/-! ## Depth -/

mutual

/-- How deeply the parts of a set are nested. -/
def CharSet.depth : CharSet → Nat
  | .bracket _ set => set.depth + 1
  | .union sets => CharSet.depthOfAll sets + 1
  | .combined _ left right => max left.depth right.depth + 1
  | _ => 0

/-- How deeply the parts of some sets are nested. -/
def CharSet.depthOfAll : List CharSet → Nat
  | [] => 0
  | set :: rest => max set.depth (CharSet.depthOfAll rest)

end

mutual

/-- How deeply the parts of a pattern are nested. -/
def depth : Pattern → Nat
  | .empty => 0
  | .single (.oneOf set) => set.depth
  | .single _ => 0
  | .switch _ => 0
  | .repeated pattern => pattern.depth + 1
  | .group _ pattern => pattern.depth + 1
  | .sequence patterns => depthOfAll patterns + 1
  | .choice patterns => depthOfAll patterns + 1

/-- How deeply the parts of some patterns are nested. -/
def depthOfAll : List Pattern → Nat
  | [] => 0
  | pattern :: rest => max pattern.depth (depthOfAll rest)

end

end Pattern

end LeaseCache
