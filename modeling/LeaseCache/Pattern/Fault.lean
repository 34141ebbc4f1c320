import LeaseCache.Pattern.Reading

/-!
# Patterns that can be matched

Patterns are matched on valid UTF-8 and without a table of the classes of
Unicode. So a leaf that needs such a table cannot be matched: a shorthand, and
anything without regard to case, where characters are those of Unicode. Where
they are bytes, a leaf that could match a part of a longer character cannot be
matched. Boundaries of words are told apart for ASCII alone.
-/

set_option autoImplicit false

namespace LeaseCache.Pattern

/-- How the leaves at a place of a pattern are understood. -/
structure Mode where
  caseless : Bool := false
  unicode : Bool := true
  deriving DecidableEq, Repr

/-- A mode with settings applied. -/
def Mode.apply (mode : Mode) (settings : Settings) : Mode :=
  ⟨settings.caseless.getD mode.caseless, settings.unicode.getD mode.unicode⟩

mutual

/-- The leaves of a pattern, each with its mode, and the mode behind the pattern. Settings hold
up to the end of the group around them. -/
def leaves (mode : Mode) : Pattern → List (Mode × Leaf) × Mode
  | .empty => ([], mode)
  | .single leaf => ([(mode, leaf)], mode)
  | .switch settings => ([], mode.apply settings)
  | .repeated pattern => pattern.leaves mode
  | .group settings pattern => ((pattern.leaves (mode.apply settings)).1, mode)
  | .sequence patterns => leavesOfAll mode patterns
  | .choice patterns => leavesOfAll mode patterns

/-- The leaves of some patterns, one behind the other. -/
def leavesOfAll (mode : Mode) : List Pattern → List (Mode × Leaf) × Mode
  | [] => ([], mode)
  | pattern :: rest =>
      let (front, between) := pattern.leaves mode
      let (back, behind) := leavesOfAll between rest
      (front ++ back, behind)

end

/-! ## Sets -/

mutual

/-- Whether a test holds for a set and for all parts of it. -/
def CharSet.every (test : CharSet → Bool) : CharSet → Bool
  | .bracket negated set => test (.bracket negated set) && set.every test
  | .union sets => test (.union sets) && CharSet.everyOfAll test sets
  | .combined combination left right =>
      test (.combined combination left right) && left.every test && right.every test
  | set => test set

/-- Whether a test holds for some sets and for all parts of them. -/
def CharSet.everyOfAll (test : CharSet → Bool) : List CharSet → Bool
  | [] => true
  | set :: rest => set.every test && CharSet.everyOfAll test rest

end

/-- Whether a set is no shorthand. -/
def CharSet.isSpelt : CharSet → Bool
  | .shorthand _ => false
  | _ => true

/-- Whether a character is one of ASCII. -/
def Glyph.isAscii (glyph : Glyph) : Bool := glyph.char.toNat < 0x80

/-- Whether a set holds bytes of ASCII alone, if its parts do. -/
def CharSet.isNarrow : CharSet → Bool
  | .one glyph => glyph.isAscii
  | .range first last => first.isAscii && last.isAscii
  | .named negated => !negated
  | .shorthand negated => !negated
  | .bracket negated _ => !negated
  | _ => true

/-- How much a set holds. -/
inductive Extent where
  | nothing
  | everything
  | part
  deriving DecidableEq, Repr

namespace Extent

/-- The extent of what a set does not hold. -/
def complement : Extent → Extent
  | .nothing => .everything
  | .everything => .nothing
  | .part => .part

/-- The extent of two sets together. -/
def union : Extent → Extent → Extent
  | .nothing, extent => extent
  | extent, .nothing => extent
  | .everything, .everything => .everything
  | _, _ => .part

/-- The extent without regard to case, which is known only for nothing and everything. -/
def folded? : Extent → Option Extent
  | .part => none
  | extent => some extent

/-- The extent of a combination of sets that hold nothing or everything. -/
def combine (combination : Combination) (left right : Extent) : Extent :=
  let full : Bool := match combination with
    | .intersection => left = .everything && right = .everything
    | .difference => left = .everything && right = .nothing
    | .symmetricDifference => left ≠ right
  if full then .everything else .nothing

end Extent

mutual

/-- The extent of a set without regard to case, if it can be known without tables. -/
def CharSet.extent? : CharSet → Option Extent
  | .empty => some .nothing
  | .one _ => some .part
  | .range _ _ => some .part
  | .named _ => none
  | .shorthand _ => none
  | .bracket negated set => do
      let extent ← (← set.extent?).folded?
      return if negated then extent.complement else extent
  | .union sets => CharSet.extentOfAll? sets
  | .combined combination left right => do
      let left ← (← left.extent?).folded?
      let right ← (← right.extent?).folded?
      return .combine combination left right

/-- The extent of some sets together. -/
def CharSet.extentOfAll? : List CharSet → Option Extent
  | [] => some .nothing
  | set :: rest => do return (← set.extent?).union (← CharSet.extentOfAll? rest)

end

/-- Whether a set can be matched. -/
def CharSet.isMatchable (mode : Mode) (set : CharSet) : Bool :=
  if !mode.unicode then set.every CharSet.isNarrow
  else if mode.caseless then set.extent?.isSome
  else set.every CharSet.isSpelt

/-! ## Faults -/

/-- Why a pattern cannot be matched. -/
inductive Fault where
  | malformed
  | wordBoundary
  deriving DecidableEq, Repr

/-- Whether a leaf can be matched, boundaries of words apart. -/
def Leaf.isMatchable (mode : Mode) : Leaf → Bool
  | .one glyph => if mode.unicode then !mode.caseless else !glyph.asByte || glyph.isAscii
  | .any => mode.unicode
  | .oneOf set => set.isMatchable mode
  | .shorthand negated => !mode.unicode && !negated
  | .anchor => true
  | .wordBoundary => true

/-- Whether a leaf is a boundary of words beyond ASCII. -/
def Leaf.isWideBoundary (mode : Mode) : Leaf → Bool
  | .wordBoundary => mode.unicode
  | _ => false

/-- How deeply the parts of a pattern may be nested. -/
def maxDepth : Nat := 250

/-- What is wrong with a text as a pattern. -/
def fault? (text : List Char) : Option Fault :=
  match read text with
  | none => some .malformed
  | some pattern =>
      let found := (pattern.leaves {}).1
      if maxDepth < pattern.depth || !found.all (fun (mode, leaf) => leaf.isMatchable mode) then
        some .malformed
      else if found.any fun (mode, leaf) => leaf.isWideBoundary mode then some .wordBoundary
      else none

end LeaseCache.Pattern
