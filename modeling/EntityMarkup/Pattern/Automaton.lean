import EntityMarkup.Pattern.Automaton.OfClass
import EntityMarkup.Pattern.Automaton.OfWords
import EntityMarkup.Pattern.Lexicon.Search

/-!
# The size of a pattern

A text is searched by automata that are made of a pattern's parts: one that finds where a match
ends, and one that goes back from there to where it begins. A pattern is accepted if both of them
stay below a limit of memory (`fits`), so a short pattern with high counts may be too large. One
that is searched for words has no automata and is accepted whatever its counts are.

The parts of a sequence are counted in the direction of reading; a repetition has a copy of its
body for each round that it counts. Groups are marked in the forward automaton alone.

Only the size of the automata counts here. They are not run: `Pattern.ends` says what matches.
-/

namespace EntityMarkup.Pattern

namespace Automaton

/-! ## Repetitions -/

/-- A part that may be left out. -/
def optional (part : Tally Exit) : Tally Exit := do
  let _ ← add 0
  let exit ← part
  let _ ← add 0
  grow (2 * alternativeBytes)
  exit.join
  return .plain

/-- A part any number of times. Where each round takes characters, a state that branches to it is
all that is needed. -/
def anyNumber (takesBytes : Bool) (part : Tally Exit) : Tally Exit := do
  if takesBytes then
    let _ ← add 0
    let exit ← part
    grow alternativeBytes
    exit.join
    return .branching
  else
    let exit ← part
    let _ ← add 0
    exit.join
    let _ ← add 0
    let _ ← add 0
    grow (4 * alternativeBytes)
    return .plain

/-- A part once or more often, after what ends in a given way. -/
def onceOrMore (part : Tally Exit) (before : Exit) : Tally Exit := do
  let exit ← part
  let _ ← add 0
  before.join
  exit.join
  grow alternativeBytes
  return .branching

/-- A repetition. -/
def rounds (takesBytes : Bool) (part : Tally Exit) : Nat → Option Nat → Tally Exit
  | 0, some 1 => optional part
  | 0, none => anyNumber takesBytes part
  | 1, none => onceOrMore part .plain
  | n + 2, none => do onceOrMore part (← exactly part (n + 1))
  | least, some most => do
    let exit ← exactly part least
    if most ≤ least then return exit
    let _ ← add 0
    let exit ← optionalCopies part (most - least) exit
    exit.join
    return .plain

/-! ## Patterns -/

/-- The words that are the alternatives of a pattern, if all of them are literals. -/
def words? : Pattern → Option (List Text)
  | .literal text => some [text]
  | .alt (.literal text) rest => (words? rest).map (text :: ·)
  | _ => none

/-- The bytes of a word in the order in which they are read. -/
def wordBytes (direction : Direction) (text : Text) : Word :=
  match direction with
  | .forward => text.utf8
  | .backward => text.utf8.reverse

/-- The end of an alternative, which is joined to that of the choice. -/
def branchEnd (exit : Exit) : Tally Unit := do
  grow alternativeBytes
  exit.join

mutual

/-- The automaton of a pattern. -/
def ofPattern (direction : Direction) : Pattern → Tally Exit
  | .empty => do
    let _ ← add 0
    return .plain
  | .literal text => exactly (do let _ ← add 0; return .plain) text.size
  | .char set => do
    ofClass direction set
    return .plain
  | .place _ => do
    let _ ← add 0
    return .plain
  | .group _ p =>
    match direction with
    | .forward => do
      let _ ← add 0
      let exit ← ofPattern direction p
      let _ ← add 0
      exit.join
      return .plain
    | .backward => ofPattern direction p
  | .seq a b =>
    match direction with
    | .forward => do
      let first ← ofPattern direction a
      let second ← ofPattern direction b
      first.join
      return second
    | .backward => do
      let second ← ofPattern direction b
      let first ← ofPattern direction a
      second.join
      return first
  | .alt a b =>
    match words? (.alt a b) with
    | some words => do
      ofWords (words.map (wordBytes direction))
      return .plain
    | none => do
      let first ← ofPattern direction a
      ofSecond direction first b
      return .plain
  | .rounds p least most _ =>
    rounds (p.minBytes?.any (0 < ·)) (ofPattern direction p) least most

/-- The second alternative and those after it: the state that branches and the one in which all of
them end come after the first two. -/
def ofSecond (direction : Direction) (first : Exit) : Pattern → Tally Unit
  | .alt b rest => do
    let second ← ofPattern direction b
    let _ ← add 0
    let _ ← add 0
    branchEnd first
    branchEnd second
    ofRest direction rest
  | b => do
    let second ← ofPattern direction b
    let _ ← add 0
    let _ ← add 0
    branchEnd first
    branchEnd second

/-- The alternatives after the second. -/
def ofRest (direction : Direction) : Pattern → Tally Unit
  | .alt c rest => do
    branchEnd (← ofPattern direction c)
    ofRest direction rest
  | c => do branchEnd (← ofPattern direction c)

end

/-! ## Both automata -/

/-- What comes before a search: where a match may begin anywhere, all that precedes it is passed
over. -/
def lead (isAnchored : Bool) : Tally Exit := do
  let _ ← add 0
  if isAnchored then return .plain
  let _ ← add 0
  let _ ← add (transitionBytes + alternativeBytes)
  return .branching

/-- The automaton that finds where a match ends. -/
def forward (p : Pattern) : Tally Unit := do
  let before ← lead p.beginsText
  let _ ← ofPattern .forward (.group 0 p)
  let _ ← add 0
  before.join

/-- The automaton that finds where a match begins. -/
def backward (p : Pattern) : Tally Unit := do
  let before ← lead p.endsText
  let exit ← ofPattern .backward p
  let _ ← add 0
  exit.join
  before.join

/-- Whether both automata stay below the limit. -/
def areSmall (p : Pattern) : Bool :=
  ((forward p).run {}).isSome && ((backward p).run {}).isSome

/-- How many words a choice needs to be searched for them as it is. -/
def manyWords : Nat := 3000

/-- Whether a pattern is a choice of many words. -/
def isChoiceOfManyWords (p : Pattern) : Bool :=
  (words? p).any (manyWords ≤ ·.length)

end Automaton

/-- Whether a pattern can be searched for within the limit. -/
def fits (p : Pattern) : Bool :=
  p.isSearchedByWords || Automaton.isChoiceOfManyWords p || Automaton.areSmall p

end EntityMarkup.Pattern
