import EntityMarkup.Pattern

/-!
# The words of a pattern

Some patterns match a few words and nothing else, as `[ab]c|d` matches `ac`, `bc` and `d`. The
*lexicon* of such a pattern lists them in order of preference. `lexicon?` reads it off a pattern as
long as classes, counts, words and lists stay within bounds; a part that has no words at all leaves
none to what it is a part of, whatever its bounds are.

The words of a sequence and of a choice are put together from left to right, and words that meet
and are equal count once.
-/

namespace EntityMarkup.Pattern

/-- Words in order of preference. -/
abbrev Lexicon := List Text

namespace Lexicon

/-! ## Bounds -/

/-- The most characters of a class. -/
def maxChars : Nat := 10

/-- The most rounds of a repetition. -/
def maxRounds : Nat := 10

/-- The most bytes of a word. -/
def maxWordBytes : Nat := 100

/-- The most words. -/
def maxWords : Nat := 250

/-- Words, if none of them is too long. -/
def bounded? (words : Lexicon) : Option Lexicon :=
  if words.all fun w => w.size ≤ maxWordBytes then some words else none

/-! ## Classes -/

/-- The character with a code point. -/
def charOf? (n : Nat) : Option Char :=
  if h : n.isValidChar then some (Char.ofNatAux n h) else none

/-- The characters between changes of membership, if there are at most so many code points. -/
def chars? (most : Nat) : List Nat → Option (List Char)
  | [] => some []
  | [_] => none
  | first :: stop :: rest =>
    if stop - first ≤ most then
      (chars? (most - (stop - first)) rest).map
        ((List.range' first (stop - first)).filterMap charOf? ++ ·)
    else none

/-- The words of a class. -/
def ofClass? (set : CharClass) : Option Lexicon :=
  (chars? maxChars set.changes).map fun cs => cs.map ([·])

/-! ## Sequences and choices -/

/-- Words followed by words. -/
def append? : Option Lexicon → Option Lexicon → Option Lexicon
  | some [], _ => some []
  | some vs, some ws =>
    if vs.length * ws.length ≤ maxWords then
      bounded? (vs.flatMap fun v => ws.map (v ++ ·)).eraseReps
    else none
  | _, _ => none

/-- Words and other words. -/
def union? : Option Lexicon → Option Lexicon → Option Lexicon
  | some vs, some ws =>
    if vs.length + ws.length ≤ maxWords then some (vs ++ ws).eraseReps else none
  | _, _ => none

/-- Words in each of several rounds. -/
def power? (words : Option Lexicon) : Nat → Option Lexicon
  | 0 => some [[]]
  | n + 1 => append? (power? words n) words

/-- No words if there are none, but not those that there are: they stand for longer ones. -/
def onlyNone? (words : Option Lexicon) : Option Lexicon :=
  words.filter List.isEmpty

/-- The words of a repetition. -/
def rounds? (words : Option Lexicon) (least : Nat) (most : Option Nat) (isLazy : Bool) :
    Option Lexicon :=
  if least = 0 then
    let words := if most = some 1 then words else onlyNone? words
    if isLazy then union? (some [[]]) words else union? words (some [[]])
  else
    let words := power? words (min least maxRounds)
    if most = some least ∧ least ≤ maxRounds then words else onlyNone? words

end Lexicon

open Lexicon

/-! ## Patterns -/

mutual

/-- The words of a pattern, if there are no other matches. -/
def lexicon? : Pattern → Option Lexicon
  | .empty => some [[]]
  | .literal text => bounded? [text]
  | .char set => ofClass? set
  | .place _ => none
  | .group _ _ => none
  | .seq a b => lexiconAfter? (lexicon? a) b
  | .alt a b => lexiconBeside? (lexicon? a) b
  | .rounds p least most isLazy => rounds? (lexicon? p) least most isLazy

/-- The words of the rest of a sequence, after words. -/
def lexiconAfter? (words : Option Lexicon) : Pattern → Option Lexicon
  | .seq b rest => lexiconAfter? (append? words (lexicon? b)) rest
  | b => append? words (lexicon? b)

/-- The words of the other alternatives, beside words. -/
def lexiconBeside? (words : Option Lexicon) : Pattern → Option Lexicon
  | .alt b rest => lexiconBeside? (union? words (lexicon? b)) rest
  | b => union? words (lexicon? b)

end

/-- Whether a pattern asks for characters alone: it has no places and counts no groups. -/
def isPlain : Pattern → Bool
  | .place _ => false
  | .group _ _ => false
  | .seq a b => a.isPlain && b.isPlain
  | .alt a b => a.isPlain && b.isPlain
  | .rounds p _ _ _ => p.isPlain
  | _ => true

/-! ## What is listed -/

namespace Lexicon

end Lexicon

end EntityMarkup.Pattern
