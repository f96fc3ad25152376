import EntityMarkup.Pattern.CharClass
import EntityMarkup.Text

/-!
# Patterns for the form of a token

A `Pattern` describes stretches of a text, and places in it. `ends` gives, for a set of positions
where a stretch may begin, the positions where it may end; a text matches if a stretch of it does.
Which of several matches there are is never asked, so groups capture nothing, and it makes no
difference to the ends whether a repetition prefers few rounds or many.

Positions count characters, and a text has one more of them than characters.

Left out are where a match begins and ends, what its groups hold, and how a text is searched.
-/

namespace EntityMarkup

/-- A condition on a place in a text. -/
inductive Pattern.Place where
  /-- The beginning of the text. -/
  | textStart
  /-- The end of the text. -/
  | textEnd
  /-- The beginning of a line. -/
  | lineStart
  /-- The end of a line. -/
  | lineEnd
  /-- A word character stands on one side only. -/
  | wordBoundary
  /-- Word characters stand on both sides or on none. -/
  | noWordBoundary
  /-- A word begins. -/
  | wordStart
  /-- A word ends. -/
  | wordEnd
  /-- No word character stands before. -/
  | wordStartHalf
  /-- No word character stands after. -/
  | wordEndHalf
  deriving DecidableEq, Repr

/-- A regular expression. -/
inductive Pattern where
  | empty
  /-- These characters, one after another. -/
  | literal (text : Text)
  /-- One character of a class. -/
  | char (set : Pattern.CharClass)
  | place (place : Pattern.Place)
  /-- A group that is counted: its number, and what it groups. -/
  | group (number : Nat) (body : Pattern)
  | seq (first second : Pattern)
  | alt (first second : Pattern)
  /-- At least `least` rounds, and at most `most` where it is given. -/
  | rounds (body : Pattern) (least : Nat) (most : Option Nat) (isLazy : Bool)
  deriving DecidableEq, Repr

namespace Pattern

/-! ## Places -/

/-- Whether a word character stands before a position. -/
def wordBefore (t : Array Char) (i : Nat) : Bool :=
  0 < i && (t[i - 1]?.map CharClass.wordChars.has).getD false

/-- Whether a word character stands after a position. -/
def wordAfter (t : Array Char) (i : Nat) : Bool :=
  (t[i]?.map CharClass.wordChars.has).getD false

/-- Whether a position satisfies a condition. -/
def Place.holds (t : Array Char) (i : Nat) : Place → Bool
  | .textStart => i == 0
  | .textEnd => i == t.size
  | .lineStart => i == 0 || t[i - 1]? == some '\n'
  | .lineEnd => i == t.size || t[i]? == some '\n'
  | .wordBoundary => wordBefore t i != wordAfter t i
  | .noWordBoundary => wordBefore t i == wordAfter t i
  | .wordStart => !wordBefore t i && wordAfter t i
  | .wordEnd => wordBefore t i && !wordAfter t i
  | .wordStartHalf => !wordBefore t i
  | .wordEndHalf => !wordAfter t i

/-- Whether characters stand at a position. -/
def isAt (t : Array Char) : Text → Nat → Bool
  | [], _ => true
  | c :: rest, i => t[i]? == some c && isAt t rest (i + 1)

/-! ## Sets of positions -/

/-- A set of positions. -/
abbrev Positions := List Nat

/-- The positions of either set, each once. -/
def Positions.union (a b : Positions) : Positions :=
  a ++ b.filter fun i => !a.contains i

/-- Whether two sets, neither of which names a position twice, have the same positions. -/
def Positions.isSame (a b : Positions) : Bool :=
  a.length == b.length && a.all b.contains

/-- What `n` rounds of a step lead to. A round that changes nothing is the last that needs to be
looked at. -/
def iterate (step : Positions → Positions) : Nat → Positions → Positions
  | 0, s => s
  | n + 1, s => if (step s).isSame s then s else iterate step n (step s)

/-- What at most `n` rounds of a step lead to; `recent` are the positions reached last. -/
def closure (step : Positions → Positions) : Nat → Positions → Positions → Positions
  | 0, reached, _ => reached
  | n + 1, reached, recent =>
    let fresh := (step recent).filter fun i => !reached.contains i
    if fresh.isEmpty then reached else closure step n (reached ++ fresh) fresh

/-! ## Matching -/

/-- Where stretches that begin at one of the given positions may end. -/
def ends (t : Array Char) : Pattern → Positions → Positions
  | .empty, s => s
  | .literal text, s => (s.filter (isAt t text)).map (· + text.length)
  | .char set, s => (s.filter fun i => (t[i]?.map set.has).getD false).map (· + 1)
  | .place p, s => s.filter fun i => p.holds t i
  | .group _ a, s => ends t a s
  | .seq a b, s => ends t b (ends t a s)
  | .alt a b, s => (ends t a s).union (ends t b s)
  | .rounds a least most _, s =>
    let reached := iterate (ends t a) least s
    let limit := (most.map (· - least)).getD (t.size + 1)
    closure (ends t a) limit reached reached

/-- Whether a stretch of a text matches. -/
def isMatch (p : Pattern) (t : Text) : Bool :=
  !(p.ends t.toArray (List.range (t.length + 1))).isEmpty

end Pattern

end EntityMarkup
