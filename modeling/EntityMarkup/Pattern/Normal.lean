import EntityMarkup.Pattern

/-!
# Normal forms of patterns

Patterns are put together in a normal form, from which their size is reckoned:

* `sequence` leaves nothing empty in a sequence and joins literals that meet;
* `choice` makes one class of alternatives that are one character each, or one class each, and puts
  a common beginning of all alternatives before the choice;
* `repeated` repeats what matches no characters at most once, and is nothing or the body itself
  where the counts say so.

Sequences and choices of more than two parts lean to the right (`parts`, `branches`).
-/

namespace EntityMarkup.Pattern

/-! ## What a match takes -/

/-- The fewest bytes that a match takes, if there can be one. -/
def minBytes? : Pattern → Option Nat
  | .empty => some 0
  | .literal text => some (Text.size text)
  | .char set => set.codeRanges.head?.map fun r => (Char.ofNat r.1).utf8Size
  | .place _ => some 0
  | .group _ p => p.minBytes?
  | .seq a b => do return (← a.minBytes?) + (← b.minBytes?)
  | .alt a b => do return min (← a.minBytes?) (← b.minBytes?)
  | .rounds p least _ _ => do return (← p.minBytes?) * least

/-- Whether a pattern is so made that every match takes no characters. -/
def isZeroWidth : Pattern → Bool
  | .empty => true
  | .literal text => text.isEmpty
  | .char _ => false
  | .place _ => true
  | .group _ p => p.isZeroWidth
  | .seq a b => a.isZeroWidth && b.isZeroWidth
  | .alt a b => a.isZeroWidth && b.isZeroWidth
  | .rounds p _ most _ => p.isZeroWidth && most.isSome

/-- Whether every match begins at the beginning of the text because of what stands first. -/
def beginsText : Pattern → Bool
  | .place p => p == .textStart
  | .group _ p => p.beginsText
  | .seq a b => a.beginsText || (a.isZeroWidth && b.beginsText)
  | .alt a b => a.beginsText && b.beginsText
  | .rounds p least _ _ => 0 < least && p.beginsText
  | _ => false

/-- Whether every match ends at the end of the text because of what stands last. -/
def endsText : Pattern → Bool
  | .place p => p == .textEnd
  | .group _ p => p.endsText
  | .seq a b => b.endsText || (b.isZeroWidth && a.endsText)
  | .alt a b => a.endsText && b.endsText
  | .rounds p least _ _ => 0 < least && p.endsText
  | _ => false

/-! ## Classes -/

/-- One character of a class, or a literal if there is no choice. -/
def ofClass (set : CharClass) : Pattern :=
  match set.onlyChar? with
  | some c => .literal [c]
  | none => .char set

/-! ## Sequences -/

/-- What follows one another in a pattern. -/
def parts : Pattern → List Pattern
  | .empty => []
  | .seq a b => a :: b.parts
  | p => [p]

/-- Joins literals that meet. -/
def joinLiterals : List Pattern → List Pattern
  | [] => []
  | .literal s :: rest =>
    match joinLiterals rest with
    | .literal t :: rest' => .literal (s ++ t) :: rest'
    | rest' => .literal s :: rest'
  | p :: rest => p :: joinLiterals rest

/-- Parts that follow one another. -/
def ofParts : List Pattern → Pattern
  | [] => .empty
  | [p] => p
  | p :: rest => .seq p (ofParts rest)

/-- Patterns that follow one another. -/
def sequence (ps : List Pattern) : Pattern :=
  ofParts (joinLiterals (ps.flatMap parts))

/-! ## Choices -/

/-- The alternatives of a pattern. -/
def branches : Pattern → List Pattern
  | .alt a b => a :: b.branches
  | p => [p]

/-- Alternatives. -/
def ofBranches : List Pattern → Pattern
  | [] => .char .none
  | [p] => p
  | p :: rest => .alt p (ofBranches rest)

/-- The character that is all a pattern matches. -/
def char? : Pattern → Option Char
  | .literal [c] => some c
  | _ => none

/-- The class of which a pattern matches one character. -/
def class? : Pattern → Option CharClass
  | .char set => some set
  | _ => none

/-- A class instead of alternatives that are one character each, or one class each. -/
def classOfBranches? (ps : List Pattern) : Option CharClass :=
  match ps.mapM char? with
  | some cs => some (.ofList cs)
  | none => (ps.mapM class?).map .unions

/-- Alternatives, as a class if they are one. -/
def plainChoice (ps : List Pattern) : Pattern :=
  match ps.flatMap branches with
  | [p] => p
  | ps =>
    match classOfBranches? ps with
    | some set => ofClass set
    | none => ofBranches ps

/-- What two lists begin with. -/
def commonPrefix {α : Type} [DecidableEq α] : List α → List α → List α
  | x :: xs, y :: ys => if x = y then x :: commonPrefix xs ys else []
  | _, _ => []

/-- What several alternatives begin with, if each of them has more than one part. Groups with
different numbers are different. -/
def sharedParts : List Pattern → List Pattern
  | p :: q :: ps =>
    if (p :: q :: ps).all (1 < ·.parts.length) then
      (q :: ps).foldl (fun shared r => commonPrefix shared r.parts) p.parts
    else []
  | _ => []

/-- Alternatives after what all of them begin with. What is left of them has no common beginning
any more. -/
def choiceAfter (shared : List Pattern) (ps : List Pattern) : Pattern :=
  sequence (shared ++ [plainChoice (ps.map fun p => sequence (p.parts.drop shared.length))])

/-- A choice. -/
def choice (ps : List Pattern) : Pattern :=
  match sharedParts (ps.flatMap branches) with
  | [] => plainChoice ps
  | shared => choiceAfter shared (ps.flatMap branches)

/-! ## Repetitions -/

/-- A repetition. -/
def repeated (p : Pattern) (least : Nat) (most : Option Nat) (isLazy : Bool) : Pattern :=
  let least := if p.isZeroWidth then min least 1 else least
  let most := if p.isZeroWidth then some (min (most.getD 1) 1) else most
  if least = 0 ∧ most = some 0 then .empty
  else if least = 1 ∧ most = some 1 then p
  else .rounds p least most isLazy

end EntityMarkup.Pattern
