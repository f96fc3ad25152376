import EntityMarkup.Pattern.Automaton.Tally

/-!
# The automaton of several words

Alternatives that are words of bytes make a tree. Words that begin alike share a path, as long as
no word ends between them in their order: where one does, a node has its own children for the words
before it and for those after it (`segments`), since an earlier word is preferred to a later one.

A node counts as a state for each of these groups of children and one that branches to them, and to
the end where a word ends.
-/

namespace EntityMarkup.Pattern.Automaton

/-- A word of bytes. -/
abbrev Word := List UInt8

/-- The words before, between and after those that are empty. -/
def splitAtEmpty : List Word → List (List Word)
  | [] => [[]]
  | [] :: rest => [] :: splitAtEmpty rest
  | (b :: w) :: rest =>
    match splitAtEmpty rest with
    | first :: more => ((b :: w) :: first) :: more
    | [] => [[b :: w]]

/-- The groups of words that share children; empty words that come first count once. -/
def segments (words : List Word) : List (List Word) :=
  if words.head? = some [] then splitAtEmpty ([] :: words.dropWhile List.isEmpty)
  else splitAtEmpty words

/-- The words of each first byte, without it, in the order in which the bytes come first. -/
def children : List Word → List (UInt8 × List Word)
  | [] => []
  | [] :: rest => children rest
  | (b :: w) :: rest =>
    let below := children rest
    match below.find? (·.1 = b) with
    | some (_, ws) => (b, w :: ws) :: below.filter (·.1 ≠ b)
    | none => (b, [w]) :: below

/-- The state of a group of children: a transition by itself, or a list of them. -/
def groupState (count : Nat) : Tally Unit := do
  if 0 < count then
    let _ ← add (if count = 1 then 0 else transitionBytes * count)

/-- The states of a node and of all below it, in a tree of a depth: a node after which no word goes
on is the end. -/
def node : Nat → List Word → Tally Unit
  | 0, _ => return ()
  | depth + 1, words => do
    if !words.all List.isEmpty then
      let groups := (segments words).map children
      for group in groups do
        for child in group do
          node depth child.2
        groupState group.length
      let alternatives := (groups.filter (!·.isEmpty)).length + (groups.length - 1)
      let _ ← add (alternativeBytes * alternatives)

/-- The automaton of several words. -/
def ofWords (words : List Word) : Tally Unit := do
  let _ ← add 0
  node ((words.map List.length).foldl max 0) words

end EntityMarkup.Pattern.Automaton
