import EntityMarkup.Pattern.Automaton.Tally
import EntityMarkup.Pattern.Encoding

/-!
# The automaton of a class

A class of ASCII characters is one state with a transition for each range. Any other is made of
the byte sequences of its characters.

Read forwards, sequences that begin alike run together as long as they do, and states with the same
transitions are one state: as the sequences are in ascending order, the states of a sequence are
final as soon as the next one leaves it (`insert`), and are looked up among those that are
remembered, the last of them first (`close`).

Read backwards, the sequences lie side by side, and run together in their first bytes.
-/

namespace EntityMarkup.Pattern.Automaton

open Encoding

/-! ## Forwards -/

/-- A transition. -/
structure Edge where
  range : ByteRange
  target : Nat
  deriving DecidableEq, Repr

/-- A state that may still get transitions: those it has, and the range of the one that leads to
the state after it on the path. -/
structure Node where
  edges : List Edge := []
  range : ByteRange

/-- The numbers that make up the key of a state. -/
def edgeNumbers (edges : List Edge) : List Nat :=
  edges.flatMap fun e => [e.range.first.toNat, e.range.last.toNat, e.target]

/-- The slots for states with the same transitions. -/
def edgeSlots : Nat := 10000

/-- Completes the states of a path that ends in a target, and answers with the number of the first.
-/
def close (target : Nat) : List Node → Slots (List Edge) → Tally (Nat × Slots (List Edge))
  | [], slots => return (target, slots)
  | node :: rest, slots => do
    let (next, slots) ← close target rest slots
    let edges := node.edges ++ [⟨node.range, next⟩]
    share edgeSlots edgeNumbers edges (transitionBytes * edges.length) slots

/-- The path of the next sequence, after that of the one before it. -/
def insert (target : Nat) : List Node → List ByteRange → Slots (List Edge) →
    Tally (List Node × Slots (List Edge))
  | node :: path, r :: rest, slots =>
    if node.range = r then do
      let (path, slots) ← insert target path rest slots
      return (node :: path, slots)
    else do
      let (next, slots) ← close target path slots
      let edges := node.edges ++ [⟨node.range, next⟩]
      return (⟨edges, r⟩ :: rest.map fun r => { range := r }, slots)
  | _, rest, slots => return (rest.map fun r => { range := r }, slots)

/-- Completes the states of sequences after the path of those before them. -/
def insertAll (target : Nat) : List (List ByteRange) → List Node → Slots (List Edge) → Tally Unit
  | [], path, slots => do
    let _ ← close target path slots
  | sequence :: rest, path, slots => do
    let (path, slots) ← insert target path sequence slots
    insertAll target rest path slots

/-- The automaton of byte sequences, read forwards. -/
def forwardClass (sequences : List (List ByteRange)) : Tally Unit := do
  let target ← add 0
  insertAll target sequences [] {}

/-! ## Backwards -/

/-- What a state that is read backwards is known by: the state it leads to, and its range. -/
structure Step where
  target : Nat
  range : ByteRange
  deriving DecidableEq, Repr

/-- The numbers that make up the key of a state. -/
def Step.numbers (s : Step) : List Nat :=
  [s.target, s.range.first.toNat, s.range.last.toNat]

/-- The slots for states with the same range and target. -/
def stepSlots : Nat := 1000

/-- The states of a sequence, of which the first leads to a target. -/
def chain : Nat → List ByteRange → Slots Step → Tally (Slots Step)
  | _, [], slots => return slots
  | target, r :: rest, slots => do
    let (state, slots) ← share stepSlots Step.numbers ⟨target, r⟩ 0 slots
    chain state rest slots

/-- The states of sequences, each of which is an alternative. -/
def chainAll (target : Nat) : List (List ByteRange) → Slots Step → Tally Unit
  | [], _ => return ()
  | sequence :: rest, slots => do
    let slots ← chain target sequence slots
    grow alternativeBytes
    chainAll target rest slots

/-- The automaton of byte sequences, read backwards. -/
def backwardClass (sequences : List (List ByteRange)) : Tally Unit := do
  let _ ← add 0
  let target ← add 0
  chainAll target sequences {}

/-! ## Both directions -/

/-- The direction in which a text is read. -/
inductive Direction where
  | forward
  | backward
  deriving DecidableEq, Repr

/-- The automaton of a class. -/
def ofClass (direction : Direction) (set : CharClass) : Tally Unit := do
  if set.isAscii then
    let _ ← add 0
    let _ ← add (transitionBytes * set.codeRanges.length)
  else
    match direction with
    | .forward => forwardClass (sequences set)
    | .backward => backwardClass (sequences set)

end EntityMarkup.Pattern.Automaton
