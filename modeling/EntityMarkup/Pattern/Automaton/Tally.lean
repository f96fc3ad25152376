import Std.Data.HashMap

/-!
# Counting the states of an automaton

An automaton is not built but counted: a `Tally` adds states one by one and fails as soon as they
take more memory than `limit`. A state is known by the number of states before it.

While the automaton of a class is counted, equal parts of it are shared as far as a table with a
fixed number of slots remembers them: a part has the slot that the FNV-1a hash of its key gives it,
and takes the place of what was there (`Slots`).
-/

namespace EntityMarkup.Pattern.Automaton

/-- What has been counted. -/
structure Size where
  states : Nat := 0
  bytes : Nat := 0
  deriving DecidableEq, Repr

/-- The most bytes that an automaton may take. -/
def limit : Nat := 10 * 1024 * 1024

/-- The bytes of a state by itself. -/
def stateBytes : Nat := 32

/-- The bytes of a transition on a range of bytes, where a state has a list of them. -/
def transitionBytes : Nat := 8

/-- The bytes of an alternative of a state that branches. -/
def alternativeBytes : Nat := 4

/-- A computation that counts. -/
abbrev Tally := StateT Size Option

/-- Takes more bytes for a state that there is already. -/
def grow (bytes : Nat) : Tally Unit := fun s =>
  if limit < s.bytes + bytes then none else some ((), { s with bytes := s.bytes + bytes })

/-- Adds a state with some bytes of its own, and answers with its number. -/
def add (bytes : Nat) : Tally Nat := fun s =>
  if limit < s.bytes + stateBytes + bytes then none
  else some (s.states, ⟨s.states + 1, s.bytes + stateBytes + bytes⟩)

/-! ## Ends of parts -/

/-- How a part of an automaton ends. -/
inductive Exit where
  /-- In a state that is completed without taking more bytes. -/
  | plain
  /-- In a state that branches, so that what follows is one more alternative. -/
  | branching
  deriving DecidableEq, Repr

/-- Goes on from the end of a part. -/
def Exit.join : Exit → Tally Unit
  | .plain => return ()
  | .branching => grow alternativeBytes

/-- Appends `n` copies of a part to one that ends in a given way. -/
def copies (part : Tally Exit) : Nat → Exit → Tally Exit
  | 0, exit, s => some (exit, s)
  | n + 1, exit, s =>
    match part s with
    | none => none
    | some (exit', s') =>
      match exit.join s' with
      | none => none
      | some ((), s'') => copies part n exit' s''

/-- Exactly `n` copies of a part. -/
def exactly (part : Tally Exit) : Nat → Tally Exit
  | 0 => do
    let _ ← add 0
    return .plain
  | n + 1 => do copies part n (← part)

/-- Appends `n` copies of a part, before each of which a branch leads past it. -/
def optionalCopies (part : Tally Exit) : Nat → Exit → Tally Exit
  | 0, exit, s => some (exit, s)
  | n + 1, exit, s =>
    match (add (2 * alternativeBytes) *> part <* exit.join) s with
    | none => none
    | some (exit', s') => optionalCopies part n exit' s'

/-! ## Shared parts -/

/-- The FNV-1a hash of some numbers. -/
def fnvHash (ns : List Nat) : UInt64 :=
  ns.foldl (fun h n => (h ^^^ n.toUInt64) * 1099511628211) 14695981039346656037

/-- The parts that are remembered, by slot, each with its key and its number. -/
abbrev Slots (κ : Type) := Std.HashMap Nat (κ × Nat)

/-- The number of the part with a key: that of the part that is remembered, or of a state that is
added with some bytes of its own. -/
def share {κ : Type} [DecidableEq κ] (capacity : Nat) (numbers : κ → List Nat) (key : κ)
    (bytes : Nat) (slots : Slots κ) : Tally (Nat × Slots κ) := do
  let slot := ((fnvHash (numbers key)).toNat) % capacity
  match slots[slot]? with
  | some (known, state) =>
    if known = key then return (state, slots)
    else
      let state ← add bytes
      return (state, slots.insert slot (key, state))
  | none =>
    let state ← add bytes
    return (state, slots.insert slot (key, state))

end EntityMarkup.Pattern.Automaton
