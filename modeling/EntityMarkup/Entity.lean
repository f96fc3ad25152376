/-!
# Named entities

An entity is a span of tokens of one sentence, with a label for its type: it covers `length` tokens
from index `start` on, so `last` is the index of its last token and `stop` the one after it.

Two entities *cross* when they share a token and neither contains the other.
-/

namespace EntityMarkup

/-- A labelled span of tokens. -/
structure Entity where
  start : Nat
  length : Nat
  label : String
  deriving DecidableEq, Repr, Inhabited

namespace Entity

/-- The index after the last token covered. -/
def stop (e : Entity) : Nat :=
  e.start + e.length

/-- The index of the last token covered. -/
def last (e : Entity) : Nat :=
  e.start + e.length - 1

/-- Whether two spans have a token in common. -/
def overlaps (a b : Entity) : Bool :=
  a.start < b.stop && b.start < a.stop

/-- Whether one span contains another. -/
def contains (a b : Entity) : Bool :=
  a.start ≤ b.start && b.stop ≤ a.stop

/-- Whether two spans overlap and neither contains the other. -/
def crosses (a b : Entity) : Bool :=
  a.overlaps b && !(a.contains b || b.contains a)

/-- Whether an entity is a span of a sentence of `tokens` tokens. -/
def isSpanOf (e : Entity) (tokens : Nat) : Bool :=
  e.length != 0 && e.stop ≤ tokens

/-- An entity as it is named in messages: its label and its half-open range. -/
def describe (e : Entity) : String :=
  e.label ++ "(" ++ toString e.start ++ ".." ++ toString e.stop ++ ")"

end Entity

end EntityMarkup
