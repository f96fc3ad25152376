import EntityMarkup.Entity
import EntityMarkup.Render.Event
import EntityMarkup.Token

/-!
# The listing of entities

Each entity is a line of three columns: the numbers of its tokens, its label, and its forms put
together.

    1, 2	PER	BarackObama
    4	PER	He

In input that holds one token a line, the numbers are those of the tokens' lines. They run through
the whole input, so a `LineCounter` goes from each block to the next; a block takes as many lines
as it has tokens, and one for the blank line that ends it.
-/

namespace EntityMarkup

/-- The number of lines before a block. -/
structure LineCounter where
  lines : Nat := 0
  deriving DecidableEq, Repr

/-- The counter after a block of `tokens` tokens. -/
def LineCounter.afterBlock (counter : LineCounter) (tokens : Nat) : LineCounter :=
  ⟨counter.lines + tokens + 1⟩

namespace Listing

/-- A line of the listing. -/
structure Row where
  numbers : List Nat
  label : String
  forms : List Text
  deriving DecidableEq, Repr

/-- The line of an entity in a sentence whose first token has the number `first`. -/
def row (first : Nat) (tokens : Sentence) (e : Entity) : Row where
  numbers := List.range' (first + e.start) e.length
  label := e.label
  forms := ((tokens.drop e.start).take e.length).map Token.form

/-- How a line is written. -/
def Row.text (r : Row) : Text :=
  List.intercalate [',', ' '] (r.numbers.map fun n => (toString n).toList)
    ++ ['\t'] ++ r.label.toList ++ ['\t'] ++ r.forms.flatten ++ ['\n']

/-- The events of a sentence, whose entities are taken in the order in which they are given. -/
def render (first : Nat) (tokens : Sentence) (entities : List Entity) : List Event :=
  entities.map fun e => .write (row first tokens e).text

end Listing

end EntityMarkup
