import EntityMarkup.Entity
import EntityMarkup.Render.Event
import EntityMarkup.Token

/-!
# Tokens tagged with the outermost entities

Each token is a line with its form and a tag: whether an entity begins with it, it lies inside one,
or neither. A blank line follows each sentence.

    John	B-PER
    lives	_

The tags do not show nesting. An entity counts if it begins where no entity that counts is open.
-/

namespace EntityMarkup.Outermost

/-- The part a token plays in an entity. -/
inductive Tag where
  | begins (label : String)
  | inside (label : String)
  | outside
  deriving DecidableEq, Repr

/-- How a tag is written. -/
def Tag.text : Tag → Text
  | .begins label => 'B' :: '-' :: label.toList
  | .inside label => 'I' :: '-' :: label.toList
  | .outside => ['_']

/-- An entity that is open, and how many of the tokens from here on it covers. -/
structure Open where
  label : String
  remaining : Nat
  deriving DecidableEq, Repr

/-- What is open at the next token. -/
def Open.advance (o : Open) : Option Open :=
  if 1 < o.remaining then some { o with remaining := o.remaining - 1 } else none

/-- The tags of the tokens from index `i` on, of which there are `count`. An entity may be open,
and `pending` are the entities still to come, in the order of rendering. -/
def tags (i : Nat) (current : Option Open) (pending : List Entity) : (count : Nat) → List Tag
  | 0 => []
  | count + 1 =>
    let reached := pending.takeWhile fun e => e.start ≤ i
    let later := pending.drop reached.length
    match current with
    | some o => .inside o.label :: tags (i + 1) o.advance later count
    | none =>
      match reached.find? fun e => e.start == i with
      | some e => .begins e.label :: tags (i + 1) (Open.advance ⟨e.label, e.length⟩) later count
      | none => .outside :: tags (i + 1) none later count

/-- How a token's line is written. -/
def row (form : Text) (tag : Tag) : Text :=
  form ++ ['\t'] ++ tag.text ++ ['\n']

/-- The events of a sentence, its entities being in the order of rendering. -/
def render (tokens : Sentence) (entities : List Entity) : List Event :=
  (tokens.forms.zip (tags 0 none entities tokens.length)).map (fun r => .write (row r.1 r.2))
    ++ [.write ['\n']]

end EntityMarkup.Outermost
