import EntityMarkup.Render.Event
import EntityMarkup.Text.Escape

/-!
# Inline markup

Inline markup is the text of a block with tags in it. It is composed as a list of marks: tags, and
stretches of the block, which are escaped when they are written. The label of an entity is written
as it is.

* `written_events`: the events of marks write their texts.
-/

namespace EntityMarkup

/-- A piece of inline markup. -/
inductive Mark where
  /-- A stretch of the block. -/
  | literal (text : Text)
  | beginSentence
  | endSentence
  | beginToken
  | endToken
  | beginEntity (label : String)
  | endEntity
  deriving DecidableEq, Repr

namespace Mark

/-- How a mark is written. -/
def text : Mark → Text
  | .literal t => t.escape
  | .beginSentence => "<sentence>".toList
  | .endSentence => "</sentence>".toList
  | .beginToken => "<token>".toList
  | .endToken => "</token>".toList
  | .beginEntity label => "<ne type=\"".toList ++ label.toList ++ "\">".toList
  | .endEntity => "</ne>".toList

/-- The marks that copy a block from one offset to another, where the second lies behind the
first. -/
def stretch (block : Text) (start stop : Nat) : List Mark :=
  if start < stop then [.literal (block.slice start stop)] else []

/-- The pieces in which a mark is written: a stretch of the block is escaped on the way. -/
def pieces : Mark → List Text
  | .literal t => t.escapedRuns
  | m => [m.text]

@[simp] theorem flatten_pieces (m : Mark) : m.pieces.flatten = m.text := by
  cases m with
  | literal t => exact Text.flatten_escapedRuns t
  | _ => exact List.append_nil _

/-- The events that write marks. -/
def events (marks : List Mark) : List Event :=
  (marks.flatMap pieces).map .write

/-- What is written are the texts of the marks. -/
@[simp] theorem written_events (marks : List Mark) :
    Event.written (events marks) = marks.flatMap text := by
  induction marks with
  | nil => rfl
  | cons m marks ih =>
    rw [List.flatMap_cons, ← ih, ← flatten_pieces m]
    simp [events, Event.written_map_write]

end Mark

end EntityMarkup
