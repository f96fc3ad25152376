import EntityMarkup.Entity
import EntityMarkup.Render.Mark
import EntityMarkup.Token

/-!
# Markup by stretches of text

Only entities have tags, and these stand in the text of the block, from the start of the entity's
first token to the end of its last:

    The <ne type="PER">Karl</ne> Universitat

A `Pen` copies the block as far as is needed and never goes back. A stack holds the offsets at
which the open entities end. Before an entity is opened, the entities on top of the stack that end
at or before its start are closed; at the end of the sentence all are, from the top down. An entity
that begins inside another and ends behind it therefore keeps the other open until its own end: the
tags are always balanced, but of crossing entities they are only an approximation.
-/

namespace EntityMarkup.Flat

/-! ## Copying the block -/

/-- What has been written, and the offset up to which the block is part of it. -/
structure Pen where
  cursor : Nat
  marks : List Mark := []
  deriving DecidableEq, Repr

namespace Pen

/-- Copies the block up to an offset; does nothing if it is copied that far already. -/
def copyTo (block : Text) (offset : Nat) (pen : Pen) : Pen :=
  ⟨max pen.cursor offset, pen.marks ++ Mark.stretch block pen.cursor offset⟩

/-- Writes a tag. -/
def put (tag : Mark) (pen : Pen) : Pen :=
  { pen with marks := pen.marks ++ [tag] }

/-- Closes an entity that ends at an offset. -/
def closeAt (block : Text) (pen : Pen) (offset : Nat) : Pen :=
  (pen.copyTo block offset).put .endEntity

end Pen

/-! ## Entities -/

/-- The offset at which an entity's first token starts. -/
def startOffset (tokens : Sentence) (e : Entity) : Nat :=
  (tokens[e.start]?.map Token.start).getD 0

/-- The offset at which an entity's last token ends. -/
def stopOffset (tokens : Sentence) (e : Entity) : Nat :=
  (tokens[e.last]?.map Token.stop).getD 0

/-- Opens an entity, after closing those on top of the stack that end before it begins. -/
def openEntity (block : Text) (tokens : Sentence) (state : List Nat × Pen) (e : Entity) :
    List Nat × Pen :=
  let start := startOffset tokens e
  let ending := state.1.takeWhile fun offset => offset ≤ start
  let pen := ending.foldl (Pen.closeAt block) state.2
  (stopOffset tokens e :: state.1.drop ending.length,
    (pen.copyTo block start).put (.beginEntity e.label))

/-- The markup of a sentence, its entities being in the order of rendering. -/
def sentence (block : Text) (cursor : Nat) (tokens : Sentence) (entities : List Entity) : Pen :=
  let state := entities.foldl (openEntity block tokens) ([], { cursor })
  state.1.foldl (Pen.closeAt block) state.2

/-- The events of a sentence, and the offset up to which the block is written after it. -/
def render (block : Text) (cursor : Nat) (tokens : Sentence) (entities : List Entity) :
    List Event × Nat :=
  let pen := sentence block cursor tokens entities
  (Mark.events pen.marks, pen.cursor)

end EntityMarkup.Flat
