import EntityMarkup.Token

/-!
# Pieces of a text with their offsets

Both tokenizers cut a text into consecutive pieces, drop some of them, and group the rest into
sentences. `Placed.ofPieces` gives each piece the byte offset at which it starts in the text;
`Placed.sentence` makes a group of pieces a sentence, numbering its tokens from zero.

* `map_form_ofPieces`: placing changes no piece.
-/

namespace EntityMarkup

/-- A piece of a text and the byte offset at which it starts. -/
structure Placed where
  start : Nat
  form : Text
  deriving DecidableEq, Repr

namespace Placed

/-- The offset at which a piece ends. -/
def stop (p : Placed) : Nat :=
  p.start + p.form.size

/-- Consecutive pieces, the first of which starts at an offset. -/
def ofPieces (start : Nat) : List Text → List Placed
  | [] => []
  | piece :: rest => ⟨start, piece⟩ :: ofPieces (start + piece.size) rest

@[simp] theorem map_form_ofPieces (start : Nat) (pieces : List Text) :
    (ofPieces start pieces).map form = pieces := by
  induction pieces generalizing start with
  | nil => rfl
  | cons piece rest ih => simp [ofPieces, ih]

/-- The sentence whose tokens are these pieces. -/
def sentence (pieces : List Placed) : Sentence :=
  pieces.mapIdx fun i p => .ofForm p.form p.start i

end Placed

end EntityMarkup
