import EntityMarkup.Token.Placed

/-!
# Tokens of listed text

Listed text holds one token a line, and blank lines between sentences. A token's form is its line
without the line end.
-/

namespace EntityMarkup.Listed

/-- The lines of a text without their line ends, each with the offset at which it starts. -/
def contents (t : Text) : List Placed :=
  (Placed.ofPieces 0 t.lines).map fun p => { p with form := p.form.trimLineEnd }

/-- The sentences of listed text. -/
def sentences (t : Text) : List Sentence :=
  (((contents t).splitOnP fun p => p.form.isEmpty).filter (!·.isEmpty)).map Placed.sentence

end EntityMarkup.Listed
