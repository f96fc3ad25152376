import EntityMarkup.Text.Segment
import EntityMarkup.Token.Placed
import EntityMarkup.Unicode.Blank

/-!
# Tokens of running text

Running text is cut at its word boundaries, and white space between words is left out. A full stop
right after a common abbreviation belongs to it (`Dr.` is one token). A sentence ends with its
final punctuation, that is, where a token that is not final punctuation follows one that is.

Each step is a function on the list of pieces: `joinAbbreviations` after `Text.segments`, and
`List.splitBy` to group what is left into sentences.
-/

namespace EntityMarkup.Running

/-! ## Words the rules know -/

/-- Abbreviations to which a full stop belongs. -/
def abbreviations : List Text :=
  ["Dr", "Dra", "Sr", "Sra", "Prof", "Profa", "Gov", "Dep", "Sen", "Min", "Gen", "Cap", "Sgt",
    "Cel", "Brig", "Adm", "Des", "Pres", "Eng", "Arq", "Mr", "Mrs", "Ms", "St", "Jr", "Inc", "Ltd",
    "Co", "vs", "km", "cm", "mm", "kg", "mg", "ml", "etc", "vol", "art", "pág", "cap", "tel", "av",
    "S.A"].map String.toList

/-- Punctuation that ends a sentence. -/
def terminals : List Text :=
  [['.'], ['!'], ['?'], ['…']]

/-- A piece that ends a sentence. -/
def isTerminal (p : Placed) : Bool :=
  terminals.contains p.form

/-! ## Pieces -/

/-- A full stop that belongs to the abbreviation right before it. -/
def isAbbreviationStop (p q : Placed) : Bool :=
  q.form == ['.'] && p.stop == q.start && abbreviations.contains p.form

/-- Joins each full stop to the abbreviation it belongs to. -/
def joinAbbreviations : List Placed → List Placed
  | [] => []
  | [p] => [p]
  | p :: q :: rest =>
    if isAbbreviationStop p q then ⟨p.start, p.form ++ ['.']⟩ :: joinAbbreviations rest
    else p :: joinAbbreviations (q :: rest)

/-- The words and punctuation of a text, white space left out. -/
def words (t : Text) : List Placed :=
  (Placed.ofPieces 0 t.segments).filter fun p => !p.form.isAllBlank

/-! ## Sentences -/

/-- Whether two neighbouring pieces belong to one sentence. -/
def sameSentence (p q : Placed) : Bool :=
  !isTerminal p || isTerminal q

/-- The sentences of running text. -/
def sentences (t : Text) : List Sentence :=
  ((joinAbbreviations (words t)).splitBy sameSentence).map Placed.sentence

end EntityMarkup.Running
