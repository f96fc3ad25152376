import EntityMarkup.Pattern.Lexicon
import EntityMarkup.Pattern.Normal

/-!
# Searching a text for words

A pattern that is a few words is searched for the words themselves, and no automaton is made of it.
So it is if whole words are a good thing to search for (`isSearchable`); in other cases a search
for what several of them begin with promises more, and an automaton has to confirm what it finds.

A word that begins with one that is preferred to it is never searched for (`preferred`). How the
search goes is left out: what counts is that it takes the place of an automaton.
-/

namespace EntityMarkup.Pattern

namespace Lexicon

/-! ## Preference -/

/-- The words that do not begin with a word before them. -/
def preferred : List Bytes → List Bytes
  | [] => []
  | w :: ws => w :: (preferred ws).filter fun v => !w.isPrefixOf v

/-! ## What is searched for -/

/-- What all words begin with. -/
def beginning : List Bytes → Bytes
  | [] => []
  | w :: ws => ws.foldl commonPrefix w

/-- The ASCII characters that are common in texts of all kinds. -/
def commonChars : List Char :=
  "\n\r (),-./0129:_abcdefghilmnoprstuvxy|".toList

/-- A byte that is not common. Bytes beyond ASCII are taken for common ones. -/
def isRare (b : UInt8) : Bool :=
  b < 0x80 && !commonChars.any fun c => c.toNat = b.toNat

/-- How long beginnings may be, and how many of them there may then be without trying to shorten
them further. -/
def shortenings : List (Nat × Nat) := [(5, 10), (4, 10), (3, 64), (2, 64), (1, 10)]

/-- Shortens many words to fewer beginnings. -/
def shorten : List (Nat × Nat) → List Bytes → List Bytes
  | [], ws => ws
  | (length, most) :: rest, ws =>
    if ws.length ≤ most then ws else shorten rest (preferred (ws.map (·.take length)))

/-- Whether beginnings of words are worth a search of their own: they are neither short nor
many. -/
def areSelective (beginnings : List Bytes) : Bool :=
  beginnings.all (2 < ·.length) && beginnings.length ≤ 64

/-- Whether words, none of which begins with one before it, are searched for as a whole. They are
not where a rare byte with which they begin can be searched for instead, unless it is all there is
of them, nor where what several of them begin with is long, or shared by many. `isOnly` tells
whether there was only one word from the start. -/
def areWhole (isOnly : Bool) (ws : List Bytes) : Bool :=
  match beginning ws with
  | b :: rest =>
    if !isOnly && rest.length < 3 && isRare b then ws.all (·.length = 1)
    else if 4 ≤ rest.length || (1 ≤ rest.length && 16 < ws.length) then ws.length = 1
    else true
  | [] => true

/-- Whether a search for the words finds all there is to find. -/
def isSearchable (words : List Bytes) : Bool :=
  let ws := preferred words
  !words.isEmpty && words.all (!·.isEmpty) && areWhole (words.length = 1) ws &&
    (shorten shortenings ws = ws || !areSelective (shorten shortenings ws))

end Lexicon

/-- Whether a pattern is searched for its words. -/
def isSearchedByWords (p : Pattern) : Bool :=
  p.isPlain && p.lexicon?.any fun words => Lexicon.isSearchable (words.map Text.utf8)

end EntityMarkup.Pattern
