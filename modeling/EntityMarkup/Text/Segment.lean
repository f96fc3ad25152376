import EntityMarkup.Text
import EntityMarkup.Unicode.WordClass

/-!
# Word boundaries

`segments` cuts a text at the word boundaries of Unicode's default rules (WB3 to WB16 of UAX #29).
A segment is read from left to right; its `State` is what the characters read so far leave open.
Each further character either joins the segment, or joins it on the condition that a certain
character follows (`hold`: the dot of `S.A` needs the `A`), or does not belong to it.

Characters that attach to the one before them join every segment that is open and leave its state
alone. One consequence is a rule of its own: two spaces with such a character between them do not
belong together. Another takes precedence over the state: a pictograph after a joiner always joins,
and closes the segment.

* **`flatten_segments`**: the segments, put together, are the text.

Boundaries between sentences, between lines and within words are left out, and so are tailorings
for single languages.
-/

namespace EntityMarkup.Text

open Unicode

/-! ## What a segment admits next -/

namespace Segment

/-- What the characters of a segment leave open. -/
inductive State where
  /-- Ends in a letter. -/
  | letter
  /-- Ends in a Hebrew letter. -/
  | hebrew
  /-- Ends in a digit. -/
  | numeric
  /-- Ends in Katakana. -/
  | katakana
  /-- Ends in connecting punctuation. -/
  | connector
  /-- Holds one half of a flag. -/
  | regional
  /-- Holds spaces. -/
  | spaces
  /-- Admits attached characters only. -/
  | closed
  /-- Ends in a single quotation mark after a Hebrew letter. -/
  | hebrewQuote
  /-- Ends in a mark that needs a letter after it. -/
  | needsLetter
  /-- Ends in a mark that needs a Hebrew letter after it. -/
  | needsHebrew
  /-- Ends in a mark that needs a digit after it. -/
  | needsNumeric

/-- What becomes of a segment at the next character. -/
inductive Move where
  /-- The character joins. -/
  | join (state : State)
  /-- The character joins if the state it leads to gets what it needs. -/
  | hold (state : State)
  /-- The segment ends before the character. -/
  | stop
  /-- The character is not what the segment needs. -/
  | fail

namespace State

/-- The state of a segment that holds one character of a class. -/
def ofClass : WordClass → State
  | .letter => .letter
  | .hebrew => .hebrew
  | .numeric => .numeric
  | .katakana => .katakana
  | .connector => .connector
  | .regional => .regional
  | .space => .spaces
  | _ => .closed

/-- Whether the segment cannot end here. -/
def isWaiting : State → Bool
  | .needsLetter => true
  | .needsHebrew => true
  | .needsNumeric => true
  | _ => false

/-- After a letter or digit: letters, digits and connectors join (WB5, WB8 to WB10, WB13a). -/
def afterWord (otherwise : Move) : WordClass → Move
  | .letter => .join .letter
  | .hebrew => .join .hebrew
  | .numeric => .join .numeric
  | .connector => .join .connector
  | _ => otherwise

/-- What a segment does at a character of a class that does not attach; `interrupted` tells
whether an attached character has been read. -/
def next (interrupted : Bool) : State → WordClass → Move
  | .letter, k =>
    afterWord
      (match k with
        | .midLetter => .hold .needsLetter
        | .midNumLet => .hold .needsLetter
        | .singleQuote => .hold .needsLetter
        | _ => .stop) k
  | .hebrew, k =>
    afterWord
      (match k with
        | .singleQuote => .join .hebrewQuote
        | .doubleQuote => .hold .needsHebrew
        | .midLetter => .hold .needsLetter
        | .midNumLet => .hold .needsLetter
        | _ => .stop) k
  | .numeric, k =>
    afterWord
      (match k with
        | .midNum => .hold .needsNumeric
        | .midNumLet => .hold .needsNumeric
        | .singleQuote => .hold .needsNumeric
        | _ => .stop) k
  | .katakana, .katakana => .join .katakana
  | .katakana, .connector => .join .connector
  | .connector, .katakana => .join .katakana
  | .connector, k => afterWord .stop k
  | .regional, .regional => .join .closed
  | .spaces, .space => if interrupted then .stop else .join .spaces
  | .hebrewQuote, .letter => .join .letter
  | .hebrewQuote, .hebrew => .join .hebrew
  | .needsLetter, .letter => .join .letter
  | .needsLetter, .hebrew => .join .hebrew
  | .needsHebrew, .hebrew => .join .hebrew
  | .needsNumeric, .numeric => .join .numeric
  | .needsLetter, _ => .fail
  | .needsHebrew, _ => .fail
  | .needsNumeric, _ => .fail
  | _, _ => .stop

end State

/-- How many of the following characters belong to an open segment; `none` if it needs a character
that does not come. -/
def reach (state : State) (afterJoiner interrupted : Bool) : Text → Option Nat
  | [] => if state.isWaiting then none else some 0
  | c :: rest =>
    let k := WordClass.ofChar c
    if k.isAttached then (reach state (k == .joiner) true rest).map (· + 1)
    else if afterJoiner && isPictograph c then
      (reach .closed false interrupted rest).map (· + 1)
    else
      match state.next interrupted k with
      | .join s => (reach s false interrupted rest).map (· + 1)
      | .hold s => some (((reach s false interrupted rest).map (· + 1)).getD 0)
      | .stop => some 0
      | .fail => none

/-- How many characters belong to the segment that begins with `c`, besides `c` itself. A line
break stands alone, but for a carriage return and the line feed after it (WB3 to WB3b). -/
def extent (c : Char) (rest : Text) : Nat :=
  match WordClass.ofChar c with
  | .carriageReturn => if rest.head? = some '\n' then 1 else 0
  | .lineFeed => 0
  | .newline => 0
  | k => (reach (.ofClass k) (k == .joiner) false rest).getD 0

end Segment

/-! ## Segments -/

/-- The segments of a text between its word boundaries. -/
def segments : Text → List Text
  | [] => []
  | c :: rest =>
    (c :: rest.take (Segment.extent c rest)) :: segments (rest.drop (Segment.extent c rest))
termination_by t => t.length
decreasing_by simp only [List.length_drop, List.length_cons]; omega

/-- **Segments tile the text.** -/
@[simp] theorem flatten_segments (t : Text) : t.segments.flatten = t := by
  fun_induction segments t with
  | case1 => rfl
  | case2 c rest ih => simp [ih]

end EntityMarkup.Text
