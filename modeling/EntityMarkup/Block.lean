import EntityMarkup.Text

/-!
# Blocks of the input

Input is processed in blocks, that is, paragraphs: lines up to and including a blank one. The blank
line belongs to the block that it ends, so the blocks of an input, put together, are the input;
blank lines that follow one another are blocks of their own.

An input is bytes. A line that is not valid UTF-8 cannot be read: it becomes an item of its own,
and the lines gathered before it for the same block are lost. Reading goes on with the next line.

`Reader` reads an input item by item, as far as it is asked to; `items` is all that there is to be
read.

An input is at hand as a whole. How its bytes are fetched and buffered is left out, and so are
faults of the place they come from.
-/

namespace EntityMarkup.Block

/-- What reading an input yields. -/
inductive Item where
  /-- A block of text. -/
  | block (text : Text)
  /-- A line that is not valid UTF-8. -/
  | unreadable
  deriving DecidableEq, Repr

/-! ## Grouping lines -/

/-- Groups lines into blocks; `gathered` are the lines of the block under way. -/
def group (gathered : List Text) : List (Option Text) → List Item
  | [] => if gathered.isEmpty then [] else [.block gathered.flatten]
  | none :: rest => .unreadable :: group [] rest
  | some line :: rest =>
    if line.isBlankLine then .block (gathered ++ [line]).flatten :: group [] rest
    else group (gathered ++ [line]) rest

/-- The items of an input. -/
def items (input : Bytes) : List Item :=
  group [] ((Text.cutAfter (UInt8.ofNat 10) input).map Text.ofUtf8?)

/-! ## Item by item -/

/-- An input that is being read. -/
structure Reader where
  /-- What comes behind the lines that have been read. -/
  rest : Bytes
  /-- Whether the end has been met. -/
  done : Bool := false
  deriving DecidableEq, Repr

namespace Reader

/-- Reads lines until an item is complete; `gathered` is the text of the block under way. -/
def gather (gathered : Text) : Bytes → Option Item × Reader
  | [] => (if gathered.isEmpty then none else some (.block gathered), ⟨[], true⟩)
  | b :: bytes =>
    let rest := (Text.cutFirst (UInt8.ofNat 10) (b :: bytes)).2
    match Text.ofUtf8? (Text.cutFirst (UInt8.ofNat 10) (b :: bytes)).1 with
    | none => (some .unreadable, ⟨rest, false⟩)
    | some line =>
      if line.isBlankLine then (some (.block (gathered ++ line)), ⟨rest, false⟩)
      else gather (gathered ++ line) rest
termination_by bytes => bytes.length
decreasing_by exact Nat.lt_succ_of_le (Text.length_cutFirst_cons_le _ b bytes)

/-- The next item, if the end has not been met before. -/
def next (r : Reader) : Option Item × Reader :=
  if r.done then (none, r) else gather [] r.rest

end Reader

end EntityMarkup.Block
