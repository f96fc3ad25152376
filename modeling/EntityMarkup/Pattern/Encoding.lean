import EntityMarkup.Pattern.CharClass

/-!
# Classes as sequences of byte ranges

The UTF-8 forms of the characters of a class, as few sequences of byte ranges: a text is the form
of one of the characters iff it is as long as one of the sequences and each of its bytes lies in
the range that stands in its place.

A range of code points is cut where the number of bytes changes, and then so that all but the first
of the bytes in which its ends differ run through all of their values (`cutAt?`). The pieces of a
range are in ascending order, and make up the range.
-/

namespace EntityMarkup.Pattern.Encoding

/-- A range of bytes. -/
structure ByteRange where
  first : UInt8
  last : UInt8
  deriving DecidableEq, Repr

/-- The last code points that are written in one, two and three bytes. -/
def lengthBounds : List Nat := [0x7f, 0x7ff, 0xffff]

/-- The last code point before a cut so that both ends of a range fill the blocks of a size in
which they lie, if these are different blocks. -/
def blockCut? (first last size : Nat) : Option Nat :=
  if first / size = last / size then none
  else if first % size ≠ 0 then some ((first / size + 1) * size - 1)
  else if last % size ≠ size - 1 then some (last / size * size - 1)
  else none

/-- The last code point before the first cut of a range. -/
def cutAt? (first last : Nat) : Option Nat :=
  match lengthBounds.find? fun n => first ≤ n && n < last with
  | some n => some n
  | none =>
    if last ≤ 0x7f then none else [64, 64 * 64, 64 * 64 * 64].findSome? (blockCut? first last)

/-- The pieces of a range. -/
def pieces (first last : Nat) : List (Nat × Nat) :=
  match cutAt? first last with
  | some n =>
    if first ≤ n ∧ n < last then pieces first n ++ pieces (n + 1) last else [(first, last)]
  | none => [(first, last)]
termination_by last - first

/-- The UTF-8 form of a code point. -/
def bytes (n : Nat) : List UInt8 :=
  String.utf8EncodeChar (Char.ofNat n)

/-- The byte ranges of a class, in the order of its characters. -/
def sequences (set : CharClass) : List (List ByteRange) :=
  (set.codeRanges.flatMap fun r => pieces r.1 r.2).map fun p =>
    List.zipWith ByteRange.mk (bytes p.1) (bytes p.2)

end EntityMarkup.Pattern.Encoding
