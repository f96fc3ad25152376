import EntityMarkup.Text

/-!
# White space

The characters that separate words and that are trimmed from both ends of a text: those with the
property White_Space, which has not changed since Unicode 6.3.
-/

namespace EntityMarkup.Unicode

/-- The ranges of code points that are white space. -/
def blankRanges : List (Nat × Nat) :=
  [(0x09, 0x0d), (0x20, 0x20), (0x85, 0x85), (0xa0, 0xa0), (0x1680, 0x1680), (0x2000, 0x200a),
    (0x2028, 0x2029), (0x202f, 0x202f), (0x205f, 0x205f), (0x3000, 0x3000)]

/-- A white-space character. -/
def isBlank (c : Char) : Bool :=
  blankRanges.any fun r => r.1 ≤ c.toNat && c.toNat ≤ r.2

end EntityMarkup.Unicode

namespace EntityMarkup.Text

/-- The words of a text: its longest pieces without white space. -/
def words (t : Text) : List Text :=
  (t.splitOnP Unicode.isBlank).filter (!·.isEmpty)

/-- Whether a text holds nothing but white space. -/
def isAllBlank (t : Text) : Bool :=
  t.all Unicode.isBlank

end EntityMarkup.Text
