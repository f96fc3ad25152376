import EntityMarkup.Text

/-!
# Tokens

A token is a stretch of a block of text. It carries its form, the byte offset in the block at
which it starts, its length in bytes, and its index in the sentence it belongs to. A `Sentence` is
a list of tokens; spans of entities count in its indices.
-/

namespace EntityMarkup

/-- A token of a sentence. -/
structure Token where
  form : Text
  start : Nat
  length : Nat
  index : Nat
  deriving DecidableEq, Repr, Inhabited

/-- The tokens of a sentence, in order. -/
abbrev Sentence := List Token

namespace Token

/-- The offset at which the token ends. -/
def stop (t : Token) : Nat :=
  t.start + t.length

/-- The token that a form is at an offset. -/
def ofForm (form : Text) (start index : Nat) : Token :=
  ⟨form, start, form.size, index⟩

end Token

/-- The forms of a sentence. -/
def Sentence.forms (s : Sentence) : List Text :=
  s.map Token.form

end EntityMarkup
