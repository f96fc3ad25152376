import EntityMarkup.Proofs.Token.Blockwise

/-!
# Sentences laid out as listed text

There are many ways to write sentences as listed text: each line can end with a line feed alone or
with carriage returns before it, and any number of blank lines can stand behind a sentence, also
none behind the last one. A `Layout` is such a way. However sentences are laid out, they are read
back, from the text as a whole and from its blocks one by one.

* `Paragraph.map_forms_sentences`: one sentence, with the blank lines behind it.
* **`Layout.map_forms_sentences`**: any number of them.
* **`sentences_blockwise`**: this, and what the blocks of any text have to do with its sentences.
-/

namespace EntityMarkup.Listed

open Text (AreLines)

/-! ## Lines -/

/-- What a line can hold as the form of a token: something without a line feed, that does not end
with a carriage return. -/
structure FitsLine (form : Text) : Prop where
  ne_nil : form ≠ []
  lineFeed_not_mem : '\n' ∉ form
  getLast?_ne : form.getLast? ≠ some '\r'

instance (form : Text) : Decidable (FitsLine form) :=
  decidable_of_iff (form ≠ [] ∧ '\n' ∉ form ∧ form.getLast? ≠ some '\r')
    ⟨fun ⟨hne, hfeed, hlast⟩ => ⟨hne, hfeed, hlast⟩,
      fun h => ⟨h.ne_nil, h.lineFeed_not_mem, h.getLast?_ne⟩⟩

/-- The end of a line: a line feed, with any number of carriage returns before it. The usual ends
have none of these, or one. -/
def lineEnd (returns : Nat) : Text :=
  List.replicate returns '\r' ++ ['\n']

theorem isBlankLine_lineEnd (returns : Nat) : (lineEnd returns).isBlankLine = true := by
  simp [lineEnd, Text.isBlankLine]

theorem lineFeed_not_mem_replicate (returns : Nat) : '\n' ∉ List.replicate returns '\r' :=
  fun h => absurd (List.eq_of_mem_replicate h) (by decide)

/-- However a line ends, its content is what it was made of. -/
theorem FitsLine.trimLineEnd_append {form : Text} (h : FitsLine form) (returns : Nat) :
    Text.trimLineEnd (form ++ lineEnd returns) = form := by
  refine Text.trimLineEnd_append (fun c hc => ⟨?_, ?_⟩) (isBlankLine_lineEnd returns)
  · rintro rfl
    exact h.lineFeed_not_mem (List.mem_of_getLast? hc)
  · rintro rfl
    exact h.getLast?_ne hc

/-! ## One sentence -/

/-- A sentence with the lines that it is written in. -/
structure Paragraph where
  /-- The forms of the sentence, each with the number of carriage returns at the end of its line. -/
  lines : List (Text × Nat)
  /-- The blank lines behind the sentence, that is, the number of carriage returns in each. -/
  blanks : List Nat
  lines_ne_nil : lines ≠ []
  fitsLine : ∀ line ∈ lines, FitsLine line.1

namespace Paragraph

/-- The sentence. -/
def forms (p : Paragraph) : List Text :=
  p.lines.map Prod.fst

/-- The lines that are not blank. -/
def body (p : Paragraph) : List Text :=
  p.lines.map fun line => line.1 ++ lineEnd line.2

/-- The sentence, written line by line. -/
def text (p : Paragraph) : Text :=
  (p.body ++ p.blanks.map lineEnd).flatten

variable (p : Paragraph)

theorem areLines : AreLines (p.body ++ p.blanks.map lineEnd) := by
  refine Text.areLines_of_forall fun line hline => ?_
  rcases List.mem_append.mp hline with hline | hline
  · obtain ⟨⟨form, returns⟩, hmem, rfl⟩ := List.mem_map.mp hline
    refine ⟨form ++ List.replicate returns '\r', fun hfeed => ?_, (List.append_assoc ..).symm⟩
    rcases List.mem_append.mp hfeed with hfeed | hfeed
    · exact (p.fitsLine _ hmem).lineFeed_not_mem hfeed
    · exact lineFeed_not_mem_replicate returns hfeed
  · obtain ⟨returns, -, rfl⟩ := List.mem_map.mp hline
    exact ⟨List.replicate returns '\r', lineFeed_not_mem_replicate returns, rfl⟩

theorem map_trimLineEnd_body : p.body.map Text.trimLineEnd = p.forms := by
  rw [body, List.map_map]
  exact List.map_congr_left fun line hline => (p.fitsLine line hline).trimLineEnd_append line.2

theorem isBlankLine_of_mem_body : ∀ line ∈ p.body, line.isBlankLine = false := by
  rw [body, List.forall_mem_map]
  intro line hline
  have hfits := p.fitsLine line hline
  rw [Bool.eq_false_iff, ne_eq, ← Text.trimLineEnd_eq_nil_iff, hfits.trimLineEnd_append]
  exact hfits.ne_nil

theorem isBlankLine_of_mem_blanks : ∀ line ∈ p.blanks.map lineEnd, line.isBlankLine = true := by
  rw [List.forall_mem_map]
  exact fun returns _ => isBlankLine_lineEnd returns

/-- The sentence is read back. -/
theorem map_forms_sentences : (sentences p.text).map Sentence.forms = [p.forms] := by
  have hne : p.body ≠ [] := by
    rw [body, ne_eq, List.map_eq_nil_iff]
    exact p.lines_ne_nil
  rw [text, map_forms_sentences_of_lines p.areLines p.isBlankLine_of_mem_body
    p.isBlankLine_of_mem_blanks hne, map_trimLineEnd_body]

theorem endsBlank_text (h : p.blanks ≠ []) : Block.EndsBlank p.text := by
  obtain ⟨blanks, returns, hblanks⟩ := List.eq_nil_or_concat p.blanks |>.resolve_left h
  refine Or.inr ⟨lineEnd returns, ?_, isBlankLine_lineEnd returns, List.getLast?_concat⟩
  rw [text, Text.lines_flatten p.areLines, hblanks, List.concat_eq_append, List.map_append,
    ← List.append_assoc]
  exact List.getLast?_concat

end Paragraph

/-! ## Any number of sentences -/

/-- Sentences as listed text has them: at least one blank line between each two. -/
structure Layout where
  paragraphs : List Paragraph
  separated : ∀ p ∈ paragraphs.dropLast, p.blanks ≠ []

namespace Layout

/-- The text that the sentences are laid out in. -/
def text (layout : Layout) : Text :=
  layout.paragraphs.flatMap Paragraph.text

/-- The sentences. -/
def forms (layout : Layout) : List (List Text) :=
  layout.paragraphs.map Paragraph.forms

/-- **However sentences are laid out, they are read back.** -/
theorem map_forms_sentences (layout : Layout) :
    (sentences layout.text).map Sentence.forms = layout.forms := by
  obtain ⟨ps, hseparated⟩ := layout
  simp only [text, forms]
  induction ps with
  | nil => rfl
  | cons p ps ih =>
    cases ps with
    | nil => rw [List.flatMap_singleton, p.map_forms_sentences, List.map_singleton]
    | cons q ps =>
      rw [List.dropLast_cons_cons] at hseparated
      obtain ⟨hblanks, hseparated⟩ := List.forall_mem_cons.mp hseparated
      rw [List.flatMap_cons, map_forms_sentences_append (p.endsBlank_text hblanks),
        p.map_forms_sentences, ih hseparated]
      rfl

/-- So they are from the blocks of the text. -/
theorem map_forms_ofText (layout : Layout) :
    ((Block.ofText layout.text).flatMap sentences).map Sentence.forms = layout.forms := by
  rw [← map_forms_blockwise, blockwise_ofText, layout.map_forms_sentences]

end Layout

/-- **Listed text, read as a whole and block by block.** The blocks of a text, put together, are the
text, and each has one sentence at most. Their sentences, with offsets shifted by where each block
stands, are those of the text. However sentences were laid out in the text, they are read back,
from the text as a whole and from its blocks. -/
theorem sentences_blockwise (t : Text) :
    ∃ blocks : List Text, Block.items t.utf8 = blocks.map .block ∧ blocks.flatten = t ∧
      (∀ block ∈ blocks, (sentences block).length ≤ 1) ∧ blockwise blocks = sentences t ∧
      ∀ layout : Layout, layout.text = t →
        (sentences t).map Sentence.forms = layout.forms ∧
          (blocks.flatMap sentences).map Sentence.forms = layout.forms := by
  refine ⟨Block.ofText t, Block.items_utf8 t, Block.flatten_ofText t,
    fun _ => length_sentences_of_mem_ofText, blockwise_ofText t, ?_⟩
  rintro layout rfl
  exact ⟨layout.map_forms_sentences, layout.map_forms_ofText⟩

/-- Two sentences, with both usual ends of lines, two blank lines between them and none behind the
second. A form can begin with a carriage return. -/
def mixedLayout : Layout where
  paragraphs :=
    [⟨["Barack".toList, "Obama".toList].zip [1, 0], [1, 0], by decide, by decide⟩,
      ⟨["He".toList, "\rspoke".toList].zip [0, 1], [], by decide, by decide⟩]
  separated := by decide

/-- The second blank line is a block of its own, in which there is no sentence. -/
theorem sentences_blockwise_mixed :
    mixedLayout.text = "Barack\r\nObama\n\r\n\nHe\n\rspoke\r\n".toList ∧
      ∃ blocks : List Text, Block.items mixedLayout.text.utf8 = blocks.map .block ∧
        (blocks.flatMap sentences).map Sentence.forms
          = [["Barack".toList, "Obama".toList], ["He".toList, "\rspoke".toList]] := by
  obtain ⟨blocks, hitems, -, -, -, hread⟩ := sentences_blockwise mixedLayout.text
  exact ⟨by decide, blocks, hitems, (hread mixedLayout rfl).2⟩

end EntityMarkup.Listed
