import EntityMarkup.Proofs.Text.LineBreaks
import EntityMarkup.Proofs.Text.Lines
import EntityMarkup.Proofs.Token.Pieces

/-!
# The forms of tokens

Neither tokenizer yields a form with a line feed in it: words have boundaries around line breaks,
and the lines of listed text are taken without their ends.

* **`unbroken_of_mem_sentences`**: the words of running text hold no line break.
* **`lineFeed_not_mem_form`**: no form holds a line feed.
-/

namespace EntityMarkup

open Text (Unbroken)

/-! ## Running text -/

namespace Running

theorem unbroken_of_mem_words {t : Text} {p : Placed} (h : p ∈ words t) : Unbroken p.form := by
  obtain ⟨hp, hblank⟩ := List.mem_filter.mp h
  have hsegment : p.form ∈ t.segments := by
    rw [← Placed.map_form_ofPieces 0 t.segments]
    exact List.mem_map_of_mem hp
  rcases Text.isBlankLine_or_unbroken hsegment with hline | hform
  · rw [Text.isAllBlank_of_isBlankLine hline] at hblank
    cases hblank
  · exact hform

/-- Full stops are no line breaks, so abbreviations stay without them. -/
theorem unbroken_joinAbbreviations {ps : List Placed} (h : ∀ p ∈ ps, Unbroken p.form) :
    ∀ p ∈ joinAbbreviations ps, Unbroken p.form := by
  refine forall_form_joinAbbreviations (fun form hform c hc => ?_) h
  rcases List.mem_append.mp hc with hc | hc
  · exact hform c hc
  · rw [List.mem_singleton.mp hc]
    decide

/-- **The words of running text hold no line break.** -/
theorem unbroken_of_mem_sentences {t : Text} {tokens : Sentence} (h : tokens ∈ sentences t)
    {token : Token} (htoken : token ∈ tokens) : Unbroken token.form := by
  have hpiece := List.mem_map_of_mem (f := Token.piece) (List.mem_flatten.mpr ⟨tokens, h, htoken⟩)
  rw [map_piece_sentences] at hpiece
  exact unbroken_joinAbbreviations (fun _ => unbroken_of_mem_words) _ hpiece

end Running

/-! ## Listed text -/

/-- A line feed stands at the end of a line only, and is left out there. -/
theorem Text.AreLines.lineFeed_not_mem_trimLineEnd {lines : List Text} (h : AreLines lines) :
    ∀ line ∈ lines, '\n' ∉ line.trimLineEnd := by
  induction lines with
  | nil => exact nofun
  | cons first rest ih =>
    obtain ⟨hfirst, hrest⟩ := h
    refine List.forall_mem_cons.mpr ⟨?_, ih hrest⟩
    intro hmem
    have hmem := List.mem_reverse.mp hmem
    rcases hfirst with ⟨body, hbody, rfl⟩ | ⟨-, -, hfree⟩
    · -- the line feed at its end is the first that is taken away
      rw [List.reverse_append, List.reverse_singleton, List.singleton_append,
        List.dropWhile_cons_of_pos (by decide)] at hmem
      exact hbody (List.mem_reverse.mp ((List.dropWhile_sublist _).subset hmem))
    · exact hfree (List.mem_reverse.mp ((List.dropWhile_sublist _).subset hmem))

theorem Listed.lineFeed_not_mem_form {t : Text} {tokens : Sentence} (h : tokens ∈ sentences t)
    {token : Token} (htoken : token ∈ tokens) : '\n' ∉ token.form := by
  have hpiece := List.mem_map_of_mem (f := Token.piece) (List.mem_flatten.mpr ⟨tokens, h, htoken⟩)
  rw [map_piece_sentences] at hpiece
  obtain ⟨q, hq, hcontent⟩ := List.mem_map.mp (List.mem_filter.mp hpiece).1
  have hline : q.form ∈ t.lines := by
    rw [← Placed.map_form_ofPieces 0 t.lines]
    exact List.mem_map_of_mem hq
  rw [← show q.form.trimLineEnd = token.form from congrArg Placed.form hcontent]
  exact (Text.areLines_lines t).lineFeed_not_mem_trimLineEnd _ hline

/-- **No form holds a line feed**, whatever the format of the input. -/
theorem InputFormat.lineFeed_not_mem_form {input : InputFormat} {t : Text} {tokens : Sentence}
    (h : tokens ∈ input.sentences t) {token : Token} (htoken : token ∈ tokens) :
    '\n' ∉ token.form := by
  cases input with
  | untokenized =>
    intro hmem
    exact (Running.unbroken_of_mem_sentences h htoken '\n' hmem).1 rfl
  | vertical => exact Listed.lineFeed_not_mem_form h htoken

end EntityMarkup
