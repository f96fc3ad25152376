import EntityMarkup.Proofs.Token.Forms
import EntityMarkup.Proofs.Token.Layout
import EntityMarkup.Proofs.Token.Tiling

/-!
# Sentences written as listed text

Listed text can be made from sentences that were found otherwise: each form on a line of its own,
and an empty line behind each sentence. Words hold no line break, so this is a layout of the
sentences, and they are read back.

* `exists_layout`: sentences that are written are laid out.
* **`flatMap_forms_ofText_print`**: the sentences read block by block are those that were written.
* `isListable_of_mem_sentences`: the sentences of running text can be written like this.
-/

namespace EntityMarkup

open Text (Unbroken)

namespace Listed

/-- A sentence, written as listed text. -/
def printSentence (forms : List Text) : Text :=
  forms.flatMap (· ++ ['\n']) ++ ['\n']

/-- Sentences, written as listed text. -/
def print (sentences : List (List Text)) : Text :=
  sentences.flatMap printSentence

/-- A sentence that has words, none of them empty and none with a line break. -/
structure IsListable (forms : List Text) : Prop where
  nonempty : forms ≠ []
  words : ∀ form ∈ forms, form ≠ [] ∧ Unbroken form

/-- Such a sentence is laid out when it is written, each line with a line feed alone. -/
def IsListable.paragraph {forms : List Text} (h : IsListable forms) : Paragraph where
  lines := forms.map fun form => (form, 0)
  blanks := [0]
  lines_ne_nil := by simpa using h.nonempty
  fitsLine := by
    rw [List.forall_mem_map]
    intro form hform
    obtain ⟨hne, hunbroken⟩ := h.words form hform
    exact ⟨hne, fun hfeed => (hunbroken '\n' hfeed).1 rfl,
      fun hlast => (hunbroken '\r' (List.mem_of_getLast? hlast)).2 rfl⟩

theorem IsListable.text_paragraph {forms : List Text} (h : IsListable forms) :
    h.paragraph.text = printSentence forms := by
  rw [Paragraph.text, Paragraph.body, paragraph, List.map_map, List.flatten_append,
    ← List.flatMap_def]
  rfl

theorem IsListable.forms_paragraph {forms : List Text} (h : IsListable forms) :
    h.paragraph.forms = forms := by
  rw [Paragraph.forms, paragraph, List.map_map]
  exact List.map_id forms

/-- Sentences that are written are laid out. -/
theorem exists_layout {ss : List (List Text)} (h : ∀ forms ∈ ss, IsListable forms) :
    ∃ layout : Layout, layout.text = print ss ∧ layout.forms = ss := by
  let ps := ss.pmap (fun _ hforms => IsListable.paragraph hforms) h
  have hblanks : ∀ p ∈ ps, p.blanks ≠ [] := by
    intro p hp
    obtain ⟨forms, hforms, rfl⟩ := List.mem_pmap.mp hp
    exact List.cons_ne_nil 0 []
  refine ⟨⟨ps, fun p hp => hblanks p (List.dropLast_subset ps hp)⟩, ?_, ?_⟩
  · rw [Layout.text, List.flatMap_def, List.map_pmap, print, List.flatMap_def]
    simp only [IsListable.text_paragraph, List.pmap_eq_map]
  · rw [Layout.forms, List.map_pmap]
    simp only [IsListable.forms_paragraph, List.pmap_eq_map, List.map_id']

/-- **The sentences read block by block are those that were written.** -/
theorem flatMap_forms_ofText_print {ss : List (List Text)} (h : ∀ forms ∈ ss, IsListable forms) :
    ((Block.ofText (print ss)).flatMap sentences).map Sentence.forms = ss := by
  obtain ⟨layout, htext, hforms⟩ := exists_layout h
  rw [← htext, layout.map_forms_ofText, hforms]

end Listed

/-- The sentences of running text can be written as listed text. -/
theorem Running.isListable_of_mem_sentences {t : Text} {tokens : Sentence}
    (h : tokens ∈ sentences t) : Listed.IsListable tokens.forms where
  nonempty := by
    rw [Sentence.forms, ne_eq, List.map_eq_nil_iff]
    exact @InputFormat.ne_nil_of_mem_sentences .untokenized t tokens h
  words := by
    rw [Sentence.forms, List.forall_mem_map]
    intro token htoken
    obtain ⟨c, hc, -⟩ := exists_not_blank (List.mem_flatten.mpr ⟨tokens, h, htoken⟩)
    exact ⟨List.ne_nil_of_mem hc, unbroken_of_mem_sentences h htoken⟩

end EntityMarkup
