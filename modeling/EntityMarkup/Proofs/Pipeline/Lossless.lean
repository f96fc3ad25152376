import EntityMarkup.Proofs.Pipeline.Pages
import EntityMarkup.Proofs.Render.Copying

/-!
# Inline markup is lossless

The text that was marked up can be had back from inline markup: leave out the tags, and undo the
escaping. Whatever the recognizer answers, only tags are added to the text. That the tags can be
left out takes labels that do not end their own tags, and nothing else.

* `exists_marks_renderAll`: pages in an inline format are written as marks that copy their blocks.
* **`unescape_stripTags_renderText`**: the marked-up text can be had back from the output.
-/

namespace EntityMarkup

open Mark (literals LabelsAre KeepsTag)

/-- Pages whose tokens lie in order are written, in an inline format, as marks that copy their
blocks and that hold labels of what was found only. -/
theorem Page.exists_marks_renderAll {config : Config}
    {markup : Text → Nat → Sentence → List Entity → List Event × Nat}
    (hmarkup : config.output.markup? = some markup) {counter : LineCounter} {pages : List Page}
    {events : List Event} (h : renderAll config counter pages = .ok events) {p : String → Prop}
    (hlabels : ∀ f ∈ pages.flatMap found, ∀ e ∈ f.2, p e.label)
    (hin : ∀ page ∈ pages, page.InOrder) :
    ∃ marks, Event.written events = marks.flatMap Mark.text ∧ LabelsAre p marks ∧
      literals marks = (pages.map block).flatten := by
  induction pages generalizing counter events with
  | nil =>
    obtain rfl := Except.ok.inj h
    exact ⟨[], rfl, Mark.labelsAre_of_forall_ne (by simp), rfl⟩
  | cons page rest ih =>
    obtain ⟨first, counter', more, hfirst, hmore, rfl⟩ := renderAll_cons_eq_ok_iff.mp h
    obtain ⟨written, renderer, hsentences, rfl, rfl⟩ := render_eq_ok_iff.mp hfirst
    obtain ⟨hpage, hrest⟩ := List.forall_mem_cons.mp hin
    rw [List.flatMap_cons] at hlabels
    obtain ⟨hfirstLabels, hmoreLabels⟩ := List.forall_mem_append.mp hlabels
    obtain ⟨marks, hwritten, hmarks, hcopied⟩ :=
      Renderer.literals_block hmarkup rfl hsentences hfirstLabels hpage
    obtain ⟨marks', hwritten', hmarks', hcopied'⟩ := ih hmore hmoreLabels hrest
    refine ⟨marks ++ marks', ?_, Mark.labelsAre_append.mpr ⟨hmarks, hmarks'⟩, ?_⟩
    · rw [Event.written_append, hwritten, hwritten', List.flatMap_append]
    · rw [Mark.literals_append, hcopied, hcopied', List.map_cons, List.flatten_cons]

namespace Recognizer

variable {σ : Type} {r : Recognizer σ}

/-- What holds of every label that a recognizer answers with holds of the labels of what was
found. -/
theorem Answers.labels {p : String → Prop}
    (hlabels : ∀ s forms entities s', r.recognize s forms = (.ok entities, s') →
      ∀ e ∈ entities, p e.label)
    {s s' : σ} {found : List Finding} (h : r.Answers s found s') :
    ∀ f ∈ found, ∀ e ∈ f.2, p e.label := by
  induction found generalizing s with
  | nil => simp
  | cons f rest ih =>
    obtain ⟨s₁, hrecognize, hrest⟩ := h
    exact List.forall_mem_cons.mpr ⟨hlabels _ _ _ _ hrecognize, ih hrest⟩

/-- **Inline markup is lossless**: if a text can be marked up in an inline format, leaving out the
tags and undoing the escaping yields the text. -/
theorem unescape_stripTags_renderText (r : Recognizer σ) {config : Config}
    (hinline : config.output = .xml ∨ config.output = .charSpan)
    (hlabels : ∀ s forms entities s', r.recognize s forms = (.ok entities, s') →
      ∀ e ∈ entities, '>' ∉ e.label.toList)
    {text output : Text} {state : σ} {stats : Stats}
    (h : (r.renderText config text state).1 = .ok (output, stats)) :
    output.stripTags.unescape = text := by
  obtain ⟨pages, s', events, hblocks, hfound, hanswers, hrender, rfl, -⟩ :=
    renderText_eq_ok_iff.mp h
  obtain ⟨markup, hmarkup⟩ : ∃ markup, config.output.markup? = some markup := by
    rcases hinline with hxml | hspan
    · exact ⟨_, by rw [hxml]; rfl⟩
    · exact ⟨_, by rw [hspan]; rfl⟩
  have hin : ∀ page ∈ pages, page.InOrder :=
    fun page hpage => Page.inOrder_of_sentences (hfound page hpage)
  obtain ⟨marks, hwritten, hmarks, hcopied⟩ :=
    Page.exists_marks_renderAll hmarkup hrender (hanswers.labels (p := KeepsTag) hlabels) hin
  calc (Event.written events).stripTags.unescape
      = literals marks := by
        rw [hwritten]
        exact Mark.unescape_stripTags_flatMap_text hmarks
    _ = (Block.ofText text).flatten := by rw [hcopied, hblocks]
    _ = text := Block.flatten_ofText text

/-- So it is with two entities that cross. -/
theorem unescape_stripTags_renderText_crossing :
    let r : Recognizer Unit := ofFunction (fun _ _ => .ok [⟨0, 2, "A"⟩, ⟨1, 2, "B"⟩]) fun _ => []
    let output : Text := "<ne type=\"A\">a <ne type=\"B\">&lt; b</ne></ne>".toList
    (r.renderText { output := .charSpan } "a < b".toList ()).1 = .ok (output, ⟨1, 1, 3, 2⟩) ∧
      output.stripTags.unescape = "a < b".toList := by
  intro r output
  have hlabels : ∀ s forms entities s', r.recognize s forms = (.ok entities, s') →
      ∀ e ∈ entities, '>' ∉ e.label.toList := by
    intro s forms entities s' h
    cases h
    decide
  have h : (r.renderText { output := .charSpan } "a < b".toList ()).1
      = .ok (output, ⟨1, 1, 3, 2⟩) := by decide +kernel
  exact ⟨h, unescape_stripTags_renderText r (Or.inr rfl) hlabels h⟩

end Recognizer

end EntityMarkup
