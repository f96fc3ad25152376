import EntityMarkup.Proofs.Pipeline.Lossless
import EntityMarkup.Proofs.Render.Agreement

/-!
# The inline formats agree

A run that writes tags around tokens and rejects crossing entities, and one that writes tags in the
text and does the same, are asked to do the same things: they read the same blocks, find the same
sentences, ask the recognizer the same questions in the same order, and check the same entities.
What they write differs in the tags of sentences and tokens only.

At any time the second run may not have copied as much of the block as the first (`Trails`). What
both have written is then the same up to what the second has still to copy (`SameText`), and nothing
is left of that when a block has ended.

* `SameText.append`: what is written after the same text goes on from there.
* `sentence_charSpan_of_xml`, `sentences_charSpan_of_xml`: a sentence, and all of a block.
* `render_charSpan_of_xml`, `renderAll_charSpan_of_xml`: pages.
* **`renderText_charSpan_of_xml`**: the output in one format is that in the other with the tags of
  sentences and tokens deleted.
-/

namespace EntityMarkup

open Mark (deleteTokenTags OpensNoTag)

/-! ## Two runs side by side -/

/-- Of two runs over a block the second has copied no more of it than the first. -/
structure Trails (block : Text) (copied cursor : Nat) : Prop where
  isBoundary_copied : block.IsBoundary copied
  isBoundary_cursor : block.IsBoundary cursor
  copied_le : copied ≤ cursor

/-- What two runs write is the same, when from the first all tags of sentences and tokens are
deleted, and what the second has not copied yet is put in front of the first and behind the second.
The runs have copied the block up to `cursor` and `copied` before, and up to `cursor'` and `copied'`
afterwards. -/
def SameText (block : Text) (copied cursor : Nat) (events events' : List Event)
    (copied' cursor' : Nat) : Prop :=
  ∀ rest, (block.slice copied cursor).escape ++ deleteTokenTags (Event.written events ++ rest)
    = Event.written events' ++ ((block.slice copied' cursor').escape ++ deleteTokenTags rest)

section SameText

variable {block : Text} {copied cursor copied₁ cursor₁ copied₂ cursor₂ : Nat}
  {events events' more more' : List Event}

theorem SameText.nil : SameText block copied cursor [] [] copied cursor :=
  fun _ => rfl

theorem SameText.append (h : SameText block copied cursor events events' copied₁ cursor₁)
    (hmore : SameText block copied₁ cursor₁ more more' copied₂ cursor₂) :
    SameText block copied cursor (events ++ more) (events' ++ more') copied₂ cursor₂ := by
  intro rest
  rw [Event.written_append, List.append_assoc, h, hmore, Event.written_append, List.append_assoc]

/-- Runs that have copied a block equally far write the same, but for tags. -/
theorem SameText.written_eq (h : SameText block cursor cursor events events' cursor₁ cursor₁)
    (rest : Text) :
    deleteTokenTags (Event.written events ++ rest)
      = Event.written events' ++ deleteTokenTags rest := by
  have hall := h rest
  rwa [Text.slice_self, Text.slice_self, Text.escape_nil, List.nil_append, List.nil_append] at hall

end SameText

/-! ## Sentences -/

namespace Renderer

/-- A renderer that writes tags in the text instead, and has copied the block up to an offset. -/
def asCharSpan (r : Renderer) (copied : Nat) : Renderer :=
  { r with format := .charSpan, cursor := copied }

variable {r r' : Renderer} {n copied : Nat} {events : List Event}

/-- A sentence that does not fail in one format does not fail in the other. -/
theorem sentence_charSpan_of_xml (hformat : r.format = .xml) (hcrossing : r.crossing = .reject)
    {tokens : Sentence} {entities : List Entity}
    (h : r.sentence tokens entities = .ok (events, r'))
    (hlabels : ∀ e ∈ entities, OpensNoTag e.label)
    (hin : r.block.InOrder n (tokens.map Token.range)) (hn : r.cursor ≤ n)
    (htrails : Trails r.block copied r.cursor) :
    ∃ events' copied',
      (r.asCharSpan copied).sentence tokens entities = .ok (events', r'.asCharSpan copied') ∧
      r' = { r with cursor := r'.cursor } ∧
      r'.cursor ≤ Text.reach n (tokens.map Token.range) ∧
      Trails r.block copied' r'.cursor ∧
      SameText r.block copied r.cursor events events' copied' r'.cursor := by
  have hmarkup : r.format.markup? = some Nested.render := by rw [hformat]; rfl
  obtain ⟨hspans, notice, hnotice, rfl, rfl⟩ := (sentence_inline_eq_ok_iff hmarkup).mp h
  rw [hcrossing] at hnotice
  obtain ⟨hnone, rfl⟩ := checkCrossing_reject_eq_ok_iff.mp hnotice
  have hspan := checkSpans_eq_ok_iff.mp hspans
  let nested := Nested.sentence r.block r.cursor tokens (Entity.sort entities)
  let flat := Flat.sentence r.block copied tokens (Entity.sort entities)
  have hnested : Mark.Copies r.block r.cursor nested.cursor
      (Text.reach n (tokens.map Token.range)) nested.marks :=
    Nested.copies_walk htrails.isBoundary_cursor hn hin
  have hflat : Mark.Copies r.block copied flat.cursor nested.cursor flat.marks := by
    have horder : r.block.InOrder r.cursor (tokens.map Token.range) := hin.mono hn
    have hreach : nested.cursor = Text.reach r.cursor (tokens.map Token.range) :=
      Nested.cursor_walk
    rw [hreach]
    exact Flat.copies_sentence horder (fun e he => hspan e (Entity.mem_sort.mp he))
      htrails.isBoundary_copied htrails.copied_le
  have hmarks : Mark.LabelsAre OpensNoTag nested.marks :=
    Nested.labelsAre_walk fun e he => hlabels e (Entity.mem_sort.mp he)
  have hshared : (r.block.slice copied r.cursor).escape
      ++ (nested.marks.filter Mark.isShared).flatMap Mark.text
        = flat.marks.flatMap Mark.text ++ (r.block.slice flat.cursor nested.cursor).escape :=
    Nested.text_shared_sentence hin hspan hnone htrails.isBoundary_copied htrails.isBoundary_cursor
      htrails.copied_le hn
  have hsentence : (r.asCharSpan copied).sentence tokens entities
      = .ok (Mark.events flat.marks, r.asCharSpan flat.cursor) :=
    (sentence_inline_eq_ok_iff (r := r.asCharSpan copied) rfl).mpr
      ⟨hspans, [], checkCrossing_of_none hnone, rfl, rfl⟩
  refine ⟨Mark.events flat.marks, flat.cursor, hsentence, rfl, hnested.le_bound,
    ⟨hflat.isBoundary, hnested.isBoundary, hflat.le_bound⟩, fun rest => ?_⟩
  rw [List.nil_append, Nested.written_render, Mark.deleteTokenTags_flatMap_text_append hmarks,
    ← List.append_assoc, hshared, Mark.written_events, List.append_assoc]
  rfl

/-- **The sentences of a block that do not fail in one format do not fail in the other.** -/
theorem sentences_charSpan_of_xml (hformat : r.format = .xml) (hcrossing : r.crossing = .reject)
    {found : List Finding} (h : r.sentences found = .ok (events, r'))
    (hlabels : ∀ f ∈ found, ∀ e ∈ f.2, OpensNoTag e.label)
    (hin : r.block.InOrder n ((found.map Prod.fst).flatten.map Token.range)) (hn : r.cursor ≤ n)
    (htrails : Trails r.block copied r.cursor) :
    ∃ events' copied',
      (r.asCharSpan copied).sentences found = .ok (events', r'.asCharSpan copied') ∧
      r' = { r with cursor := r'.cursor } ∧
      Trails r.block copied' r'.cursor ∧
      SameText r.block copied r.cursor events events' copied' r'.cursor := by
  induction found generalizing r n copied events with
  | nil =>
    obtain ⟨rfl, rfl⟩ := sentences_nil_eq_ok_iff.mp h
    exact ⟨[], copied, rfl, rfl, htrails, SameText.nil⟩
  | cons f found ih =>
    obtain ⟨first, r₁, more, hfirst, hmore, rfl⟩ := sentences_cons_eq_ok_iff.mp h
    obtain ⟨hf, hrest⟩ := List.forall_mem_cons.mp hlabels
    rw [List.map_cons, List.flatten_cons, List.map_append, Text.inOrder_append] at hin
    obtain ⟨events₁, copied₁, hfirst', hr₁, hbound, htrails₁, hsame₁⟩ :=
      sentence_charSpan_of_xml hformat hcrossing hfirst hf hin.1 hn htrails
    obtain ⟨cursor, rfl⟩ : ∃ cursor, r₁ = { r with cursor } := ⟨_, hr₁⟩
    obtain ⟨events₂, copied₂, hmore', hr₂, htrails₂, hsame₂⟩ :=
      ih (r := { r with cursor }) hformat hcrossing hmore hrest hin.2 hbound htrails₁
    exact ⟨events₁ ++ events₂, copied₂,
      sentences_cons_eq_ok_iff.mpr ⟨events₁, _, events₂, hfirst', hmore', rfl⟩, hr₂, htrails₂,
      hsame₁.append hsame₂⟩

/-- When a block has ended, both runs have copied all of it. -/
theorem sameText_finish (hformat : r.format = .xml) (htrails : Trails r.block copied r.cursor) :
    SameText r.block copied r.cursor r.finish.1 (r.asCharSpan copied).finish.1 r.block.size
      r.block.size := by
  intro rest
  have hmarkup : r.format.markup? = some Nested.render := by rw [hformat]; rfl
  have hmarkup' : (r.asCharSpan copied).format.markup? = some Flat.render := rfl
  have hend : (r.block.slice copied r.cursor).escape
      ++ (r.block.slice r.cursor r.block.size).escape
        = (r.block.slice copied r.block.size).escape := by
    rw [← Text.escape_append, Text.slice_append_slice htrails.isBoundary_copied
      htrails.isBoundary_cursor (Text.isBoundary_size _) htrails.copied_le
      htrails.isBoundary_cursor.le_size]
  rw [finish_inline hmarkup, finish_inline hmarkup', Mark.written_events, Mark.written_events,
    Mark.flatMap_text_stretch, Mark.flatMap_text_stretch,
    Mark.deleteTokenTags_append (Text.not_mem_escape (Or.inl rfl) _), ← List.append_assoc, hend,
    Text.slice_self]
  rfl

end Renderer

/-! ## Pages -/

namespace Page

variable {input : InputFormat} {counter counter' : LineCounter} {events : List Event}

theorem render_charSpan_of_xml {page : Page}
    (h : page.render ⟨input, .xml, .reject⟩ counter = .ok (events, counter'))
    (hlabels : ∀ f ∈ page.found, ∀ e ∈ f.2, OpensNoTag e.label) (hin : page.InOrder) :
    ∃ events', page.render ⟨input, .charSpan, .reject⟩ counter = .ok (events', counter') ∧
      ∀ rest, deleteTokenTags (Event.written events ++ rest)
        = Event.written events' ++ deleteTokenTags rest := by
  obtain ⟨written, r', hsentences, rfl, rfl⟩ := render_eq_ok_iff.mp h
  have hzero := Text.isBoundary_zero page.block
  obtain ⟨written', copied, hsentences', hr', htrails, hsame⟩ :=
    Renderer.sentences_charSpan_of_xml rfl rfl hsentences hlabels hin (le_refl 0)
      ⟨hzero, hzero, le_refl 0⟩
  obtain ⟨cursor, rfl⟩ : ∃ cursor,
      r' = ⟨.xml, .reject, page.block, counter, cursor, 0⟩ := ⟨_, hr'⟩
  have hfinish := Renderer.sameText_finish
    (r := ⟨.xml, .reject, page.block, counter, cursor, 0⟩) rfl htrails
  exact ⟨_, render_eq_ok_iff.mpr ⟨written', _, hsentences', rfl, rfl⟩,
    (hsame.append hfinish).written_eq⟩

theorem renderAll_charSpan_of_xml {pages : List Page}
    (h : renderAll ⟨input, .xml, .reject⟩ counter pages = .ok events)
    (hlabels : ∀ f ∈ pages.flatMap found, ∀ e ∈ f.2, OpensNoTag e.label)
    (hin : ∀ page ∈ pages, page.InOrder) :
    ∃ events', renderAll ⟨input, .charSpan, .reject⟩ counter pages = .ok events' ∧
      deleteTokenTags (Event.written events) = Event.written events' := by
  induction pages generalizing counter events with
  | nil =>
    obtain rfl := Except.ok.inj h
    exact ⟨[], rfl, Text.rewriteAll_nil _⟩
  | cons page rest ih =>
    obtain ⟨first, counter', more, hfirst, hmore, rfl⟩ := renderAll_cons_eq_ok_iff.mp h
    obtain ⟨hpage, hrest⟩ := List.forall_mem_cons.mp hin
    rw [List.flatMap_cons] at hlabels
    obtain ⟨hlabel, hlabels⟩ := List.forall_mem_append.mp hlabels
    obtain ⟨events₁, hfirst', hwritten₁⟩ := render_charSpan_of_xml hfirst hlabel hpage
    obtain ⟨events₂, hmore', hwritten₂⟩ := ih hmore hlabels hrest
    refine ⟨events₁ ++ events₂,
      renderAll_cons_eq_ok_iff.mpr ⟨events₁, counter', events₂, hfirst', hmore', rfl⟩, ?_⟩
    rw [Event.written_append, hwritten₁, hwritten₂, Event.written_append]

end Page

/-! ## Texts -/

namespace Recognizer

/-- **The inline formats agree**: if a text can be marked up with tags around its tokens, crossing
entities being rejected, it can be marked up with tags in the text too, and that output is the first
with all tags of sentences and tokens deleted. -/
theorem renderText_charSpan_of_xml {σ : Type} (r : Recognizer σ) {input : InputFormat}
    (hlabels : ∀ s forms entities s', r.recognize s forms = (.ok entities, s') →
      ∀ e ∈ entities, '<' ∉ e.label.toList)
    {text output : Text} {state : σ} {stats : Stats}
    (h : (r.renderText ⟨input, .xml, .reject⟩ text state).1 = .ok (output, stats)) :
    (r.renderText ⟨input, .charSpan, .reject⟩ text state).1
      = .ok (deleteTokenTags output, stats) := by
  obtain ⟨pages, s', events, hblocks, hfound, hanswers, hrender, rfl, rfl⟩ :=
    renderText_eq_ok_iff.mp h
  have hin : ∀ page ∈ pages, page.InOrder :=
    fun page hpage => Page.inOrder_of_sentences (hfound page hpage)
  obtain ⟨events', hrender', hwritten⟩ :=
    Page.renderAll_charSpan_of_xml hrender (hanswers.labels hlabels) hin
  exact renderText_eq_ok_iff.mpr
    ⟨pages, s', events', hblocks, hfound, hanswers, hrender', hwritten, rfl⟩

/-- So it is with an entity inside another, where both end together. -/
theorem renderText_charSpan_of_xml_inner :
    let r : Recognizer Unit := ofFunction (fun _ _ => .ok [⟨0, 2, "A"⟩, ⟨1, 1, "B"⟩]) fun _ => []
    let output : Text :=
      "<sentence><ne type=\"A\"><token>a</token> <ne type=\"B\"><token>&lt;</token></ne></ne></sentence>".toList
    (r.renderText ⟨.untokenized, .xml, .reject⟩ "a <".toList ()).1 = .ok (output, ⟨1, 1, 2, 2⟩) ∧
      (r.renderText ⟨.untokenized, .charSpan, .reject⟩ "a <".toList ()).1
        = .ok (deleteTokenTags output, ⟨1, 1, 2, 2⟩) := by
  intro r output
  have hlabels : ∀ s forms entities s', r.recognize s forms = (.ok entities, s') →
      ∀ e ∈ entities, '<' ∉ e.label.toList := by
    intro s forms entities s' h
    cases h
    decide
  have h : (r.renderText ⟨.untokenized, .xml, .reject⟩ "a <".toList ()).1
      = .ok (output, ⟨1, 1, 2, 2⟩) := by decide +kernel
  exact ⟨h, renderText_charSpan_of_xml r hlabels h⟩

end Recognizer

end EntityMarkup
