import EntityMarkup.Proofs.Pipeline.Alike
import EntityMarkup.Proofs.Pipeline.Lossless
import EntityMarkup.Proofs.Render.Counts
import EntityMarkup.Proofs.Render.Rejection
import EntityMarkup.Proofs.Token.Forms

/-!
# Counts agree with what is written

A run counts blocks, sentences, tokens and entities, and each output format shows some of these:
inline formats in their tags, the others in their lines. What a format shows is a matter of what a
sentence adds to it, at constant `Rates`.

Under the policy that reports crossing entities, whether a sentence fails does not depend on the
format. So the runs in all formats go on in step, and count the same.

* `Rates.Hold.adds_renderAll`: what pages add, from what their sentences do.
* `hold_xml`, `hold_charSpan`, `hold_vertical`, `hold_conll`: the rates of each format.
* `inStep_warn`: runs in two formats go on in step.
* **`renderText_counts`**: the runs in all formats, and their counts.
-/

namespace EntityMarkup

open Mark (LabelsAre OpensNoTag shows tagPatterns)
open Text (Adds adds_count occurrences occurrences_singleton)

/-! ## What sentences add to a count -/

/-- Nothing in a finding can be taken for a tag or the end of a line. -/
structure Finding.IsPlain (f : Finding) : Prop where
  nonempty : f.1 ≠ []
  forms : ∀ t ∈ f.1, '\n' ∉ t.form
  tags : ∀ e ∈ f.2, OpensNoTag e.label
  labels : ∀ e ∈ f.2, '\n' ∉ e.label.toList

/-- What each sentence, each token and each entity adds to a count. -/
structure Rates where
  sentence : Nat := 0
  token : Nat := 0
  entity : Nat := 0
  deriving DecidableEq

namespace Rates

/-- What is added in all. -/
def total (k : Rates) (stats : Stats) : Nat :=
  stats.sentences * k.sentence + stats.tokens * k.token + stats.entities * k.entity

/-- The occurrences of a pattern in a format grow at these rates. -/
structure Hold (k : Rates) (output : OutputFormat) (pattern : Text) : Prop where
  sentence : ∀ {r tokens entities events r'}, r.format = output →
    Finding.IsPlain (tokens, entities) → Renderer.sentence r tokens entities = .ok (events, r') →
    Adds pattern (Event.written events) (k.total (Stats.addSentence {} tokens entities))
  finish : ∀ {r}, r.format = output → Adds pattern (Event.written (Renderer.finish r).1) 0

theorem total_addFindings_cons (k : Rates) (f : Finding) (found : List Finding) :
    k.total (Stats.addFindings {} (f :: found))
      = k.total (Stats.addSentence {} f.1 f.2) + k.total (Stats.addFindings {} found) := by
  simp only [total, Stats.addFindings_eq, Stats.addSentence, List.flatMap_cons, List.length_append,
    List.length_cons, Nat.add_mul]
  omega

theorem total_addFindings_append (k : Rates) (xs ys : List Finding) :
    k.total (Stats.addFindings {} (xs ++ ys))
      = k.total (Stats.addFindings {} xs) + k.total (Stats.addFindings {} ys) := by
  simp only [total, Stats.addFindings_eq, List.flatMap_append, List.length_append, Nat.add_mul]
  omega

theorem total_addFindings_nil (k : Rates) : k.total (Stats.addFindings {} []) = 0 := by
  simp [total, Stats.addFindings]

theorem total_addPages (k : Rates) (pages : List Page) :
    k.total (Stats.addPages {} pages)
      = k.total (Stats.addFindings {} (pages.flatMap Page.found)) := by
  rw [Stats.addPages_eq]
  rfl

variable {k : Rates} {config : Config} {pattern : Text} {counter counter' : LineCounter}
  {events : List Event}

theorem Hold.adds_sentences (h : k.Hold config.output pattern) {r r' : Renderer}
    (hformat : r.format = config.output) {found : List Finding} (hplain : ∀ f ∈ found, f.IsPlain)
    (hsentences : r.sentences found = .ok (events, r')) :
    r'.format = config.output ∧
      Adds pattern (Event.written events) (k.total (Stats.addFindings {} found)) := by
  induction found generalizing r events with
  | nil =>
    obtain ⟨rfl, rfl⟩ := Renderer.sentences_nil_eq_ok_iff.mp hsentences
    rw [total_addFindings_nil]
    exact ⟨hformat, .nil pattern⟩
  | cons f rest ih =>
    obtain ⟨hf, hrest⟩ := List.forall_mem_cons.mp hplain
    obtain ⟨first, r₁, more, hfirst, hmore, rfl⟩ := Renderer.sentences_cons_eq_ok_iff.mp hsentences
    have hformat₁ : r₁.format = config.output :=
      (Renderer.settings_of_sentence_eq_ok hfirst).1.trans hformat
    obtain ⟨hformat', hadds⟩ := ih hformat₁ hrest hmore
    rw [Event.written_append, total_addFindings_cons]
    exact ⟨hformat', (h.sentence hformat hf hfirst).append hadds⟩

theorem Hold.adds_render (h : k.Hold config.output pattern) {page : Page}
    (hplain : ∀ f ∈ page.found, f.IsPlain)
    (hrender : page.render config counter = .ok (events, counter')) :
    Adds pattern (Event.written events) (k.total (Stats.addFindings {} page.found)) := by
  obtain ⟨written, renderer, hsentences, rfl, -⟩ := Page.render_eq_ok_iff.mp hrender
  obtain ⟨hformat, hadds⟩ := h.adds_sentences rfl hplain hsentences
  rw [Event.written_append]
  exact hadds.append (h.finish hformat)

/-- **What pages add.** -/
theorem Hold.adds_renderAll (h : k.Hold config.output pattern) {pages : List Page}
    (hplain : ∀ f ∈ pages.flatMap Page.found, f.IsPlain)
    (hrender : Page.renderAll config counter pages = .ok events) :
    Adds pattern (Event.written events) (k.total (Stats.addPages {} pages)) := by
  rw [total_addPages]
  induction pages generalizing counter events with
  | nil =>
    obtain rfl := Except.ok.inj hrender
    rw [List.flatMap_nil, total_addFindings_nil]
    exact .nil pattern
  | cons page rest ih =>
    obtain ⟨first, counter', more, hfirst, hmore, rfl⟩ :=
      Page.renderAll_cons_eq_ok_iff.mp hrender
    rw [List.flatMap_cons] at hplain ⊢
    obtain ⟨hpage, hrest⟩ := List.forall_mem_append.mp hplain
    rw [Event.written_append, total_addFindings_append]
    exact (h.adds_render hpage hfirst).append (ih hrest hmore)

end Rates

/-! ## The rates of each format -/

open Renderer (checkSpans checkSpans_eq_ok_iff finish_inline sentence_inline_eq_ok_iff
  written_of_checkCrossing)

section Inline

variable {r r' : Renderer} {markup : Text → Nat → Sentence → List Entity → List Event × Nat}
  {pattern : Text}

/-- Tags of entities show a pattern or do not, whatever their labels. -/
theorem Mark.countP_beginEntities (hpattern : pattern ∈ tagPatterns) (es : List Entity) :
    ((Entity.sort es).map fun e => Mark.beginEntity e.label).countP (shows pattern)
      = es.length * (shows pattern (.beginEntity "")).toNat := by
  have hall : ∀ label, shows pattern (.beginEntity label) = shows pattern (.beginEntity "") := by
    intro label
    simp only [tagPatterns, List.mem_cons, List.not_mem_nil, or_false] at hpattern
    rcases hpattern with rfl | rfl | rfl | rfl | rfl | rfl <;> rfl
  rw [countP_map_beginEntity hall, (Entity.sort_perm es).length_eq]

theorem adds_finish_inline (hmarkup : r.format.markup? = some markup)
    (hpattern : pattern ∈ tagPatterns) : Adds pattern (Event.written r.finish.1) 0 := by
  have hliteral : ∀ t, shows pattern (.literal t) = false := Mark.shows_literal hpattern
  have hlabels : LabelsAre OpensNoTag (Mark.stretch r.block r.cursor r.block.size) :=
    Mark.labelsAre_stretch _ _ _ _
  have hadds := Mark.adds_flatMap_text hpattern hlabels
  rw [Mark.countP_stretch hliteral] at hadds
  rwa [finish_inline hmarkup, Mark.written_events]

theorem adds_sentence_inline (hmarkup : r.format.markup? = some markup)
    (hpattern : pattern ∈ tagPatterns) {tokens : Sentence} {entities : List Entity}
    {events : List Event} (h : r.sentence tokens entities = .ok (events, r')) {marks : List Mark}
    (hwritten : Event.written (markup r.block r.cursor tokens (Entity.sort entities)).1
      = marks.flatMap Mark.text) (hlabels : LabelsAre OpensNoTag marks) :
    Adds pattern (Event.written events) (marks.countP (shows pattern)) := by
  obtain ⟨-, notice, hnotice, rfl, -⟩ := (sentence_inline_eq_ok_iff hmarkup).mp h
  rw [Event.written_append, (written_of_checkCrossing hnotice).1, List.nil_append, hwritten]
  exact Mark.adds_flatMap_text hpattern hlabels

end Inline

/-- The rates in markup nested by tokens, where all sentences and tokens have tags, and entities
have tags at their beginning. -/
def Rates.nested (pattern : Text) : Rates where
  sentence := [Mark.beginSentence, .endSentence].countP (shows pattern)
  token := [Mark.beginToken, .endToken].countP (shows pattern)
  entity := (shows pattern (.beginEntity "")).toNat

/-- The rates in markup by stretches of text, where all entities have tags. -/
def Rates.flat (pattern : Text) : Rates where
  entity := (shows pattern (.beginEntity "")).toNat + [Mark.endEntity].countP (shows pattern)

/-- Entities need not have a tag at their end in markup nested by tokens, so nothing is said of a
pattern that such a tag shows. -/
theorem hold_xml {pattern : Text} (hpattern : pattern ∈ tagPatterns)
    (hend : shows pattern .endEntity = false) : (Rates.nested pattern).Hold .xml pattern where
  sentence := by
    intro r tokens entities events r' hformat hplain hsentence
    have hmarkup : r.format.markup? = some Nested.render := by rw [hformat]; rfl
    have hspan := checkSpans_eq_ok_iff.mp ((sentence_inline_eq_ok_iff hmarkup).mp hsentence).1
    have hadds := adds_sentence_inline hmarkup hpattern hsentence (Nested.written_render _ _ _ _)
      (Nested.labelsAre_walk fun e he => hplain.tags e (Entity.mem_sort.mp he))
    rw [Nested.countP_sentence (Mark.shows_literal hpattern) hend hspan hplain.nonempty,
      Mark.countP_beginEntities hpattern] at hadds
    simpa [Rates.total, Rates.nested, Stats.addSentence] using hadds
  finish := by
    intro r hformat
    have hmarkup : r.format.markup? = some Nested.render := by rw [hformat]; rfl
    exact adds_finish_inline hmarkup hpattern

theorem hold_charSpan {pattern : Text} (hpattern : pattern ∈ tagPatterns) :
    (Rates.flat pattern).Hold .charSpan pattern where
  sentence := by
    intro r tokens entities events r' hformat hplain hsentence
    have hmarkup : r.format.markup? = some Flat.render := by rw [hformat]; rfl
    have hadds := adds_sentence_inline hmarkup hpattern hsentence (Mark.written_events _)
      (Flat.labelsAre_sentence _ _ _ fun e he => hplain.tags e (Entity.mem_sort.mp he))
    rw [Flat.countP_sentence (Mark.shows_literal hpattern), Mark.countP_beginEntities hpattern,
      (Entity.sort_perm entities).length_eq] at hadds
    simpa [Rates.total, Rates.flat, Stats.addSentence, Nat.mul_add] using hadds
  finish := by
    intro r hformat
    have hmarkup : r.format.markup? = some Flat.render := by rw [hformat]; rfl
    exact adds_finish_inline hmarkup hpattern

/-- The listing has a line for each entity. -/
theorem hold_vertical : Rates.Hold ⟨0, 0, 1⟩ .vertical ['\n'] where
  sentence := by
    intro r tokens entities events r' hformat hplain hsentence
    rw [Renderer.sentence_vertical tokens entities hformat] at hsentence
    obtain ⟨-, -, h⟩ := bind_eq_ok_iff.mp hsentence
    cases h
    have hadds := adds_count '\n'
      (Event.written (Listing.render (r.counter.lines + r.seen + 1) tokens entities))
    rw [Listing.count_render hplain.labels hplain.forms] at hadds
    simpa [Rates.total, Stats.addSentence] using hadds
  finish := by
    intro r hformat
    rw [Renderer.finish, hformat]
    exact .nil _

/-- Tagged sentences have a line for each token, and one line more. -/
theorem hold_conll : Rates.Hold ⟨1, 1, 0⟩ .conll ['\n'] where
  sentence := by
    intro r tokens entities events r' hformat hplain hsentence
    rw [Renderer.sentence_conll tokens entities hformat] at hsentence
    obtain ⟨-, -, h⟩ := bind_eq_ok_iff.mp hsentence
    cases h
    have hadds := adds_count '\n' (Event.written (Outermost.render tokens (Entity.sort entities)))
    rw [Outermost.count_render (fun e he => hplain.labels e (Entity.mem_sort.mp he)) hplain.forms]
      at hadds
    simpa [Rates.total, Stats.addSentence, Nat.add_comm] using hadds
  finish := by
    intro r hformat
    rw [Renderer.finish, hformat]
    exact .nil _

/-! ## Runs in two formats -/

/-- Under the policy that reports crossing entities, a sentence fails only where an entity is no
span of it. -/
theorem Renderer.sentence_warn_eq_error_iff {r : Renderer} (hcrossing : r.crossing = .warn)
    {tokens : Sentence} {entities : List Entity} {error : MarkupError} :
    r.sentence tokens entities = .error error ↔
      checkSpans entities tokens.length = .error error := by
  rw [sentence_eq_error_iff, hcrossing]
  simp [checkCrossing_eq_error_iff]

/-- **Under the policy that reports crossing entities runs in two formats go on in step.** -/
theorem inStep_warn (input : InputFormat) (output output' : OutputFormat) :
    InStep ⟨input, output, .warn⟩ ⟨input, output', .warn⟩ (fun _ _ => True)
      (fun r r' => r.crossing = .warn ∧ r'.crossing = .warn) (fun _ _ => True) where
  input := rfl
  begins := fun _ _ => ⟨rfl, rfl⟩
  sentence := by
    rintro r r' ⟨hcrossing, hcrossing'⟩ tokens entities
    have hfails : ∀ e, r.sentence tokens entities = .error e
        ↔ r'.sentence tokens entities = .error e := fun e =>
      (Renderer.sentence_warn_eq_error_iff hcrossing).trans
        (Renderer.sentence_warn_eq_error_iff hcrossing').symm
    cases hruns : r.sentence tokens entities with
    | error e => exact Or.inl ⟨e, rfl, (hfails e).mp hruns⟩
    | ok rendered =>
      cases hruns' : r'.sentence tokens entities with
      | error e =>
        rw [(hfails e).mpr hruns'] at hruns
        cases hruns
      | ok rendered' =>
        exact Or.inr ⟨_, _, _, _, rfl, rfl, trivial,
          (Renderer.settings_of_sentence_eq_ok hruns).2.trans hcrossing,
          (Renderer.settings_of_sentence_eq_ok hruns').2.trans hcrossing'⟩
  finish := fun _ => ⟨trivial, trivial⟩

/-! ## The counts of a run -/

/-- The counts are those of what is written in each format. -/
structure Stats.AgreeWith (stats : Stats) (output : OutputFormat → Text) : Prop where
  /-- In markup nested by tokens there are tags around sentences, tokens and entities. -/
  beginSentence : occurrences "<sentence>".toList (output .xml) = stats.sentences
  endSentence : occurrences "</sentence>".toList (output .xml) = stats.sentences
  beginToken : occurrences "<token>".toList (output .xml) = stats.tokens
  endToken : occurrences "</token>".toList (output .xml) = stats.tokens
  beginEntity : occurrences "<ne ".toList (output .xml) = stats.entities
  /-- In markup by stretches of text there are tags around entities. -/
  beginSpan : occurrences "<ne ".toList (output .charSpan) = stats.entities
  endSpan : occurrences "</ne>".toList (output .charSpan) = stats.entities
  /-- The listing has a line for each entity. -/
  lines_vertical : (output .vertical).count '\n' = stats.entities
  /-- Tagged text has a line for each token, and an empty one for each sentence. -/
  lines_conll : (output .conll).count '\n' = stats.tokens + stats.sentences

/-- What is found in the sentences of a block is plain if its labels are. -/
theorem Page.isPlain_of_sentences {input : InputFormat} {page : Page}
    (hfound : page.found.map Prod.fst = input.sentences page.block)
    (hlabels : ∀ f ∈ page.found, ∀ e ∈ f.2, '<' ∉ e.label.toList ∧ '\n' ∉ e.label.toList) :
    ∀ f ∈ page.found, f.IsPlain := by
  intro f hf
  have hmem : f.1 ∈ input.sentences page.block := hfound ▸ List.mem_map_of_mem hf
  exact ⟨InputFormat.ne_nil_of_mem_sentences hmem,
    fun t ht => InputFormat.lineFeed_not_mem_form hmem ht,
    fun e he => (hlabels f hf e he).1, fun e he => (hlabels f hf e he).2⟩

namespace Recognizer

variable {σ : Type} {r : Recognizer σ} {config : Config} {text : Text} {state : σ}

/-- A text is marked up as the course over it tells. -/
theorem fst_renderText (r : Recognizer σ) (config : Config) (text : Text) (state : σ) :
    (r.renderText config text state).1 =
      match (r.course config text.utf8 state).ending.1 with
      | .ok stats => .ok (Event.written (r.course config text.utf8 state).events, stats)
      | .error e => .error e := by
  rw [renderText, process_eq_play, Course.play_of_room_none _ rfl]
  cases (r.course config text.utf8 state).ending.1 with
  | error e => rfl
  | ok stats => simp only [Sink.text?_record]

/-- **Under the policy that reports crossing entities, the runs in all formats fail alike or count
alike.** -/
theorem renderText_formats {f : List Text → Except MarkupError (List Entity)}
    (hpure : ∀ s forms, (r.recognize s forms).1 = f forms) (input : InputFormat) (text : Text)
    (state : σ) :
    (∃ e, ∀ o, (r.renderText ⟨input, o, .warn⟩ text state).1 = .error e) ∨
      ∃ (stats : Stats) (output : OutputFormat → Text),
        ∀ o, (r.renderText ⟨input, o, .warn⟩ text state).1 = .ok (output o, stats) := by
  have halike : ∀ o, Course.Alike (fun _ _ => True) {} (fun s s' => s' = ({} : Stats) + s)
      (r.course ⟨input, .xml, .warn⟩ text.utf8 state)
      (r.course ⟨input, o, .warn⟩ text.utf8 state) :=
    fun o => (inStep_warn input .xml o).statsCourse hpure trivial _ {} state state {}
  cases hending : (r.course ⟨input, .xml, .warn⟩ text.utf8 state).ending.1 with
  | error e =>
    refine Or.inl ⟨e, fun o => ?_⟩
    rw [fst_renderText]
    rcases (halike o).ending.2 with ⟨e', he, he'⟩ | ⟨a, b, ha, -, -⟩
    · rw [hending] at he
      cases he
      rw [he']
    · rw [hending] at ha
      cases ha
  | ok stats =>
    refine Or.inr ⟨stats,
      fun o => Event.written (r.course ⟨input, o, .warn⟩ text.utf8 state).events, fun o => ?_⟩
    rw [fst_renderText]
    rcases (halike o).ending.2 with ⟨e', he, -⟩ | ⟨a, b, ha, hb, hab⟩
    · rw [hending] at he
      cases he
    · rw [hending] at ha
      cases ha
      rw [hb, hab, Stats.empty_add]

section Labels

variable (hlabels : ∀ s forms entities s', r.recognize s forms = (.ok entities, s') →
  ∀ e ∈ entities, '<' ∉ e.label.toList ∧ '\n' ∉ e.label.toList)

include hlabels

/-- What occurs in the output, from what its sentences add. -/
theorem occurrences_renderText {k : Rates} {pattern : Text} (h : k.Hold config.output pattern)
    {output : Text} {stats : Stats}
    (hrun : (r.renderText config text state).1 = .ok (output, stats)) :
    occurrences pattern output = k.total stats := by
  obtain ⟨pages, s', events, -, hfound, hanswers, hrender, rfl, rfl⟩ := renderText_eq_ok_iff.mp hrun
  have hanswered := hanswers.labels
    (p := fun label => '<' ∉ label.toList ∧ '\n' ∉ label.toList) hlabels
  have hplain : ∀ f ∈ pages.flatMap Page.found, f.IsPlain := by
    intro f hf
    obtain ⟨page, hpage, hf⟩ := List.mem_flatMap.mp hf
    refine Page.isPlain_of_sentences (hfound page hpage) (fun f hf => ?_) f hf
    exact hanswered f (List.mem_flatMap.mpr ⟨page, hpage, hf⟩)
  exact (h.adds_renderAll hplain hrender).occurrences_eq

/-- **Counts agree with what is written**: under the policy that reports crossing entities, the runs
over a text in the four output formats fail alike, or count alike; and then the counts are those of
what is written, in each of them. -/
theorem renderText_counts {f : List Text → Except MarkupError (List Entity)}
    (hpure : ∀ s forms, (r.recognize s forms).1 = f forms) (input : InputFormat) (text : Text)
    (state : σ) :
    (∃ e, ∀ o, (r.renderText ⟨input, o, .warn⟩ text state).1 = .error e) ∨
      ∃ (stats : Stats) (output : OutputFormat → Text),
        (∀ o, (r.renderText ⟨input, o, .warn⟩ text state).1 = .ok (output o, stats)) ∧
        stats.blocks = (Block.items text.utf8).length ∧ stats.AgreeWith output := by
  rcases renderText_formats hpure input text state with hfails | ⟨stats, output, hruns⟩
  · exact Or.inl hfails
  · have hxml : ∀ pattern ∈ tagPatterns, shows pattern .endEntity = false →
        ∀ k, Rates.nested pattern = k → occurrences pattern (output .xml) = k.total stats := by
      rintro pattern hpattern hend k rfl
      exact occurrences_renderText hlabels (hold_xml hpattern hend) (hruns .xml)
    have hspans : ∀ pattern ∈ tagPatterns, ∀ k, Rates.flat pattern = k →
        occurrences pattern (output .charSpan) = k.total stats := by
      rintro pattern hpattern k rfl
      exact occurrences_renderText hlabels (hold_charSpan hpattern) (hruns .charSpan)
    have hlisted := occurrences_renderText hlabels hold_vertical (hruns .vertical)
    have htagged := occurrences_renderText hlabels hold_conll (hruns .conll)
    rw [occurrences_singleton] at hlisted htagged
    refine Or.inr ⟨stats, output, hruns, ?_, ?_⟩
    · obtain ⟨pages, s', events, hblocks, -, -, -, -, rfl⟩ := renderText_eq_ok_iff.mp (hruns .xml)
      rw [Block.items_utf8, List.length_map, ← hblocks, List.length_map, Stats.addPages_eq]
      exact Nat.zero_add _
    · exact {
        beginSentence := (hxml _ (by decide) rfl ⟨1, 0, 0⟩ rfl).trans (by simp [Rates.total])
        endSentence := (hxml _ (by decide) rfl ⟨1, 0, 0⟩ rfl).trans (by simp [Rates.total])
        beginToken := (hxml _ (by decide) rfl ⟨0, 1, 0⟩ rfl).trans (by simp [Rates.total])
        endToken := (hxml _ (by decide) rfl ⟨0, 1, 0⟩ rfl).trans (by simp [Rates.total])
        beginEntity := (hxml _ (by decide) rfl ⟨0, 0, 1⟩ rfl).trans (by simp [Rates.total])
        beginSpan := (hspans _ (by decide) ⟨0, 0, 1⟩ rfl).trans (by simp [Rates.total])
        endSpan := (hspans _ (by decide) ⟨0, 0, 1⟩ rfl).trans (by simp [Rates.total])
        lines_vertical := by simpa [Rates.total] using hlisted
        lines_conll := by simpa [Rates.total, Nat.add_comm] using htagged }

end Labels

/-- So it is with entities that cross, one of them given twice. -/
theorem renderText_counts_crossing :
    let r : Recognizer Unit :=
      ofFunction (fun _ _ => .ok [⟨0, 2, "A"⟩, ⟨1, 2, "B"⟩, ⟨1, 2, "B"⟩]) fun _ => []
    ∃ output : OutputFormat → Text,
      (∀ o, (r.renderText ⟨.untokenized, o, .warn⟩ "a < b\n\n".toList ()).1
        = .ok (output o, ⟨1, 1, 3, 3⟩)) ∧
      Stats.AgreeWith ⟨1, 1, 3, 3⟩ output := by
  intro r
  have hlabels : ∀ s forms entities s', r.recognize s forms = (.ok entities, s') →
      ∀ e ∈ entities, '<' ∉ e.label.toList ∧ '\n' ∉ e.label.toList := by
    intro s forms entities s' h
    cases h
    decide
  have h : (r.renderText ⟨.untokenized, .charSpan, .warn⟩ "a < b\n\n".toList ()).1
      = .ok ("<ne type=\"A\">a <ne type=\"B\"><ne type=\"B\">&lt; b</ne></ne></ne>\n\n".toList,
        ⟨1, 1, 3, 3⟩) := by decide +kernel
  rcases renderText_counts hlabels (fun _ _ => rfl) .untokenized "a < b\n\n".toList ()
    with ⟨e, hfails⟩ | ⟨stats, output, hruns, -, hagree⟩
  · rw [hfails] at h
    cases h
  · obtain rfl : stats = ⟨1, 1, 3, 3⟩ := by
      rw [hruns] at h
      exact (Prod.mk.inj (Except.ok.inj h)).2
    exact ⟨output, hruns, hagree⟩

end Recognizer

end EntityMarkup
