import EntityMarkup.Pipeline
import EntityMarkup.Proofs.Block.Reading
import EntityMarkup.Proofs.Render.Sentences
import EntityMarkup.Proofs.Render.Sinks
import EntityMarkup.Proofs.Token.InOrder

/-!
# What a run comes to

A run asks the recognizer, renders and writes by turns. If it succeeds, and the sink has no limit,
the turns do not matter: the recognizer has answered for every sentence of every block, the
sentences of each block have been rendered with its answers, and all that this wrote is in the sink.
A `Page` is a block with what was found in it, so a successful run is one that has pages.

* `renderSentences_eq_ok_iff`, `renderBlock_eq_ok_iff`, `renderItems_eq_ok_iff`: the parts of a run.
* **`process_eq_ok_iff`**, `renderText_eq_ok_iff`: a text is marked up exactly if there are pages
  for its blocks, and then the output is what the pages are rendered as.
-/

namespace EntityMarkup

/-! ## Pages -/

/-- A block with the sentences in it and what was found in each of them. -/
structure Page where
  block : Text
  found : List Finding

namespace Stats

/-- Counts sentences with what was found in them. -/
def addFindings (s : Stats) (found : List Finding) : Stats :=
  found.foldl (fun s f => s.addSentence f.1 f.2) s

/-- Counts pages. -/
def addPages (s : Stats) (pages : List Page) : Stats :=
  pages.foldl (fun s page => (s.addFindings page.found).addBlock) s

/-- Each sentence counts, with its tokens and with what was found in it. -/
theorem addFindings_eq (s : Stats) (found : List Finding) :
    s.addFindings found =
      ⟨s.blocks, s.sentences + found.length, s.tokens + (found.flatMap Prod.fst).length,
        s.entities + (found.flatMap Prod.snd).length⟩ := by
  induction found generalizing s with
  | nil => rfl
  | cons f rest ih =>
    rw [addFindings, List.foldl_cons, ← addFindings, ih]
    simp [addSentence, Nat.add_assoc, Nat.add_comm 1]

/-- Each page counts, with what is on it. -/
theorem addPages_eq (s : Stats) (pages : List Page) :
    s.addPages pages = { s.addFindings (pages.flatMap Page.found) with
      blocks := s.blocks + pages.length } := by
  induction pages generalizing s with
  | nil => rfl
  | cons page rest ih =>
    rw [addPages, List.foldl_cons, ← addPages, ih, addFindings_eq, addFindings_eq, addFindings_eq]
    simp [addBlock, Nat.add_assoc, Nat.add_comm 1]

end Stats

namespace Page

/-- Renders a page. -/
def render (config : Config) (counter : LineCounter) (page : Page) :
    Except MarkupError (List Event × LineCounter) := do
  let renderer : Renderer := ⟨config.output, config.crossing, page.block, counter, 0, 0⟩
  let (events, renderer) ← renderer.sentences page.found
  return (events ++ renderer.finish.1, renderer.finish.2)

/-- Renders pages one after the other, up to the first that fails. -/
def renderAll (config : Config) (counter : LineCounter) :
    List Page → Except MarkupError (List Event)
  | [] => return []
  | page :: rest => do
    let (events, counter) ← page.render config counter
    let more ← renderAll config counter rest
    return events ++ more

/-- The tokens of a page lie in order in its block. -/
def InOrder (page : Page) : Prop :=
  page.block.InOrder 0 ((page.found.map Prod.fst).flatten.map Token.range)

/-- So they do where the sentences are those of the block. -/
theorem inOrder_of_sentences {input : InputFormat} {page : Page}
    (h : page.found.map Prod.fst = input.sentences page.block) : page.InOrder := by
  rw [InOrder, h]
  exact input.inOrder_sentences page.block

theorem render_eq_ok_iff {config : Config} {counter counter' : LineCounter} {page : Page}
    {events : List Event} :
    page.render config counter = .ok (events, counter') ↔
      ∃ written renderer,
        Renderer.sentences ⟨config.output, config.crossing, page.block, counter, 0, 0⟩ page.found
          = .ok (written, renderer) ∧
        events = written ++ renderer.finish.1 ∧ counter' = renderer.finish.2 := by
  rw [render, bind_eq_ok_iff]
  constructor
  · rintro ⟨⟨written, renderer⟩, h, hrest⟩
    cases hrest
    exact ⟨written, renderer, h, rfl, rfl⟩
  · rintro ⟨written, renderer, h, rfl, rfl⟩
    exact ⟨(written, renderer), h, rfl⟩

theorem renderAll_cons_eq_ok_iff {config : Config} {counter : LineCounter} {page : Page}
    {rest : List Page} {events : List Event} :
    renderAll config counter (page :: rest) = .ok events ↔
      ∃ first counter' more, page.render config counter = .ok (first, counter') ∧
        renderAll config counter' rest = .ok more ∧ events = first ++ more := by
  rw [renderAll, bind_eq_ok_iff]
  constructor
  · rintro ⟨⟨first, counter'⟩, hfirst, h⟩
    obtain ⟨more, hmore, hrest⟩ := bind_eq_ok_iff.mp h
    cases hrest
    exact ⟨first, counter', more, hfirst, hmore, rfl⟩
  · rintro ⟨first, counter', more, hfirst, hmore, rfl⟩
    exact ⟨(first, counter'), hfirst, bind_eq_ok_iff.mpr ⟨more, hmore, rfl⟩⟩

end Page

/-! ## The parts of a run -/

namespace Recognizer

variable {σ : Type} {r : Recognizer σ} {config : Config} {p' : Progress σ} {state : σ} {sink : Sink}
  {stats : Stats}

/-- The recognizer answers a list of sentences with what was found in them, and goes from one state
to another. -/
def Answers (r : Recognizer σ) : σ → List Finding → σ → Prop
  | s, [], s' => s' = s
  | s, f :: rest, s' => ∃ s₁, r.recognize s f.1.forms = (.ok f.2, s₁) ∧ r.Answers s₁ rest s'

theorem answers_append {s s' : σ} {xs ys : List Finding} :
    r.Answers s (xs ++ ys) s' ↔ ∃ s₁, r.Answers s xs s₁ ∧ r.Answers s₁ ys s' := by
  induction xs generalizing s with
  | nil => simp [Answers]
  | cons f xs ih =>
    simp only [List.cons_append, Answers, ih]
    constructor
    · rintro ⟨s₁, h, s₂, hxs, hys⟩
      exact ⟨s₂, ⟨s₁, h, hxs⟩, hys⟩
    · rintro ⟨s₂, ⟨s₁, h, hxs⟩, hys⟩
      exact ⟨s₁, h, s₂, hxs, hys⟩

theorem emit_of_room_none (h : sink.room = none) (state : σ) (stats : Stats)
    (events : List Event) : Progress.emit ⟨state, sink, stats⟩ events
      = (.ok (), ⟨state, sink.record events, stats⟩) := by
  rw [Progress.emit, Sink.acceptAll_of_room_none h]
  rfl

/-- Nothing is handed to the sink of a sentence that fails, and the run ends with it. -/
theorem renderSentences_cons (r : Recognizer σ) (renderer : Renderer) (tokens : Sentence)
    (rest : List Sentence) (p : Progress σ) :
    r.renderSentences renderer (tokens :: rest) p =
      match r.recognize p.state tokens.forms with
      | (.error e, state) => (.error e, { p with state })
      | (.ok entities, state) =>
        let p := { p with state, stats := p.stats.addSentence tokens entities }
        match renderer.sentence tokens entities with
        | .error e => (.error e, p)
        | .ok (events, renderer) =>
          match p.emit events with
          | (.error e, p) => (.error e, p)
          | (.ok (), p) => r.renderSentences renderer rest p := by
  rw [renderSentences]
  rcases r.recognize p.state tokens.forms with ⟨e | entities, state⟩
  · rfl
  · simp only [Renderer.call_eq_allOrNothing]
    cases renderer.sentence tokens entities with
    | error e => rfl
    | ok rendered =>
      simp only [Renderer.allOrNothing]
      cases Progress.emit ⟨state, p.sink, p.stats.addSentence tokens entities⟩ rendered.1 with
      | mk result p => cases result <;> rfl

theorem renderSentences_append (r : Recognizer σ) (renderer : Renderer) (xs ys : List Sentence)
    (p : Progress σ) :
    r.renderSentences renderer (xs ++ ys) p =
      match r.renderSentences renderer xs p with
      | (.ok renderer, p) => r.renderSentences renderer ys p
      | (.error e, p) => (.error e, p) := by
  induction xs generalizing renderer p with
  | nil => rfl
  | cons tokens rest ih =>
    rw [List.cons_append, renderSentences_cons, renderSentences_cons]
    cases r.recognize p.state tokens.forms with
    | mk answer state =>
      cases answer with
      | error e => rfl
      | ok entities =>
        simp only
        cases renderer.sentence tokens entities with
        | error e => rfl
        | ok rendered =>
          simp only
          cases Progress.emit ⟨state, p.sink, p.stats.addSentence tokens entities⟩ rendered.1 with
          | mk result p =>
            cases result with
            | error e => rfl
            | ok u => exact ih rendered.2 p

theorem renderSentences_cons_eq_ok_iff {renderer renderer' : Renderer} {tokens : Sentence}
    {rest : List Sentence} (hroom : sink.room = none) :
    r.renderSentences renderer (tokens :: rest) ⟨state, sink, stats⟩ = (.ok renderer', p') ↔
      ∃ entities s₁ events renderer₁, r.recognize state tokens.forms = (.ok entities, s₁) ∧
        renderer.sentence tokens entities = .ok (events, renderer₁) ∧
        r.renderSentences renderer₁ rest
          ⟨s₁, sink.record events, stats.addSentence tokens entities⟩ = (.ok renderer', p') := by
  rw [renderSentences_cons]
  constructor
  · intro h
    split at h
    · cases h
    · rename_i entities s₁ hrecognize
      simp only at h
      split at h
      · cases h
      · rename_i events renderer₁ hsentence
        rw [emit_of_room_none hroom] at h
        exact ⟨entities, s₁, events, renderer₁, hrecognize, hsentence, h⟩
  · rintro ⟨entities, s₁, events, renderer₁, hrecognize, hsentence, h⟩
    simp only [hrecognize, hsentence, emit_of_room_none hroom]
    exact h

/-- The sentences of a block are rendered exactly if the recognizer answers for each of them and
none of the answers is an error to render. -/
theorem renderSentences_eq_ok_iff {renderer renderer' : Renderer} {sentences : List Sentence}
    (hroom : sink.room = none) :
    r.renderSentences renderer sentences ⟨state, sink, stats⟩ = (.ok renderer', p') ↔
      ∃ found s' events, found.map Prod.fst = sentences ∧ r.Answers state found s' ∧
        renderer.sentences found = .ok (events, renderer') ∧
        p' = ⟨s', sink.record events, stats.addFindings found⟩ := by
  induction sentences generalizing renderer state sink stats with
  | nil =>
    constructor
    · intro h
      obtain ⟨hrenderer, rfl⟩ := Prod.mk.inj h
      obtain rfl := Except.ok.inj hrenderer
      exact ⟨[], state, [], rfl, rfl, rfl, by simp [Stats.addFindings]⟩
    · rintro ⟨found, s', events, hfound, hanswers, hrender, rfl⟩
      obtain rfl := List.map_eq_nil_iff.mp hfound
      obtain ⟨rfl, rfl⟩ := Renderer.sentences_nil_eq_ok_iff.mp hrender
      obtain rfl := hanswers
      simp [renderSentences, Stats.addFindings]
  | cons tokens rest ih =>
    rw [renderSentences_cons_eq_ok_iff hroom]
    constructor
    · rintro ⟨entities, s₁, first, renderer₁, hrecognize, hfirst, h⟩
      have hroom₁ : (sink.record first).room = none := hroom
      obtain ⟨found, s', more, hfound, hanswers, hmore, rfl⟩ := (ih hroom₁).mp h
      exact ⟨(tokens, entities) :: found, s', first ++ more, by rw [List.map_cons, hfound],
        ⟨s₁, hrecognize, hanswers⟩,
        Renderer.sentences_cons_eq_ok_iff.mpr ⟨first, renderer₁, more, hfirst, hmore, rfl⟩,
        by simp [Stats.addFindings]⟩
    · rintro ⟨found, s', events, hfound, hanswers, hrender, rfl⟩
      obtain ⟨⟨tokens, entities⟩, found, rfl, rfl, rfl⟩ := List.map_eq_cons_iff.mp hfound
      obtain ⟨s₁, hrecognize, hanswers⟩ := hanswers
      obtain ⟨first, renderer₁, more, hfirst, hmore, rfl⟩ :=
        Renderer.sentences_cons_eq_ok_iff.mp hrender
      refine ⟨entities, s₁, first, renderer₁, hrecognize, hfirst, ?_⟩
      have hroom₁ : (sink.record first).room = none := hroom
      exact (ih hroom₁).mpr ⟨found, s', more, rfl, hanswers, hmore, by simp [Stats.addFindings]⟩

/-- A block is processed exactly if there is a page for it. -/
theorem renderBlock_eq_ok_iff {counter counter' : LineCounter} {block : Text}
    (hroom : sink.room = none) :
    r.renderBlock config counter block ⟨state, sink, stats⟩ = (.ok counter', p') ↔
      ∃ (page : Page) (s' : σ) (events : List Event), page.block = block ∧
        page.found.map Prod.fst = config.input.sentences block ∧
        r.Answers state page.found s' ∧
        page.render config counter = .ok (events, counter') ∧
        p' = ⟨s', sink.record events, (stats.addFindings page.found).addBlock⟩ := by
  have hemit : ∀ s' written stats events,
      Progress.emit ⟨s', sink.record written, stats⟩ events
        = (.ok (), (⟨s', sink.record (written ++ events), stats⟩ : Progress σ)) := by
    intro s' written stats events
    have hroom₁ : (sink.record written).room = none := hroom
    rw [emit_of_room_none hroom₁, Sink.record_append]
  rw [renderBlock]
  constructor
  · intro h
    simp only at h
    split at h
    · cases h
    · rename_i renderer p₁ hsentences
      obtain ⟨found, s', written, hfound, hanswers, hrender, rfl⟩ :=
        (renderSentences_eq_ok_iff hroom).mp hsentences
      rw [hemit] at h
      obtain ⟨hcounter, rfl⟩ := Prod.mk.inj h
      obtain rfl := Except.ok.inj hcounter
      exact ⟨⟨block, found⟩, s', written ++ renderer.finish.1, rfl, hfound, hanswers,
        Page.render_eq_ok_iff.mpr ⟨written, renderer, hrender, rfl, rfl⟩, rfl⟩
  · rintro ⟨⟨block, found⟩, s', events, rfl, hfound, hanswers, hrender, rfl⟩
    obtain ⟨written, renderer, hwritten, rfl, rfl⟩ := Page.render_eq_ok_iff.mp hrender
    have hsentences : r.renderSentences ⟨config.output, config.crossing, block, counter, 0, 0⟩
        (config.input.sentences block) ⟨state, sink, stats⟩ = (.ok renderer, _) :=
      (renderSentences_eq_ok_iff hroom).mpr ⟨found, s', written, hfound, hanswers, hwritten, rfl⟩
    simp only [hsentences, hemit]

theorem renderItems_eq_ok_iff {counter : LineCounter} {blocks : List Text}
    (hroom : sink.room = none) :
    r.renderItems config counter (blocks.map .block) ⟨state, sink, stats⟩ = (.ok (), p') ↔
      ∃ pages s' events, pages.map Page.block = blocks ∧
        (∀ page ∈ pages, page.found.map Prod.fst = config.input.sentences page.block) ∧
        r.Answers state (pages.flatMap Page.found) s' ∧
        Page.renderAll config counter pages = .ok events ∧
        p' = ⟨s', sink.record events, stats.addPages pages⟩ := by
  induction blocks generalizing counter state sink stats with
  | nil =>
    constructor
    · intro h
      obtain ⟨-, rfl⟩ := Prod.mk.inj h
      exact ⟨[], state, [], rfl, by simp, rfl, rfl, by simp [Stats.addPages]⟩
    · rintro ⟨pages, s', events, hpages, -, hanswers, hrender, rfl⟩
      obtain rfl := List.map_eq_nil_iff.mp hpages
      obtain rfl := hanswers
      obtain rfl := Except.ok.inj hrender
      simp [renderItems, Stats.addPages]
  | cons block rest ih =>
    rw [List.map_cons, renderItems]
    constructor
    · intro h
      split at h
      · cases h
      · rename_i counter' p₁ hblock
        obtain ⟨page, s₁, first, rfl, hfound, hanswers, hfirst, rfl⟩ :=
          (renderBlock_eq_ok_iff hroom).mp hblock
        have hroom₁ : (sink.record first).room = none := hroom
        obtain ⟨pages, s', more, rfl, hpages, hanswers', hmore, rfl⟩ := (ih hroom₁).mp h
        refine ⟨page :: pages, s', first ++ more, rfl, List.forall_mem_cons.mpr ⟨hfound, hpages⟩,
          answers_append.mpr ⟨s₁, hanswers, hanswers'⟩,
          Page.renderAll_cons_eq_ok_iff.mpr ⟨first, counter', more, hfirst, hmore, rfl⟩, ?_⟩
        simp [Stats.addPages]
    · rintro ⟨pages, s', events, hpages, hfound, hanswers, hrender, rfl⟩
      obtain ⟨page, pages, rfl, rfl, rfl⟩ := List.map_eq_cons_iff.mp hpages
      obtain ⟨hfound, hrest⟩ := List.forall_mem_cons.mp hfound
      obtain ⟨s₁, hanswers, hanswers'⟩ := answers_append.mp hanswers
      obtain ⟨first, counter', more, hfirst, hmore, rfl⟩ := Page.renderAll_cons_eq_ok_iff.mp hrender
      rw [(renderBlock_eq_ok_iff hroom).mpr ⟨page, s₁, first, rfl, hfound, hanswers, hfirst, rfl⟩]
      have hroom₁ : (sink.record first).room = none := hroom
      refine (ih hroom₁).mpr ⟨pages, s', more, rfl, hrest, hanswers', hmore, ?_⟩
      simp [Stats.addPages]

section Items

variable {input : Bytes} {e : MarkupError}

/-- A run fails as its items do. -/
theorem process_eq_error_iff_items :
    r.process config input state sink = (.error e, p') ↔
      r.renderItems config {} (Block.items input) ⟨state, sink, {}⟩ = (.error e, p') := by
  rw [process]
  cases r.renderItems config {} (Block.items input) ⟨state, sink, {}⟩ with
  | mk result p => cases result <;> simp

theorem process_eq_ok_iff_items :
    r.process config input state sink = (.ok stats, p') ↔
      r.renderItems config {} (Block.items input) ⟨state, sink, {}⟩ = (.ok (), p') ∧
        stats = p'.stats := by
  rw [process]
  cases r.renderItems config {} (Block.items input) ⟨state, sink, {}⟩ with
  | mk result p =>
    cases result with
    | error e => simp
    | ok u =>
      simp only [Prod.mk.injEq, Except.ok.injEq, true_and]
      constructor
      · rintro ⟨rfl, rfl⟩
        exact ⟨rfl, rfl⟩
      · rintro ⟨rfl, rfl⟩
        exact ⟨rfl, rfl⟩

end Items

/-- **A run over a text succeeds exactly if there are pages for its blocks**, and then what is
written and reported is what the pages are rendered as. -/
theorem process_eq_ok_iff {text : Text} (hroom : sink.room = none) :
    r.process config text.utf8 state sink = (.ok stats, p') ↔
      ∃ pages s' events, pages.map Page.block = Block.ofText text ∧
        (∀ page ∈ pages, page.found.map Prod.fst = config.input.sentences page.block) ∧
        r.Answers state (pages.flatMap Page.found) s' ∧
        Page.renderAll config {} pages = .ok events ∧
        p' = ⟨s', sink.record events, stats⟩ ∧ stats = Stats.addPages {} pages := by
  rw [process_eq_ok_iff_items, Block.items_utf8, renderItems_eq_ok_iff hroom]
  constructor
  · rintro ⟨⟨pages, s', events, hpages, hfound, hanswers, hrender, rfl⟩, rfl⟩
    exact ⟨pages, s', events, hpages, hfound, hanswers, hrender, rfl, rfl⟩
  · rintro ⟨pages, s', events, hpages, hfound, hanswers, hrender, rfl, rfl⟩
    exact ⟨⟨pages, s', events, hpages, hfound, hanswers, hrender, rfl⟩, rfl⟩

/-- **A text is marked up exactly if there are pages for its blocks**, and then the output is what
the pages are rendered as. -/
theorem renderText_eq_ok_iff {text output : Text} :
    (r.renderText config text state).1 = .ok (output, stats) ↔
      ∃ pages s' events, pages.map Page.block = Block.ofText text ∧
        (∀ page ∈ pages, page.found.map Prod.fst = config.input.sentences page.block) ∧
        r.Answers state (pages.flatMap Page.found) s' ∧
        Page.renderAll config {} pages = .ok events ∧
        output = Event.written events ∧ stats = Stats.addPages {} pages := by
  rw [renderText]
  constructor
  · intro h
    cases hrun : r.process config text.utf8 state {} with
    | mk result p' =>
      cases result with
      | error e => rw [hrun] at h; cases h
      | ok stats' =>
        obtain ⟨pages, s', events, hpages, hfound, hanswers, hrender, rfl, rfl⟩ :=
          (process_eq_ok_iff rfl).mp hrun
        rw [hrun] at h
        simp only [Sink.text?_record] at h
        cases h
        exact ⟨pages, s', events, hpages, hfound, hanswers, hrender, rfl, rfl⟩
  · rintro ⟨pages, s', events, hpages, hfound, hanswers, hrender, rfl, rfl⟩
    have hrun : r.process config text.utf8 state {} = (.ok (Stats.addPages {} pages), _) :=
      (process_eq_ok_iff rfl).mpr ⟨pages, s', events, hpages, hfound, hanswers, hrender, rfl, rfl⟩
    rw [hrun]
    simp only [Sink.text?_record]

end Recognizer

end EntityMarkup
