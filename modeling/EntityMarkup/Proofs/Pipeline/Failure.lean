import EntityMarkup.Proofs.Block.Stretches
import EntityMarkup.Proofs.Pipeline.Limits
import EntityMarkup.Proofs.Pipeline.Numbering
import EntityMarkup.Proofs.Render.Rejection

/-!
# What a failed run has written

A run on a sink without a limit fails at one item of its input: at a line that cannot be read, at a
sentence for which the recognizer fails, or at one that the renderer rejects. The blocks before that
item are done with, and a run on them alone comes to the same; of the item itself, the sentences
before the failing one are written, and nothing else (`StopsAt`).

Between blocks the line counter need not be known apart: it stands where the counts say
(`LineCounter.behind`), which is what carries the induction over the items.

* `Block.ofText_flatten_of_items`: the blocks before an item, put together, are read as they were.
* `behind_of_renderBlock`: a block keeps the counter and the counts in step.
* `renderBlock_eq_error_iff`, `renderItems_eq_error_iff`: how a block fails, and how items do.
* **`process_eq_error_iff`**: how a run fails, and what it has written then.
-/

namespace EntityMarkup

/-! ## The blocks before an item -/

namespace Block

/-- Stretches that are not the last, and of which blocks are made, have the lines of those
blocks. -/
theorem exists_lines_of_stretches {ss : List Stretch} {blocks : List Text}
    (hproper : ∀ s ∈ ss, s.IsProper) (hfinished : ∀ s ∈ ss, s.IsFinished)
    (hitems : ss.map Stretch.item = blocks.map .block) :
    ∃ ls : List Text, ss.flatMap Stretch.lines = ls.map Text.utf8 ∧ ls.flatten = blocks.flatten ∧
      ofLines [] ls = blocks := by
  induction ss generalizing blocks with
  | nil =>
    obtain rfl := List.map_eq_nil_iff.mp hitems.symm
    exact ⟨[], rfl, rfl, rfl⟩
  | cons s ss ih =>
    obtain ⟨hs, hproper⟩ := List.forall_mem_cons.mp hproper
    obtain ⟨hends, hfinished⟩ := List.forall_mem_cons.mp hfinished
    obtain ⟨block, blocks, rfl, hblock, hblocks⟩ := List.map_eq_cons_iff.mp hitems.symm
    obtain ⟨ls, hlines, hflatten, hread⟩ := ih hproper hfinished hblocks.symm
    cases s with
    | paragraph body blank =>
      obtain rfl := Item.block.inj hblock
      refine ⟨(body ++ [blank]) ++ ls, ?_, ?_, ?_⟩
      · rw [List.flatMap_cons, hlines, List.map_append]
        rfl
      · rw [List.flatten_append, hflatten, List.flatten_cons]
      · rw [ofLines_append List.getLast?_concat hs.2, ofLines_of_body hs.1 hs.2, hread]
        rfl
    | broken lost bad => cases hblock
    | unfinished body => exact absurd hends id

/-- **The blocks before an item**, put together, are read as those blocks. -/
theorem ofText_flatten_of_items {input : Bytes} {blocks : List Text} {item : Item}
    {later : List Item} (h : items input = blocks.map .block ++ item :: later) :
    ofText blocks.flatten = blocks := by
  obtain ⟨stretches, hdivides, hitems⟩ := exists_divides_items input
  rw [h] at hitems
  obtain ⟨before, after, rfl, hbefore, hafter⟩ := List.append_eq_map_iff.mp hitems
  obtain ⟨last, after, rfl, -, -⟩ := List.map_eq_cons_iff.mp hafter
  have hproper : ∀ s ∈ before, s.IsProper := fun s hs =>
    hdivides.proper s (List.mem_append_left _ hs)
  have hfinished : ∀ s ∈ before, s.IsFinished := fun s hs => by
    refine hdivides.finished s ?_
    rw [List.dropLast_append_cons]
    exact List.mem_append_left _ hs
  obtain ⟨ls, hlines, hflatten, hread⟩ := exists_lines_of_stretches hproper hfinished hbefore
  have hcut := hdivides.lines_eq.symm
  rw [List.flatMap_append, hlines] at hcut
  rw [ofText, ← hflatten, @Text.lines_flatten_of_cutAfter input [] _ ls hcut, hread]

end Block

/-! ## The line counter between blocks -/

/-- The line counter behind what has been counted: a listing has counted each token and each
block. -/
def LineCounter.behind (format : OutputFormat) (stats : Stats) : LineCounter :=
  ⟨if format = .vertical then stats.tokens + stats.blocks else 0⟩

namespace Renderer

variable {r r' : Renderer} {events : List Event}

/-- Rendering sentences moves the cursor and counts tokens, and changes nothing else of the
renderer. -/
theorem eq_of_sentences_eq_ok {found : List Finding} (h : r.sentences found = .ok (events, r')) :
    r' = { r with cursor := r'.cursor, seen := r'.seen } := by
  induction found generalizing r events with
  | nil =>
    obtain ⟨-, rfl⟩ := sentences_nil_eq_ok_iff.mp h
    rfl
  | cons f rest ih =>
    obtain ⟨first, r₁, more, hfirst, hmore, -⟩ := sentences_cons_eq_ok_iff.mp h
    rw [eq_of_sentence_eq_ok hfirst] at hmore
    have hrest := ih hmore
    exact hrest

theorem finish_of_ne (h : r.format ≠ .vertical) : r.finish.2 = r.counter := by
  unfold finish
  cases hformat : r.format with
  | vertical => exact absurd hformat h
  | xml => rfl
  | charSpan => rfl
  | conll => rfl

end Renderer

/-- A page keeps the counter and the counts in step. -/
theorem Page.behind_of_render {config : Config} {stats : Stats} {page : Page} {events : List Event}
    {counter : LineCounter}
    (h : page.render config (.behind config.output stats) = .ok (events, counter)) :
    counter = .behind config.output (stats.addFindings page.found).addBlock := by
  obtain ⟨written, renderer, hsentences, rfl, rfl⟩ := render_eq_ok_iff.mp h
  obtain ⟨input, output, policy⟩ := config
  by_cases hlisting : output = .vertical
  · subst hlisting
    obtain ⟨-, rfl, -⟩ := Renderer.sentences_vertical rfl hsentences
    rw [Stats.addFindings_eq, List.flatMap_def]
    simp only [Renderer.finish, LineCounter.afterBlock, LineCounter.behind, Stats.addBlock, if_true,
      LineCounter.mk.injEq]
    omega
  · have hsame := Renderer.eq_of_sentences_eq_ok hsentences
    have hformat : renderer.format ≠ .vertical := by
      rw [hsame]
      exact hlisting
    rw [Renderer.finish_of_ne hformat, hsame, LineCounter.behind, LineCounter.behind,
      if_neg hlisting, if_neg hlisting]

namespace Recognizer

variable {σ : Type} {r : Recognizer σ} {config : Config} {p p' : Progress σ} {e : MarkupError}

/-- A block that is done with keeps the counter and the counts in step. -/
theorem behind_of_renderBlock {block : Text} {counter : LineCounter} (hroom : p.sink.room = none)
    (h : r.renderBlock config (.behind config.output p.stats) block p = (.ok counter, p')) :
    counter = .behind config.output p'.stats ∧ p'.sink.room = none := by
  obtain ⟨state, sink, stats⟩ := p
  obtain ⟨page, s', events, -, -, -, hrender, rfl⟩ := (renderBlock_eq_ok_iff hroom).mp h
  exact ⟨Page.behind_of_render hrender, hroom⟩

/-! ## How a run fails at an item -/

/-- How a run fails at an item when it had come to `p₀` before. The events are those of the
sentences before the failing one, rendered from the beginning of the block. -/
inductive StopsAt (r : Recognizer σ) (config : Config) (p₀ : Progress σ) :
    Block.Item → List Event → MarkupError → σ → Stats → Prop
  /-- The item is a line that cannot be read. -/
  | unreadable : StopsAt r config p₀ .unreadable [] (.io .unreadable) p₀.state p₀.stats
  /-- The recognizer fails for a sentence. -/
  | unrecognized {block found tokens rest events renderer state e state'} :
      config.input.sentences block = found.map Prod.fst ++ tokens :: rest →
      r.Answers p₀.state found state →
      Renderer.sentences
        ⟨config.output, config.crossing, block, .behind config.output p₀.stats, 0, 0⟩ found
          = .ok (events, renderer) →
      r.recognize state tokens.forms = (.error e, state') →
      StopsAt r config p₀ (.block block) events e state' (p₀.stats.addFindings found)
  /-- The renderer rejects a sentence. -/
  | rejected {block found tokens rest events renderer state entities state' e} :
      config.input.sentences block = found.map Prod.fst ++ tokens :: rest →
      r.Answers p₀.state found state →
      Renderer.sentences
        ⟨config.output, config.crossing, block, .behind config.output p₀.stats, 0, 0⟩ found
          = .ok (events, renderer) →
      r.recognize state tokens.forms = (.ok entities, state') →
      renderer.sentence tokens entities = .error e →
      StopsAt r config p₀ (.block block) events e state'
        (p₀.stats.addFindings (found ++ [(tokens, entities)]))

/-- What a sink without a limit has taken of the sentences that are done with. -/
theorem Done.exists_record {renderer renderer' : Renderer} {found : List Finding} {state : σ}
    {sink : Sink} (hroom : p.sink.room = none)
    (h : r.Done renderer p found renderer' state sink) :
    ∃ events, renderer.sentences found = .ok (events, renderer') ∧ sink = p.sink.record events := by
  obtain ⟨events, hrendered, haccept⟩ := h.exists_events
  rw [Sink.acceptAll_of_room_none hroom] at haccept
  exact ⟨events, hrendered, (Prod.mk.inj haccept).1.symm⟩

/-- A block fails as its sentences do that come behind those that are done with. -/
theorem renderBlock_of_done {block : Text} {counter : LineCounter} {found : List Finding}
    {rest : List Sentence} {events : List Event} {renderer : Renderer} {state : σ}
    (hroom : p.sink.room = none)
    (hsentences : config.input.sentences block = found.map Prod.fst ++ rest)
    (hanswers : r.Answers p.state found state)
    (hrendered : Renderer.sentences ⟨config.output, config.crossing, block, counter, 0, 0⟩ found
      = .ok (events, renderer))
    (hrest : r.renderSentences renderer rest
      ⟨state, p.sink.record events, p.stats.addFindings found⟩ = (.error e, p')) :
    r.renderBlock config counter block p = (.error e, p') := by
  have hdone : r.renderSentences ⟨config.output, config.crossing, block, counter, 0, 0⟩
      (found.map Prod.fst) p
        = (.ok renderer, ⟨state, p.sink.record events, p.stats.addFindings found⟩) :=
    (renderSentences_eq_ok_iff hroom).mpr ⟨found, state, events, rfl, hanswers, hrendered, rfl⟩
  unfold renderBlock
  simp only [hsentences, renderSentences_append, hdone, hrest]

/-- **How a block fails** if the sink does not: at one of its sentences. -/
theorem renderBlock_eq_error_iff {block : Text} (hroom : p.sink.room = none) :
    r.renderBlock config (.behind config.output p.stats) block p = (.error e, p') ↔
      ∃ events, r.StopsAt config p (.block block) events e p'.state p'.stats ∧
        p'.sink = p.sink.record events := by
  constructor
  · intro h
    cases blockFails_of_renderBlock h with
    | sentence hfails =>
      cases hfails with
      | unrecognized hdone hsentences hanswer =>
        obtain ⟨events, hrendered, rfl⟩ := hdone.exists_record hroom
        exact ⟨events, .unrecognized hsentences hdone.answers hrendered hanswer, rfl⟩
      | rejected hdone hsentences hanswer hreject =>
        obtain ⟨events, hrendered, rfl⟩ := hdone.exists_record hroom
        exact ⟨events, .rejected hsentences hdone.answers hrendered hanswer hreject, rfl⟩
      | unwritten hdone _ _ _ haccept =>
        obtain ⟨events, -, rfl⟩ := hdone.exists_record hroom
        rw [Sink.acceptAll_of_room_none (by exact hroom)] at haccept
        cases haccept
    | finish hdone _ haccept =>
      obtain ⟨events, -, rfl⟩ := hdone.exists_record hroom
      rw [Sink.acceptAll_of_room_none (by exact hroom)] at haccept
      cases haccept
  · obtain ⟨state', sink', stats'⟩ := p'
    rintro ⟨events, hstops, rfl⟩
    cases hstops with
    | unrecognized hsentences hanswers hrendered hanswer =>
      refine renderBlock_of_done hroom hsentences hanswers hrendered ?_
      simp only [renderSentences_cons, hanswer, Stats.addFindings]
    | rejected hsentences hanswers hrendered hanswer hreject =>
      refine renderBlock_of_done hroom hsentences hanswers hrendered ?_
      simp only [renderSentences_cons, hanswer, hreject, Stats.addFindings, List.foldl_append,
        List.foldl_cons, List.foldl_nil]

/-! ## How a run fails -/

/-- Items that come behind blocks are processed with the counter that stands behind these. -/
theorem renderItems_append_of_ok {blocks : List Text} {p₀ : Progress σ}
    (hroom : p.sink.room = none)
    (h : r.renderItems config (.behind config.output p.stats) (blocks.map .block) p = (.ok (), p₀))
    (items : List Block.Item) :
    r.renderItems config (.behind config.output p.stats) (blocks.map .block ++ items) p
        = r.renderItems config (.behind config.output p₀.stats) items p₀ ∧
      p₀.sink.room = none := by
  induction blocks generalizing p with
  | nil =>
    cases h
    exact ⟨rfl, hroom⟩
  | cons block rest ih =>
    rw [List.map_cons, renderItems] at h
    rw [List.map_cons, List.cons_append, renderItems]
    cases hblock : r.renderBlock config (.behind config.output p.stats) block p with
    | mk result p₁ =>
      rw [hblock] at h
      cases result with
      | error e' => cases h
      | ok counter =>
        obtain ⟨rfl, hroom₁⟩ := behind_of_renderBlock hroom hblock
        exact ih hroom₁ h

/-- **Items are processed up to the first that fails**, and what comes behind it makes no
difference. -/
theorem renderItems_eq_error_iff {items : List Block.Item} (hroom : p.sink.room = none) :
    r.renderItems config (.behind config.output p.stats) items p = (.error e, p') ↔
      ∃ (blocks : List Text) (item : Block.Item) (later : List Block.Item) (p₀ : Progress σ)
        (events : List Event), items = blocks.map .block ++ item :: later ∧
        r.renderItems config (.behind config.output p.stats) (blocks.map .block) p = (.ok (), p₀) ∧
        r.StopsAt config p₀ item events e p'.state p'.stats ∧
        p'.sink = p₀.sink.record events := by
  constructor
  · intro h
    induction items generalizing p with
    | nil => cases h
    | cons item rest ih =>
      cases item with
      | unreadable =>
        cases h
        exact ⟨[], .unreadable, rest, p', [], rfl, rfl, .unreadable, p'.sink.record_nil.symm⟩
      | block block =>
        rw [renderItems] at h
        cases hblock : r.renderBlock config (.behind config.output p.stats) block p with
        | mk result p₁ =>
          rw [hblock] at h
          cases result with
          | error e' =>
            cases h
            obtain ⟨events, hstops, hsink⟩ := (renderBlock_eq_error_iff hroom).mp hblock
            exact ⟨[], .block block, rest, p, events, rfl, rfl, hstops, hsink⟩
          | ok counter =>
            obtain ⟨rfl, hroom₁⟩ := behind_of_renderBlock hroom hblock
            obtain ⟨blocks, item, later, p₀, events, rfl, hbefore, hstops, hsink⟩ := ih hroom₁ h
            refine ⟨block :: blocks, item, later, p₀, events, rfl, ?_, hstops, hsink⟩
            rw [List.map_cons, renderItems, hblock]
            exact hbefore
  · rintro ⟨blocks, item, later, p₀, events, rfl, hbefore, hstops, hsink⟩
    obtain ⟨happend, hroom₀⟩ := renderItems_append_of_ok hroom hbefore (item :: later)
    rw [happend]
    cases item with
    | unreadable =>
      obtain ⟨state', sink', stats'⟩ := p'
      obtain rfl : sink' = p₀.sink.record events := hsink
      cases hstops
      rw [Sink.record_nil]
      rfl
    | block block => rw [renderItems, (renderBlock_eq_error_iff hroom₀).mpr ⟨events, hstops, hsink⟩]

/-- **How a run fails, and what it has written.** A run on a sink without a limit fails exactly if
it stops at one item of its input, and the blocks before that item, put together, are marked up
without an error. What is written and reported is what that run writes and reports, and behind it
what the sentences of the item before the failing one are rendered as: nothing of a line that cannot
be read, nothing of the failing sentence, and not the rest of its block. What comes behind the item
makes no difference, and the recognizer is asked about none of it. -/
theorem process_eq_error_iff (r : Recognizer σ) (config : Config) (input : Bytes) (state : σ)
    {sink : Sink} (hroom : sink.room = none) :
    r.process config input state sink = (.error e, p) ↔
      ∃ (blocks : List Text) (item : Block.Item) (later : List Block.Item) (p₀ : Progress σ)
        (events : List Event),
        Block.items input = blocks.map .block ++ item :: later ∧
        r.process config (Text.utf8 blocks.flatten) state sink = (.ok p₀.stats, p₀) ∧
        r.StopsAt config p₀ item events e p.state p.stats ∧
        p.sink = { p₀.sink with
          written := p₀.sink.written ++ Text.utf8 (Event.written events)
          warnings := p₀.sink.warnings ++ Event.warnings events } := by
  have hcounter : ({} : LineCounter) = .behind config.output {} :=
    congrArg LineCounter.mk (ite_self 0).symm
  rw [process_eq_error_iff_items, hcounter]
  refine (renderItems_eq_error_iff (p := ⟨state, sink, {}⟩) hroom).trans ?_
  refine exists_congr fun blocks => exists_congr fun item => exists_congr fun later =>
    exists_congr fun p₀ => exists_congr fun events => ?_
  refine and_congr_right fun hitems => and_congr_left fun _ => ?_
  -- the run on the blocks alone goes through the same items
  rw [process_eq_ok_iff_items, Block.items_utf8, Block.ofText_flatten_of_items hitems, hcounter]
  exact (and_iff_left rfl).symm

/-- So it is with a listing, where the recognizer fails for the second sentence of the second block:
the numbers go on behind the first block, and its other sentences are not listed. -/
theorem process_eq_error_second_sentence :
    let r : Recognizer Unit := ofFunction (fun _ forms =>
      if forms = [['c'], ['.']] then .error (.recognizer "c") else .ok [⟨0, 2, "PER"⟩]) fun _ => []
    let config : Config := ⟨.untokenized, .vertical, .warn⟩
    let input : Bytes := Text.utf8 "a.\n\nb. c. d.\n\ne.".toList
    let run := r.process config input () {}
    run.1 = .error (.recognizer "c") ∧
      run.2.sink.written.toList = Text.utf8 "1, 2\tPER\ta.\n4, 5\tPER\tb.\n".toList ∧
      ∃ (blocks : List Text) (item : Block.Item) (later : List Block.Item) (p₀ : Progress Unit)
        (events : List Event),
        Block.items input = blocks.map .block ++ item :: later ∧
        r.process config (Text.utf8 blocks.flatten) () {} = (.ok p₀.stats, p₀) ∧
        r.StopsAt config p₀ item events (.recognizer "c") () run.2.stats ∧
        run.2.sink.written = p₀.sink.written ++ Text.utf8 (Event.written events) := by
  intro r config input run
  have hroom : ({} : Sink).room = none := rfl
  have hfails : run.1 = .error (.recognizer "c") := by decide +kernel
  have hwritten : run.2.sink.written.toList
      = Text.utf8 "1, 2\tPER\ta.\n4, 5\tPER\tb.\n".toList := by decide +kernel
  have hrun : r.process config input () {} = (.error (.recognizer "c"), run.2) := by
    rw [← hfails]
  obtain ⟨blocks, item, later, p₀, events, hitems, hbefore, hstops, hsink⟩ :=
    (process_eq_error_iff r config input () hroom).mp hrun
  exact ⟨hfails, hwritten, blocks, item, later, p₀, events, hitems, hbefore, hstops,
    congrArg Sink.written hsink⟩

end Recognizer

end EntityMarkup
