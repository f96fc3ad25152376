import EntityMarkup.Proofs.Pipeline.Pages
import EntityMarkup.Proofs.Token.Relisting

/-!
# Running text and listed text agree

Tags show the forms of sentences and nothing else of the input: where blocks end, and what stands
between tokens, is not seen in them. So a run over running text and one over the same sentences
written as listed text do the same, except that they count other blocks. Two runs are compared by
what they come to (`SameOutcome`), in three steps: a sentence, the sentences of a block, the blocks
of an input.

* `renderSentences_of_forms`: sentences of the same forms come to the same.
* `renderItems_conll`: so do the blocks of an input, and all their sentences one after the other.
* **`process_relisted`**: a text, and its sentences written as listed text.
-/

namespace EntityMarkup

variable {σ : Type}

/-- Two runs have come to the same, but for the number of blocks. -/
structure Progress.SameButBlocks (p q : Progress σ) : Prop where
  state : p.state = q.state
  sink : p.sink = q.sink
  sentences : p.stats.sentences = q.stats.sentences
  tokens : p.stats.tokens = q.stats.tokens
  entities : p.stats.entities = q.stats.entities

/-- Two parts of a run come to the same: both fail, with the same error, or both succeed, with these
results. -/
inductive SameOutcome {α β : Type} (a : α) (b : β) :
    Except MarkupError α × Progress σ → Except MarkupError β × Progress σ → Prop
  | ok {p q : Progress σ} (same : p.SameButBlocks q) : SameOutcome a b (.ok a, p) (.ok b, q)
  | error {e : MarkupError} {p q : Progress σ} (same : p.SameButBlocks q) :
      SameOutcome a b (.error e, p) (.error e, q)

theorem Progress.SameButBlocks.refl (p : Progress σ) : p.SameButBlocks p :=
  ⟨rfl, rfl, rfl, rfl, rfl⟩

theorem Progress.SameButBlocks.symm {p q : Progress σ} (h : p.SameButBlocks q) :
    q.SameButBlocks p :=
  ⟨h.state.symm, h.sink.symm, h.sentences.symm, h.tokens.symm, h.entities.symm⟩

theorem Progress.SameButBlocks.trans {p q s : Progress σ} (h : p.SameButBlocks q)
    (h' : q.SameButBlocks s) : p.SameButBlocks s :=
  ⟨h.state.trans h'.state, h.sink.trans h'.sink, h.sentences.trans h'.sentences,
    h.tokens.trans h'.tokens, h.entities.trans h'.entities⟩

namespace SameOutcome

variable {α β γ : Type} {a : α} {b : β} {c : γ} {x : Except MarkupError α × Progress σ}
  {y : Except MarkupError β × Progress σ} {z : Except MarkupError γ × Progress σ}

theorem symm (h : SameOutcome a b x y) : SameOutcome b a y x := by
  cases h with
  | ok same => exact .ok same.symm
  | error same => exact .error same.symm

theorem trans (h : SameOutcome a b x y) (h' : SameOutcome b c y z) : SameOutcome a c x z := by
  cases h with
  | ok same =>
    cases h' with
    | ok same' => exact .ok (same.trans same')
  | error same =>
    cases h' with
    | error same' => exact .error (same.trans same')

end SameOutcome

/-! ## Sentences -/

/-- What is written for a sentence depends on nothing but its forms and its entities. -/
theorem Outermost.render_of_forms {tokens tokens' : Sentence} (h : tokens.forms = tokens'.forms)
    (entities : List Entity) : render tokens entities = render tokens' entities := by
  have hlength : tokens.length = tokens'.length := by
    simpa [Sentence.forms] using congrArg List.length h
  rw [render, render, h, hlength]

theorem Renderer.sentence_of_forms {renderer renderer' : Renderer}
    (hformat : renderer.format = .conll) (hformat' : renderer'.format = .conll)
    {tokens tokens' : Sentence} (h : tokens.forms = tokens'.forms) (entities : List Entity) :
    (∃ e, renderer.sentence tokens entities = .error e ∧
        renderer'.sentence tokens' entities = .error e) ∨
      ∃ events, renderer.sentence tokens entities = .ok (events, renderer) ∧
        renderer'.sentence tokens' entities = .ok (events, renderer') := by
  have hlength : tokens.length = tokens'.length := by
    simpa [Sentence.forms] using congrArg List.length h
  rw [sentence_conll _ _ hformat, sentence_conll _ _ hformat', hlength, Outermost.render_of_forms h]
  cases checkSpans entities tokens'.length with
  | error e => exact Or.inl ⟨e, rfl, rfl⟩
  | ok u => exact Or.inr ⟨_, rfl, rfl⟩

namespace Recognizer

variable (r : Recognizer σ) (config : Config) (renderer renderer' : Renderer) {p q : Progress σ}

/-- **Sentences of the same forms come to the same.** -/
theorem renderSentences_of_forms (hformat : renderer.format = .conll)
    (hformat' : renderer'.format = .conll) {ss ss' : List Sentence}
    (h : ss.map Sentence.forms = ss'.map Sentence.forms) (hpq : p.SameButBlocks q) :
    SameOutcome renderer renderer' (r.renderSentences renderer ss p)
      (r.renderSentences renderer' ss' q) := by
  induction ss generalizing ss' p q with
  | nil =>
    obtain rfl := List.map_eq_nil_iff.mp h.symm
    exact .ok hpq
  | cons tokens rest ih =>
    obtain ⟨tokens', rest', rfl, hforms, hrest⟩ := List.map_eq_cons_iff.mp h.symm
    have hlength : tokens.length = tokens'.length := by
      simpa [Sentence.forms] using congrArg List.length hforms.symm
    rw [renderSentences_cons, renderSentences_cons, ← hpq.state, hforms]
    cases r.recognize p.state tokens.forms with
    | mk answer state =>
      cases answer with
      | error e => exact .error ⟨rfl, hpq.sink, hpq.sentences, hpq.tokens, hpq.entities⟩
      | ok entities =>
        -- both have counted the sentence before it is rendered
        have hcounted : ∀ sink, Progress.SameButBlocks
            ⟨state, sink, p.stats.addSentence tokens entities⟩
            ⟨state, sink, q.stats.addSentence tokens' entities⟩ := fun sink =>
          ⟨rfl, rfl, congrArg (· + 1) hpq.sentences, by
              rw [Stats.addSentence, Stats.addSentence, hpq.tokens, hlength],
            congrArg (· + entities.length) hpq.entities⟩
        simp only
        rcases Renderer.sentence_of_forms hformat hformat' hforms.symm entities with
          ⟨e, he, he'⟩ | ⟨events, hevents, hevents'⟩
        · rw [he, he']
          exact .error (hpq.sink ▸ hcounted p.sink)
        · rw [hevents, hevents']
          simp only [Progress.emit, ← hpq.sink]
          cases p.sink.acceptAll events with
          | mk sink complete =>
            cases complete with
            | true => exact ih hrest.symm (hcounted sink)
            | false => exact .error (hcounted sink)

/-! ## Blocks -/

/-- At the end of a block nothing is written. -/
theorem renderBlock_conll (hconfig : config.output = .conll) (hformat : renderer.format = .conll)
    (counter : LineCounter) (block : Text) (hpq : p.SameButBlocks q) :
    SameOutcome counter renderer (r.renderBlock config counter block p)
      (r.renderSentences renderer (config.input.sentences block) q) := by
  have hsentences := r.renderSentences_of_forms
    ⟨config.output, config.crossing, block, counter, 0, 0⟩ renderer hconfig hformat
    (rfl : (config.input.sentences block).map Sentence.forms = _) hpq
  rw [renderBlock]
  generalize r.renderSentences _ (config.input.sentences block) p = x at hsentences ⊢
  generalize r.renderSentences renderer (config.input.sentences block) q = y at hsentences ⊢
  cases hsentences with
  | error hsame => exact .error hsame
  | ok hsame =>
    simp only [Renderer.finish, hconfig, Progress.emit, Sink.acceptAll]
    exact .ok ⟨hsame.state, hsame.sink, hsame.sentences, hsame.tokens, hsame.entities⟩

/-- **The blocks of an input come to the same as all their sentences**, one after the other. -/
theorem renderItems_conll (hconfig : config.output = .conll) (hformat : renderer.format = .conll)
    (counter : LineCounter) (blocks : List Text) (hpq : p.SameButBlocks q) :
    SameOutcome () renderer (r.renderItems config counter (blocks.map .block) p)
      (r.renderSentences renderer (blocks.flatMap config.input.sentences) q) := by
  induction blocks generalizing counter p q with
  | nil => exact .ok hpq
  | cons block rest ih =>
    have hblock := r.renderBlock_conll config renderer hconfig hformat counter block hpq
    rw [List.map_cons, renderItems, List.flatMap_cons, renderSentences_append]
    generalize r.renderBlock config counter block p = x at hblock ⊢
    generalize r.renderSentences renderer (config.input.sentences block) q = y at hblock ⊢
    cases hblock with
    | error hsame => exact .error hsame
    | ok hsame => exact ih counter hsame

end Recognizer

/-! ## The same text in both formats -/

/-- The sentences of all blocks of running text, written as listed text. -/
def Text.relisted (t : Text) : Text :=
  Listed.print (((Block.ofText t).flatMap Running.sentences).map Sentence.forms)

/-- The sentences of the blocks of listed text that was made from running text have the forms of
those it was made from. -/
theorem Text.map_forms_relisted (t : Text) :
    ((Block.ofText t.relisted).flatMap Listed.sentences).map Sentence.forms
      = ((Block.ofText t).flatMap Running.sentences).map Sentence.forms := by
  refine Listed.flatMap_forms_ofText_print ?_
  rw [List.forall_mem_map]
  intro tokens htokens
  obtain ⟨block, -, hmem⟩ := List.mem_flatMap.mp htokens
  exact Running.isListable_of_mem_sentences hmem

/-- **Running text and listed text agree.** A run over running text that writes tags, and one over
its sentences written as listed text, leave the sink and the recognizer in the same state. Both
fail, with the same error, or both succeed and count the same sentences, tokens and entities. -/
theorem Recognizer.process_relisted (r : Recognizer σ) (crossing : CrossingPolicy) (t : Text)
    (state : σ) (sink : Sink) :
    let running := r.process ⟨.untokenized, .conll, crossing⟩ t.utf8 state sink
    let listed := r.process ⟨.vertical, .conll, crossing⟩ t.relisted.utf8 state sink
    listed.2.sink = running.2.sink ∧ listed.2.state = running.2.state ∧
      ((∃ e, running.1 = .error e ∧ listed.1 = .error e) ∨
        ∃ stats stats', running.1 = .ok stats ∧ listed.1 = .ok stats' ∧
          stats'.sentences = stats.sentences ∧ stats'.tokens = stats.tokens ∧
          stats'.entities = stats.entities) := by
  have hsame := Progress.SameButBlocks.refl (⟨state, sink, {}⟩ : Progress σ)
  let renderer : Renderer := ⟨.conll, crossing, [], {}, 0, 0⟩
  have hrunning := r.renderItems_conll ⟨.untokenized, .conll, crossing⟩ renderer rfl rfl {}
    (Block.ofText t) hsame
  have hlisted := r.renderItems_conll ⟨.vertical, .conll, crossing⟩ renderer rfl rfl {}
    (Block.ofText t.relisted) hsame
  have hforms := r.renderSentences_of_forms renderer renderer rfl rfl t.map_forms_relisted hsame
  have hboth := (hrunning.trans hforms.symm).trans hlisted.symm
  simp only [process, Block.items_utf8]
  generalize r.renderItems ⟨.untokenized, .conll, crossing⟩ {} _ _ = x at hboth ⊢
  generalize r.renderItems ⟨.vertical, .conll, crossing⟩ {} _ _ = y at hboth ⊢
  cases hboth with
  | error same => exact ⟨same.sink.symm, same.state.symm, Or.inl ⟨_, rfl, rfl⟩⟩
  | ok same =>
    exact ⟨same.sink.symm, same.state.symm, Or.inr ⟨_, _, rfl, rfl, same.sentences.symm,
      same.tokens.symm, same.entities.symm⟩⟩

end EntityMarkup
