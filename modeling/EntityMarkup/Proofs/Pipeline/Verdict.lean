import EntityMarkup.Proofs.Pipeline.Counts
import EntityMarkup.Proofs.Token.Tiling

/-!
# The sentence that decides

A recognizer that always answers with spans of the sentence leaves one thing only that can go wrong
on a sink without a limit: a sentence may be refused because entities cross. The first such sentence
decides how a run ends; if there is none, the run succeeds and has counted everything there is.

A part of a run ends by a verdict (`Course.EndsBy`): an error, or none and then certain counts.

* `EndsBy.andThen`: the first error of two parts is that of both.
* `endsBy_sentencesCourse`, `endsBy_blockCourse`, `endsBy_itemsCourse`: the parts of a run.
* **`renderText_verdict`**: how a text is marked up, or why not.
* `InputFormat.exists_token`: a text that is not blank has a token in some sentence of some block.
-/

namespace EntityMarkup

/-- A text that is not blank has a token in some sentence of some block. -/
theorem InputFormat.exists_token (input : InputFormat) {t : Text} (h : t.isAllBlank = false) :
    ∃ block ∈ Block.ofText t, ∃ tokens ∈ input.sentences block, ∃ token, token ∈ tokens := by
  obtain ⟨c, hc, hblank⟩ := Text.isAllBlank_eq_false_iff.mp h
  rw [← Block.flatten_ofText t] at hc
  obtain ⟨block, hblock, hc⟩ := List.mem_flatten.mp hc
  obtain ⟨token, htoken⟩ := List.exists_mem_of_ne_nil _
    (input.flatten_sentences_ne_nil (Text.isAllBlank_eq_false_iff.mpr ⟨c, hc, hblank⟩))
  obtain ⟨tokens, htokens, htoken⟩ := List.mem_flatten.mp htoken
  exact ⟨block, hblock, tokens, htokens, token, htoken⟩

/-! ## Why a sentence is refused -/

/-- Why a sentence is refused in which certain entities were found, if it is. -/
def Config.refusal? (config : Config) (entities : List Entity) : Option MarkupError :=
  if config.crossing = .reject ∧ config.output.markup?.isSome = true then
    (Entity.firstCrossing? (Entity.sort entities)).map fun pair => .crossingSpans pair.1 pair.2
  else none

section Refusal

variable {config : Config} {entities : List Entity} {error : MarkupError}

theorem Config.refusal?_eq_some_iff :
    config.refusal? entities = some error ↔
      config.crossing = .reject ∧ config.output.markup?.isSome = true ∧
        ∃ a b, Entity.firstCrossing? (Entity.sort entities) = some (a, b) ∧
          error = .crossingSpans a b := by
  unfold refusal?
  split
  · rename_i h
    rw [Option.map_eq_some_iff]
    constructor
    · rintro ⟨⟨a, b⟩, hpair, rfl⟩
      exact ⟨h.1, h.2, a, b, hpair, rfl⟩
    · rintro ⟨-, -, a, b, hpair, rfl⟩
      exact ⟨(a, b), hpair, rfl⟩
  · rename_i h
    constructor
    · intro hnone
      cases hnone
    · rintro ⟨hcrossing, hinline, -⟩
      exact absurd ⟨hcrossing, hinline⟩ h

/-- A sentence is refused exactly if two entities in it cross, inline and under the policy that
rejects that. -/
theorem Config.refusal?_ne_none_iff :
    config.refusal? entities ≠ none ↔
      config.crossing = .reject ∧ (config.output = .xml ∨ config.output = .charSpan) ∧
        ∃ a ∈ entities, ∃ b ∈ entities, a.crosses b = true := by
  rw [← OutputFormat.isSome_markup?_iff, Option.ne_none_iff_exists']
  have hcross : (∃ a b, Entity.firstCrossing? (Entity.sort entities) = some (a, b)) ↔
      ∃ a ∈ entities, ∃ b ∈ entities, a.crosses b = true := by
    have hnone := not_congr (@Entity.firstCrossing?_sort_eq_none_iff entities)
    rw [← ne_eq, Option.ne_none_iff_exists'] at hnone
    simpa using hnone
  rw [← hcross]
  constructor
  · rintro ⟨error, h⟩
    obtain ⟨hcrossing, hinline, a, b, hpair, -⟩ := refusal?_eq_some_iff.mp h
    exact ⟨hcrossing, hinline, a, b, hpair⟩
  · rintro ⟨hcrossing, hinline, a, b, hpair⟩
    exact ⟨_, refusal?_eq_some_iff.mpr ⟨hcrossing, hinline, a, b, hpair, rfl⟩⟩

/-- A renderer works in the format and under the policy of a configuration. -/
def Renderer.Follows (r : Renderer) (config : Config) : Prop :=
  r.format = config.output ∧ r.crossing = config.crossing

/-- A sentence whose entities are spans of it is refused, or rendered. -/
theorem Renderer.sentence_cases {r : Renderer} (hr : r.Follows config) {tokens : Sentence}
    (hspan : ∀ e ∈ entities, e.isSpanOf tokens.length = true) :
    (∃ error, config.refusal? entities = some error ∧
        r.sentence tokens entities = .error error) ∨
      config.refusal? entities = none ∧
        ∃ events r', r.sentence tokens entities = .ok (events, r') ∧ r'.Follows config := by
  have hspans : checkSpans entities tokens.length = .ok () := checkSpans_eq_ok_iff.mpr hspan
  have herror : ∀ error, r.sentence tokens entities = .error error ↔
      config.refusal? entities = some error := by
    intro error
    rw [sentence_eq_error_iff, hspans, checkCrossing_eq_error_iff, hr.1, hr.2,
      Config.refusal?_eq_some_iff]
    simp only [reduceCtorEq, false_or, true_and]
    exact and_left_comm
  cases hsentence : r.sentence tokens entities with
  | error error => exact Or.inl ⟨error, (herror error).mp hsentence, rfl⟩
  | ok rendered =>
    refine Or.inr ⟨?_, rendered.1, rendered.2, rfl, ?_⟩
    · cases hrefusal : config.refusal? entities with
      | none => rfl
      | some error =>
        rw [(herror error).mpr hrefusal] at hsentence
        cases hsentence
    · obtain ⟨hformat, hcrossing⟩ := settings_of_sentence_eq_ok hsentence
      exact ⟨hformat.trans hr.1, hcrossing.trans hr.2⟩

end Refusal

/-! ## How the parts of a run end -/

namespace Course

variable {σ α β : Type} {state : σ} {stats stats' : Stats} {P : α → Prop} {Q : β → Prop}
  {verdict verdict' : Option MarkupError} {c : Course σ α}

/-- A part of a run leaves the recognizer as it was. It ends with the error of a verdict, or, if
that gives none, well, and then with these counts. -/
inductive EndsBy (c : Course σ α) (state : σ) (stats : Stats) (P : α → Prop) :
    Option MarkupError → Prop
  | error {e : MarkupError} {stats' : Stats} (h : c.ending = (.error e, state, stats')) :
      EndsBy c state stats P (some e)
  | ok {a : α} (ha : P a) (h : c.ending = (.ok a, state, stats)) : EndsBy c state stats P none

/-- **The first error of two parts is that of both.** -/
theorem EndsBy.andThen (h : c.EndsBy state stats P verdict) (next : α → σ → Stats → Course σ β)
    (hnext : ∀ a, P a → (next a state stats).EndsBy state stats' Q verdict') :
    (c.andThen next).EndsBy state stats' Q (verdict.or verdict') := by
  cases h with
  | error h => exact .error (andThen_of_error h next).1
  | ok ha h =>
    have hending := (andThen_of_ok h next).1
    cases hnext _ ha with
    | error h' => exact .error (hending.trans h')
    | ok hb h' => exact .ok hb (hending.trans h')

/-- What is handed to the sink before does not change how a part ends. -/
theorem EndsBy.turn (h : c.EndsBy state stats P verdict) (events : List Event) (s : σ)
    (before : Stats) : (Course.turn events s before c).EndsBy state stats P verdict := by
  cases h with
  | error h => exact .error h
  | ok ha h => exact .ok ha h

end Course

namespace Recognizer

variable {σ : Type} (r : Recognizer σ) (config : Config) {state : σ} {f : List Text → List Entity}

/-- What a recognizer finds in sentences that answers by a function. -/
def foundBy (f : List Text → List Entity) (ss : List Sentence) : List Finding :=
  ss.map fun tokens => (tokens, f tokens.forms)

/-- The pages of blocks for such a recognizer. -/
def pagesBy (f : List Text → List Entity) (input : InputFormat) (blocks : List Text) : List Page :=
  blocks.map fun block => ⟨block, foundBy f (input.sentences block)⟩

theorem addPages_pagesBy (f : List Text → List Entity) (input : InputFormat)
    (blocks : List Text) :
    let ss := blocks.flatMap input.sentences
    Stats.addPages {} (pagesBy f input blocks)
      = ⟨blocks.length, ss.length, ss.flatten.length,
        (ss.flatMap fun tokens => f tokens.forms).length⟩ := by
  intro ss
  have hfound : (pagesBy f input blocks).flatMap Page.found = foundBy f ss := by
    rw [pagesBy, foundBy, List.flatMap_map, List.map_flatMap]
    rfl
  have htokens : (foundBy f ss).flatMap Prod.fst = ss.flatten := by
    rw [foundBy, List.flatMap_map, List.flatMap_id']
  rw [Stats.addPages_eq, hfound, Stats.addFindings_eq, htokens, foundBy, List.flatMap_map]
  simp [pagesBy]

/-- Why the first of several sentences is refused that is. -/
def verdict (f : List Text → List Entity) (config : Config) (ss : List Sentence) :
    Option MarkupError :=
  ss.findSome? fun tokens => config.refusal? (f tokens.forms)

variable (hanswer : ∀ forms, r.recognize state forms = (.ok (f forms), state))
  (hspan : ∀ forms, ∀ e ∈ f forms, e.isSpanOf forms.length = true)

include hanswer hspan

theorem endsBy_sentencesCourse {renderer : Renderer} (hr : renderer.Follows config)
    (ss : List Sentence) (stats : Stats) :
    (r.sentencesCourse renderer ss state stats).EndsBy state (stats.addFindings (foundBy f ss))
      (·.Follows config) (verdict f config ss) := by
  induction ss generalizing renderer stats with
  | nil => exact .ok hr rfl
  | cons tokens rest ih =>
    unfold sentencesCourse verdict
    rw [hanswer, List.findSome?_cons]
    simp only
    have hspans : ∀ e ∈ f tokens.forms, e.isSpanOf tokens.length = true := by
      intro e he
      rw [← List.length_map Token.form]
      exact hspan tokens.forms e he
    rcases Renderer.sentence_cases hr hspans with
      ⟨error, hrefusal, hsentence⟩ | ⟨hrefusal, events, renderer', hsentence, hr'⟩
    · rw [hrefusal, hsentence]
      exact .error rfl
    · rw [hrefusal, hsentence]
      exact (ih hr' (stats.addSentence tokens (f tokens.forms))).turn _ _ _

theorem endsBy_blockCourse (counter : LineCounter) (block : Text) (stats : Stats) :
    (r.blockCourse config counter block state stats).EndsBy state
      (stats.addFindings (foundBy f (config.input.sentences block))).addBlock (fun _ => True)
      (verdict f config (config.input.sentences block)) := by
  have hsentences := r.endsBy_sentencesCourse config hanswer hspan
    (⟨rfl, rfl⟩ : Renderer.Follows ⟨config.output, config.crossing, block, counter, 0, 0⟩ config)
    (config.input.sentences block) stats
  have hblock := hsentences.andThen
    (fun renderer state stats => .turn renderer.finish.1 state stats.addBlock
      (.ends (.ok renderer.finish.2) state stats.addBlock))
    (fun renderer _ => .ok (P := fun _ => True) trivial rfl)
  rwa [Option.or_none] at hblock

theorem endsBy_itemsCourse (counter : LineCounter) (blocks : List Text) (stats : Stats) :
    (r.itemsCourse config counter (blocks.map .block) state stats).EndsBy state
      (stats.addPages (pagesBy f config.input blocks)) (fun _ => True)
      (verdict f config (blocks.flatMap config.input.sentences)) := by
  induction blocks generalizing counter stats with
  | nil => exact .ok trivial rfl
  | cons block rest ih =>
    rw [verdict, List.flatMap_cons, List.findSome?_append]
    exact (r.endsBy_blockCourse config hanswer hspan counter block stats).andThen _
      fun counter _ => ih counter _

/-- **The first sentence that is refused decides.** If there is one, its text is not marked up;
otherwise all blocks, sentences and tokens are counted. -/
theorem renderText_verdict (text : Text) :
    let blocks := Block.ofText text
    let ss := blocks.flatMap config.input.sentences
    (∃ error, verdict f config ss = some error ∧
        (r.renderText config text state).1 = .error error) ∨
      verdict f config ss = none ∧
        ∃ output stats, (r.renderText config text state).1 = .ok (output, stats) ∧
          stats.blocks = blocks.length ∧ stats.sentences = ss.length ∧
          stats.tokens = ss.flatten.length := by
  intro blocks ss
  have hcourse := (r.endsBy_itemsCourse config hanswer hspan {} blocks {}).andThen
    (fun _ state stats => .ends (.ok stats) state stats)
    (fun _ _ => .ok (P := (· = Stats.addPages {} (pagesBy f config.input blocks))) rfl rfl)
  rw [Option.or_none, ← Block.items_utf8] at hcourse
  rw [fst_renderText, course]
  generalize verdict f config ss = v at hcourse ⊢
  cases hcourse with
  | error h => exact Or.inl ⟨_, rfl, by rw [h]⟩
  | ok ha h =>
    obtain rfl := ha
    exact Or.inr ⟨rfl, _, _, by rw [h], by rw [addPages_pagesBy], by rw [addPages_pagesBy],
      by rw [addPages_pagesBy]⟩

end Recognizer

end EntityMarkup
