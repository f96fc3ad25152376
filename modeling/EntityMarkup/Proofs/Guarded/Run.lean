import EntityMarkup.Proofs.Guarded.Reading
import EntityMarkup.Proofs.Guarded.Sentence
import EntityMarkup.Proofs.Pipeline.Pages
import EntityMarkup.Proofs.Token.Forms

/-!
# Runs in words

A run counts blocks, sentences, tokens and lines. Each sentence and each token takes a byte of its
block at least, and each block one line more than it has tokens (`Block.weight`). `Stats.Fits` and
`Renderer.Fits` say how much may still come, and are carried from sentence to sentence and from
block to block. No input bounds how many entities a recognizer finds. So what adds these up is a
parameter of a run, and `AddsUpTo` says how far it has to go.

* **`renderSentences?_eq`**, `renderBlock?_eq`: the sentences of a block, and the block.
* **`process?_eq`**: a run on an input shorter than `2 ^ 63` bytes, if its entities can be added up.
* **`process_total`**: such a run fails with an error of its own or not at all, whatever the
  recognizer answers.
-/

namespace EntityMarkup

/-! ## Counts -/

namespace Stats

/-- Counts a sentence with the entities that were found in it, which are added by `add?`. -/
def addSentence? (add? : Nat → Nat → Option Nat) (s : Stats) (tokens : Sentence)
    (entities : List Entity) : Option Stats := do
  let sentences ← Word.add? s.sentences 1
  let counted ← Word.add? s.tokens tokens.length
  let found ← add? s.entities entities.length
  return { s with sentences, tokens := counted, entities := found }

/-- Counts a block. -/
def addBlock? (s : Stats) : Option Stats := do
  let blocks ← Word.add? s.blocks 1
  return { s with blocks }

/-- Sums up to a number can be formed by `add?`. -/
def AddsUpTo (add? : Nat → Nat → Option Nat) (total : Nat) : Prop :=
  ∀ a b, a + b ≤ total → add? a b = some (a + b)

/-- There are words for so many more of all that is bounded by the input. -/
structure Fits (s : Stats) (ahead : Nat) : Prop where
  blocks : s.blocks + ahead < Word.bound
  sentences : s.sentences + ahead < Word.bound
  tokens : s.tokens + ahead < Word.bound

variable {add? : Nat → Nat → Option Nat} {s : Stats} {ahead total : Nat} {tokens : Sentence}
  {entities : List Entity}

theorem Fits.mono {less : Nat} (h : s.Fits ahead) (hle : less ≤ ahead) : s.Fits less := by
  obtain ⟨hblocks, hsentences, htokens⟩ := h
  exact ⟨by omega, by omega, by omega⟩

/-- A sentence takes no more room than its tokens. -/
theorem addSentence?_eq (h : s.Fits (tokens.length + ahead)) (hne : tokens ≠ [])
    (hadd : AddsUpTo add? total) (htotal : (s.addSentence tokens entities).entities ≤ total) :
    s.addSentence? add? tokens entities = some (s.addSentence tokens entities) ∧
      (s.addSentence tokens entities).Fits ahead := by
  obtain ⟨hblocks, hsentences, htokens⟩ := h
  have hpos := List.length_pos_iff.mpr hne
  have hcounted : s.tokens + tokens.length < Word.bound := by omega
  have hnext : s.sentences + 1 < Word.bound := by omega
  refine ⟨?_, ?_, ?_, ?_⟩
  · simp only [addSentence?, Word.add?_of_lt hnext, Word.add?_of_lt hcounted, hadd _ _ htotal,
      Option.bind_eq_bind, Option.bind_some, Option.pure_def]
    rfl
  all_goals
    simp only [addSentence]
    omega

theorem addBlock?_eq (h : s.Fits (1 + ahead)) :
    s.addBlock? = some s.addBlock ∧ s.addBlock.Fits ahead := by
  obtain ⟨hblocks, hsentences, htokens⟩ := h
  have hnext : s.blocks + 1 < Word.bound := by omega
  refine ⟨?_, ?_, ?_, ?_⟩
  · simp only [addBlock?, Word.add?_of_lt hnext, Option.bind_eq_bind, Option.bind_some,
      Option.pure_def]
    rfl
  all_goals
    simp only [addBlock]
    omega

end Stats

theorem Progress.stats_of_emit {σ : Type} {p p' : Progress σ} {events : List Event}
    {outcome : Except MarkupError Unit} (h : p.emit events = (outcome, p')) :
    p'.stats = p.stats := by
  cases h
  rfl

namespace Recognizer

variable {σ : Type}

/-! ## Runs whose operations can fail

What adds up the entities is the parameter `add?`. -/

section Definitions

variable (add? : Nat → Nat → Option Nat)

/-- Finds and renders the entities of the sentences of a block. -/
def renderSentences? (r : Recognizer σ) (renderer : Renderer) :
    List Sentence → Progress σ → Option (Except MarkupError Renderer × Progress σ)
  | [], p => return (.ok renderer, p)
  | tokens :: rest, p =>
    match r.recognize p.state tokens.forms with
    | (.error e, state) => return (.error e, { p with state })
    | (.ok entities, state) => do
      let stats ← p.stats.addSentence? add? tokens entities
      let p := { p with state, stats }
      match ← renderer.sentence? tokens entities with
      | .error e => return (.error e, p)
      | .ok (events, renderer) =>
        match p.emit events with
        | (.error e, p) => return (.error e, p)
        | (.ok (), p) => renderSentences? r renderer rest p

/-- Processes a block. -/
def renderBlock? (r : Recognizer σ) (config : Config) (counter : LineCounter) (block : Text)
    (p : Progress σ) : Option (Except MarkupError LineCounter × Progress σ) := do
  let sentences ← config.input.sentences? block
  let renderer : Renderer := ⟨config.output, config.crossing, block, counter, 0, 0⟩
  match ← r.renderSentences? add? renderer sentences p with
  | (.error e, p) => return (.error e, p)
  | (.ok renderer, p) =>
    let stats ← p.stats.addBlock?
    let (events, counter) ← renderer.finish?
    match Progress.emit { p with stats } events with
    | (.error e, p) => return (.error e, p)
    | (.ok (), p) => return (.ok counter, p)

/-- Processes the items of an input. -/
def renderItems? (r : Recognizer σ) (config : Config) (counter : LineCounter) :
    List Block.Item → Progress σ → Option (Except MarkupError Unit × Progress σ)
  | [], p => return (.ok (), p)
  | .unreadable :: _, p => return (.error (.io .unreadable), p)
  | .block block :: rest, p => do
    match ← r.renderBlock? add? config counter block p with
    | (.error e, p) => return (.error e, p)
    | (.ok counter, p) => renderItems? r config counter rest p

/-- Processes an input from its beginning. -/
def process? (r : Recognizer σ) (config : Config) (input : Bytes) (state : σ) (sink : Sink) :
    Option (Except MarkupError Stats × Progress σ) := do
  let items ← Block.items? input
  match ← r.renderItems? add? config {} items { state, sink } with
  | (.ok (), p) => return (.ok p.stats, p)
  | (.error e, p) => return (.error e, p)

end Definitions

/-! ## Entities -/

section Entities

variable (r : Recognizer σ) (config : Config)

/-- The entities of the first of several sentences stay counted if those of the others do. -/
theorem counted_le_renderSentences {renderer : Renderer} {tokens : Sentence} {rest : List Sentence}
    {p : Progress σ} {entities : List Entity} {state : σ}
    (hrest : ∀ renderer p,
      p.stats.entities ≤ (r.renderSentences renderer rest p).2.stats.entities)
    (hrecognize : r.recognize p.state tokens.forms = (.ok entities, state)) :
    (p.stats.addSentence tokens entities).entities
      ≤ (r.renderSentences renderer (tokens :: rest) p).2.stats.entities := by
  rw [renderSentences_cons, hrecognize]
  cases hsentence : renderer.sentence tokens entities with
  | error e => simp [hsentence]
  | ok rendered =>
    cases hemit : Progress.emit ⟨state, p.sink, p.stats.addSentence tokens entities⟩
        rendered.1 with
    | mk outcome p₁ =>
      have hkept : p₁.stats = p.stats.addSentence tokens entities :=
        Progress.stats_of_emit hemit
      simp only [hsentence, hemit]
      rw [← hkept]
      cases outcome with
      | error e => exact Nat.le_refl _
      | ok u => exact hrest rendered.2 p₁

/-- Entities are counted and never taken back. -/
theorem entities_le_renderSentences (renderer : Renderer) (sentences : List Sentence)
    (p : Progress σ) :
    p.stats.entities ≤ (r.renderSentences renderer sentences p).2.stats.entities := by
  induction sentences generalizing renderer p with
  | nil => exact le_refl _
  | cons tokens rest ih =>
    cases hrecognize : r.recognize p.state tokens.forms with
    | mk answer state =>
      cases answer with
      | error e =>
        rw [renderSentences_cons, hrecognize]
      | ok entities =>
        have hcounted : p.stats.entities ≤ (p.stats.addSentence tokens entities).entities :=
          Nat.le_add_right _ _
        exact hcounted.trans (counted_le_renderSentences r ih hrecognize)

theorem entities_le_finish (counter : LineCounter) (block : Text) (p : Progress σ) :
    (r.renderSentences ⟨config.output, config.crossing, block, counter, 0, 0⟩
        (config.input.sentences block) p).2.stats.entities
      ≤ (r.renderBlock config counter block p).2.stats.entities := by
  rw [renderBlock]
  generalize r.renderSentences ⟨config.output, config.crossing, block, counter, 0, 0⟩
    (config.input.sentences block) p = run
  obtain ⟨e | renderer, p₁⟩ := run
  · exact Nat.le_refl _
  · cases hemit : Progress.emit { p₁ with stats := p₁.stats.addBlock } renderer.finish.1 with
    | mk outcome p₂ =>
      have hkept : p₂.stats = p₁.stats.addBlock := Progress.stats_of_emit hemit
      have hcounted : p₁.stats.entities ≤ p₂.stats.entities := hkept ▸ Nat.le_refl _
      simp only [hemit]
      cases outcome <;> exact hcounted

theorem entities_le_renderBlock (counter : LineCounter) (block : Text) (p : Progress σ) :
    p.stats.entities ≤ (r.renderBlock config counter block p).2.stats.entities :=
  (r.entities_le_renderSentences _ _ p).trans (r.entities_le_finish config counter block p)

theorem entities_le_renderItems (counter : LineCounter) (items : List Block.Item)
    (p : Progress σ) :
    p.stats.entities ≤ (r.renderItems config counter items p).2.stats.entities := by
  induction items generalizing counter p with
  | nil => exact le_refl _
  | cons item rest ih =>
    cases item with
    | unreadable => exact le_refl _
    | block block =>
      have hblock := r.entities_le_renderBlock config counter block p
      rw [renderItems]
      generalize r.renderBlock config counter block p = run at hblock ⊢
      obtain ⟨e | counter₁, p₁⟩ := run
      · exact hblock
      · exact hblock.trans (ih counter₁ p₁)

theorem entities_le_rest (counter : LineCounter) (block : Text) (rest : List Block.Item)
    (p : Progress σ) :
    (r.renderBlock config counter block p).2.stats.entities
      ≤ (r.renderItems config counter (.block block :: rest) p).2.stats.entities := by
  rw [renderItems]
  obtain ⟨e | counter₁, p₁⟩ := r.renderBlock config counter block p
  · exact Nat.le_refl _
  · exact r.entities_le_renderItems config counter₁ rest p₁

end Entities

variable (r : Recognizer σ) {config : Config} {n ahead room total : Nat} {p : Progress σ}
  {add? : Nat → Nat → Option Nat} (hadd : Stats.AddsUpTo add? total)

include hadd

/-! ## Blocks -/

/-- **The sentences of a block do not fail in words**, and there is room for what follows them. -/
theorem renderSentences?_eq {renderer : Renderer} {sentences : List Sentence}
    (hfits : renderer.Fits n (sentences.flatten.length + ahead))
    (hstats : p.stats.Fits (sentences.flatten.length + room))
    (hin : renderer.block.InOrder n (sentences.flatten.map Token.range))
    (hne : ∀ tokens ∈ sentences, tokens ≠ [])
    (htotal : (r.renderSentences renderer sentences p).2.stats.entities ≤ total) :
    r.renderSentences? add? renderer sentences p
        = some (r.renderSentences renderer sentences p) ∧
      ∀ renderer' p', r.renderSentences renderer sentences p = (.ok renderer', p') →
        (∃ m, renderer'.Fits m ahead) ∧ p'.stats.Fits room := by
  induction sentences generalizing renderer p n with
  | nil =>
    refine ⟨rfl, fun renderer' p' h => ?_⟩
    cases h
    simp only [List.flatten_nil, List.length_nil, Nat.zero_add] at hfits hstats
    exact ⟨⟨n, hfits⟩, hstats⟩
  | cons tokens rest ih =>
    obtain ⟨htokens, hrest⟩ := List.forall_mem_cons.mp hne
    rw [List.flatten_cons, List.length_append, Nat.add_assoc] at hfits hstats
    rw [List.flatten_cons, List.map_append, Text.inOrder_append] at hin
    obtain ⟨hfirst, hbehind⟩ := hin
    cases hrecognize : r.recognize p.state tokens.forms with
    | mk answer state =>
    have hfound : ∀ entities, answer = .ok entities →
        (p.stats.addSentence tokens entities).entities ≤ total := by
      rintro entities rfl
      exact (counted_le_renderSentences r (fun renderer p =>
        r.entities_le_renderSentences renderer rest p) hrecognize).trans htotal
    rw [renderSentences_cons, hrecognize] at htotal
    rw [renderSentences?, renderSentences_cons, hrecognize]
    cases answer with
    | error e => exact ⟨rfl, fun _ _ h => by cases h⟩
    | ok entities =>
      obtain ⟨hcount, hcounted⟩ := Stats.addSentence?_eq hstats htokens hadd (hfound _ rfl)
      simp only [hcount, Renderer.sentence?_eq hfits hfirst, Option.bind_eq_bind,
        Option.bind_some]
      cases hsentence : renderer.sentence tokens entities with
      | error e => exact ⟨rfl, fun _ _ h => by cases h⟩
      | ok rendered =>
        obtain ⟨events, renderer₁⟩ := rendered
        simp only [hsentence] at htotal
        obtain ⟨hblock, hfits₁⟩ := hfits.sentence hfirst hsentence
        rw [← hblock] at hbehind
        cases hemit : Progress.emit { p with state, stats := p.stats.addSentence tokens entities }
            events with
        | mk outcome p₁ =>
          simp only [hemit]
          cases outcome with
          | error e => exact ⟨rfl, fun _ _ h => by cases h⟩
          | ok u =>
            have hkept : p₁.stats = p.stats.addSentence tokens entities :=
              Progress.stats_of_emit hemit
            rw [hemit] at htotal
            exact ih hfits₁ (hkept ▸ hcounted) hbehind hrest htotal

/-- What is counted with a block of an input is no more than the block and its line end. -/
theorem renderBlock?_eq (config : Config) {counter : LineCounter} {block : Text}
    (hcounter : counter.lines + (block.size + 1 + ahead) < Word.bound)
    (hstats : p.stats.Fits (block.size + 1 + ahead))
    (htotal : (r.renderBlock config counter block p).2.stats.entities ≤ total) :
    r.renderBlock? add? config counter block p = some (r.renderBlock config counter block p) ∧
      ∀ counter' p', r.renderBlock config counter block p = (.ok counter', p') →
        counter'.lines + ahead < Word.bound ∧ p'.stats.Fits ahead := by
  have hin := config.input.inOrder_sentences block
  have hlength := config.input.length_flatten_sentences_le block
  have hfits : Renderer.Fits ⟨config.output, config.crossing, block, counter, 0, 0⟩ 0
      ((config.input.sentences block).flatten.length + ahead) :=
    ⟨by simp only; omega, Text.isBoundary_zero block, le_refl 0, by simp only; omega⟩
  have hcounted : p.stats.Fits ((config.input.sentences block).flatten.length + (1 + ahead)) :=
    hstats.mono (by omega)
  obtain ⟨hsentences, hkept⟩ := renderSentences?_eq r hadd hfits hcounted hin
    (fun _ => InputFormat.ne_nil_of_mem_sentences)
    ((r.entities_le_finish config counter block p).trans htotal)
  have hword : block.size < Word.bound := by omega
  rw [renderBlock?, renderBlock, InputFormat.sentences?_eq hword]
  simp only [hsentences, Option.bind_eq_bind, Option.bind_some]
  cases hrun : r.renderSentences ⟨config.output, config.crossing, block, counter, 0, 0⟩
      (config.input.sentences block) p with
  | mk outcome p₁ =>
    cases outcome with
    | error e => exact ⟨rfl, fun _ _ h => by cases h⟩
    | ok renderer =>
      obtain ⟨⟨m, hfits₁⟩, hstats₁⟩ := hkept renderer p₁ hrun
      obtain ⟨hcount, hstats₂⟩ := Stats.addBlock?_eq hstats₁
      simp only [hcount, Renderer.finish?_eq hfits₁, Option.bind_some]
      cases hemit : Progress.emit { p₁ with stats := p₁.stats.addBlock } renderer.finish.1 with
      | mk outcome p₂ =>
        cases outcome with
        | error e => exact ⟨rfl, fun _ _ h => by cases h⟩
        | ok u =>
          refine ⟨rfl, ?_⟩
          rintro _ _ ⟨⟩
          have hkept : p₂.stats = p₁.stats.addBlock := Progress.stats_of_emit hemit
          exact ⟨hfits₁.lines_finish, hkept ▸ hstats₂⟩

/-! ## Inputs -/

/-- **The items of an input do not fail in words** if there is room for what they hold. -/
theorem renderItems?_eq {counter : LineCounter} {items : List Block.Item}
    (hcounter : counter.lines + Block.weight items < Word.bound)
    (hstats : p.stats.Fits (Block.weight items))
    (htotal : (r.renderItems config counter items p).2.stats.entities ≤ total) :
    r.renderItems? add? config counter items p = some (r.renderItems config counter items p) := by
  induction items generalizing counter p with
  | nil => rfl
  | cons item rest ih =>
    cases item with
    | unreadable => rfl
    | block block =>
      have hblockTotal : (r.renderBlock config counter block p).2.stats.entities ≤ total :=
        (r.entities_le_rest config counter block rest p).trans htotal
      obtain ⟨hblock, hkept⟩ := renderBlock?_eq r hadd config hcounter hstats hblockTotal
      rw [renderItems] at htotal
      rw [renderItems?, renderItems, hblock]
      cases hrun : r.renderBlock config counter block p with
      | mk outcome p₁ =>
        rw [hrun] at htotal
        cases outcome with
        | error e => rfl
        | ok counter₁ =>
          obtain ⟨hcounter₁, hstats₁⟩ := hkept counter₁ p₁ hrun
          exact ih hcounter₁ hstats₁ htotal

/-- **A run on an input of fewer than `2 ^ 63` bytes does not fail in words**, if its entities can
be added up. -/
theorem process?_eq (config : Config) {input : Bytes} (h : input.length < 2 ^ 63) (state : σ)
    (sink : Sink)
    (htotal : (r.process config input state sink).2.stats.entities ≤ total) :
    r.process? add? config input state sink = some (r.process config input state sink) := by
  have hweight : Block.weight (Block.items input) < Word.bound := by
    have hle := Block.weight_items_le input
    rw [Word.bound]
    omega
  have hcounted : (r.renderItems config {} (Block.items input) { state, sink }).2.stats.entities
      ≤ total := by
    rw [process] at htotal
    generalize r.renderItems config {} (Block.items input) { state, sink } = run at htotal ⊢
    obtain ⟨e | u, p⟩ := run <;> exact htotal
  have hitems : r.renderItems? add? config {} (Block.items input) { state, sink }
      = some (r.renderItems config {} (Block.items input) { state, sink }) :=
    renderItems?_eq r hadd (by simpa using hweight) ⟨by simpa using hweight,
      by simpa using hweight, by simpa using hweight⟩ hcounted
  rw [process?, process, Block.items?_eq]
  simp only [hitems, Option.bind_eq_bind, Option.bind_some]
  rcases r.renderItems config {} (Block.items input) { state, sink } with ⟨e | u, p⟩ <;> rfl

omit hadd

/-- **No run fails but with an error of its own.** Whatever the recognizer answers, on an input of
fewer than `2 ^ 63` bytes all ends, offsets, numbers of lines and counts the input bounds are words,
no difference is below zero, all indices are those of elements, and all slices are cut between
characters, forwards. The entities are the only count that no input bounds: however many they are,
nothing else fails, and if there is a word for their number in the end, nothing fails at all. -/
theorem process_total (config : Config) {input : Bytes} (h : input.length < 2 ^ 63) (state : σ)
    (sink : Sink) :
    r.process? (fun a b => some (a + b)) config input state sink
        = some (r.process config input state sink) ∧
      ((r.process config input state sink).2.stats.entities < 2 ^ 64 →
        r.process? Word.add? config input state sink
          = some (r.process config input state sink)) :=
  ⟨process?_eq r (fun _ _ _ => rfl) config h state sink (Nat.le_refl _),
    fun hword => process?_eq r (fun _ _ hle => Word.add?_of_lt (Nat.lt_of_le_of_lt hle hword))
      config h state sink (Nat.le_refl _)⟩

/-- Entities far behind the end of a sentence are an error in every format, and what was read before
stays counted. -/
theorem process_total_farEntity :
    let r : Recognizer Nat := ⟨fun n _ => (.ok [⟨n * (2 ^ 64 - 1), 1, "A"⟩], n + 1), fun _ => []⟩
    let input := Text.utf8 "é\n\né\n".toList
    ∀ output, ∃ p, r.process? Word.add? ⟨.vertical, output, .warn⟩ input 0 {}
      = some (.error (.invalidSpan (2 ^ 64 - 1) 1 1), p) ∧ p.stats = ⟨1, 2, 2, 2⟩ := by
  intro r input output
  have hrun : ∃ p, r.process ⟨.vertical, output, .warn⟩ input 0 {}
      = (.error (.invalidSpan (2 ^ 64 - 1) 1 1), p) ∧ p.stats = ⟨1, 2, 2, 2⟩ := by
    cases output
    all_goals exact ⟨_, rfl, rfl⟩
  obtain ⟨p, hrun, hstats⟩ := hrun
  refine ⟨p, ?_, hstats⟩
  rw [(process_total r _ (by decide) 0 {}).2, hrun]
  rw [hrun, hstats]
  decide

end Recognizer

end EntityMarkup
