import EntityMarkup.Proofs.Pipeline.Pages

/-!
# The course of a run

A run depends on its sink in one way only: it ends when the sink fails. A `Course` is what a run
does when that is taken away: turn by turn, what is handed to the sink, with the state of the
recognizer and the counts at that time, and in the end a result. To `play` a course is to hand its
turns to a sink until one of them fails. Runs can then be compared without their sinks.

* `play_andThen`, `andThen_of_ok`, `andThen_of_error`: one course after the other.
* `play_of_room_none`, `of_play_eq_ok`: a run on a sink without a limit, and one that succeeds.
* `exists_play`: a run keeps what its sink held before.
* `renderSentences_eq_play`, `renderBlock_eq_play`, `renderItems_eq_play`: the parts of a run.
* **`process_eq_play`**: a run is its course, played to its sink.
-/

namespace EntityMarkup

/-- What a run does up to its end, if the sink does not fail before. -/
inductive Course (σ α : Type) where
  /-- The run ends. -/
  | ends (result : Except MarkupError α) (state : σ) (stats : Stats)
  /-- Events are handed to the sink together, when the recognizer is in this state and the counts
  are these, and the run goes on. -/
  | turn (events : List Event) (state : σ) (stats : Stats) (rest : Course σ α)

namespace Course

variable {σ α β : Type}

/-- The run on a sink. -/
def play : Course σ α → Sink → Except MarkupError α × Progress σ
  | .ends result state stats, sink => (result, ⟨state, sink, stats⟩)
  | .turn events state stats rest, sink =>
    match sink.acceptAll events with
    | (sink, true) => rest.play sink
    | (sink, false) => (.error (.io .full), ⟨state, sink, stats⟩)

/-- What is handed to the sink, turn by turn. -/
def turns : Course σ α → List (List Event)
  | .ends _ _ _ => []
  | .turn events _ _ rest => events :: rest.turns

/-- What is handed to the sink, all in all. -/
def events (c : Course σ α) : List Event :=
  c.turns.flatten

/-- The result, and the state of the recognizer and the counts at the end. -/
def ending : Course σ α → Except MarkupError α × σ × Stats
  | .ends result state stats => (result, state, stats)
  | .turn _ _ _ rest => rest.ending

/-- Goes on after a course that ends well. -/
def andThen : Course σ α → (α → σ → Stats → Course σ β) → Course σ β
  | .ends (.ok a) state stats, next => next a state stats
  | .ends (.error e) state stats, _ => .ends (.error e) state stats
  | .turn events state stats rest, next => .turn events state stats (rest.andThen next)

/-- **One course after the other** is played to the sink that the first has left. -/
theorem play_andThen (c : Course σ α) (next : α → σ → Stats → Course σ β) (sink : Sink) :
    (c.andThen next).play sink =
      match c.play sink with
      | (.ok a, p) => (next a p.state p.stats).play p.sink
      | (.error e, p) => (.error e, p) := by
  induction c generalizing sink with
  | ends result state stats => cases result <;> rfl
  | turn events state stats rest ih =>
    rw [andThen, play, play]
    cases hsink : sink.acceptAll events with
    | mk sink' complete =>
      cases complete with
      | true => exact ih sink'
      | false => rfl

theorem andThen_assoc {γ : Type} (c : Course σ α) (next : α → σ → Stats → Course σ β)
    (next' : β → σ → Stats → Course σ γ) :
    (c.andThen next).andThen next'
      = c.andThen fun a state stats => (next a state stats).andThen next' := by
  induction c with
  | ends result state stats => cases result <;> rfl
  | turn events state stats rest ih => rw [andThen, andThen, andThen, ih]

@[simp] theorem events_ends (result : Except MarkupError α) (state : σ) (stats : Stats) :
    (ends result state stats).events = [] :=
  rfl

@[simp] theorem events_turn (events : List Event) (state : σ) (stats : Stats)
    (rest : Course σ α) : (turn events state stats rest).events = events ++ rest.events := by
  rw [Course.events, turns, List.flatten_cons, Course.events]

theorem andThen_of_ok {c : Course σ α} {a : α} {state : σ} {stats : Stats}
    (h : c.ending = (.ok a, state, stats)) (next : α → σ → Stats → Course σ β) :
    (c.andThen next).ending = (next a state stats).ending ∧
      (c.andThen next).events = c.events ++ (next a state stats).events := by
  induction c with
  | ends result s t =>
    obtain ⟨rfl, hend⟩ := Prod.mk.inj h
    obtain ⟨rfl, rfl⟩ := Prod.mk.inj hend
    exact ⟨rfl, rfl⟩
  | turn events s t rest ih =>
    obtain ⟨hending, hevents⟩ := ih h
    refine ⟨hending, ?_⟩
    rw [andThen, events_turn, events_turn, hevents, List.append_assoc]

theorem andThen_of_error {c : Course σ α} {e : MarkupError} {state : σ} {stats : Stats}
    (h : c.ending = (.error e, state, stats)) (next : α → σ → Stats → Course σ β) :
    (c.andThen next).ending = (.error e, state, stats) ∧ (c.andThen next).events = c.events := by
  induction c with
  | ends result s t =>
    obtain ⟨rfl, hend⟩ := Prod.mk.inj h
    obtain ⟨rfl, rfl⟩ := Prod.mk.inj hend
    exact ⟨rfl, rfl⟩
  | turn events s t rest ih =>
    obtain ⟨hending, hevents⟩ := ih h
    refine ⟨hending, ?_⟩
    rw [andThen, events_turn, events_turn, hevents]

theorem events_andThen_of_nil (c : Course σ α) {next : α → σ → Stats → Course σ β}
    (hnil : ∀ a state stats, (next a state stats).events = []) :
    (c.andThen next).events = c.events := by
  induction c with
  | ends result state stats =>
    cases result with
    | ok a => exact hnil a state stats
    | error e => rfl
  | turn events state stats rest ih => rw [andThen, events_turn, events_turn, ih]

/-- On a sink without a limit a run comes to its end. -/
theorem play_of_room_none (c : Course σ α) {sink : Sink} (hroom : sink.room = none) :
    c.play sink = (c.ending.1, ⟨c.ending.2.1, sink.record c.events, c.ending.2.2⟩) := by
  induction c generalizing sink with
  | ends result state stats =>
    have hevents : (ends result state stats).events = [] := rfl
    rw [hevents, Sink.record_nil]
    rfl
  | turn events state stats rest ih =>
    have hroom' : (sink.record events).room = none := hroom
    rw [play, Sink.acceptAll_of_room_none hroom, events_turn, Sink.record_append]
    exact ih hroom'

/-- A run that succeeds has come to its end, whatever the sink, which has taken everything. -/
theorem of_play_eq_ok {c : Course σ α} {sink : Sink} {a : α} {p : Progress σ}
    (h : c.play sink = (.ok a, p)) :
    c.ending = (.ok a, p.state, p.stats) ∧
      p.sink.written = sink.written ++ (Event.written c.events).utf8 ∧
      p.sink.warnings = sink.warnings ++ Event.warnings c.events := by
  induction c generalizing sink with
  | ends result state stats =>
    obtain ⟨rfl, rfl⟩ := Prod.mk.inj h
    exact ⟨rfl, by simp [events, turns, Event.written], by simp [events, turns, Event.warnings]⟩
  | turn events state stats rest ih =>
    rw [play] at h
    cases haccept : sink.acceptAll events with
    | mk sink' complete =>
      rw [haccept] at h
      cases complete with
      | false => cases h
      | true =>
        obtain ⟨hwritten, hwarnings⟩ := Sink.of_acceptAll_eq_true haccept
        obtain ⟨hending, hwritten', hwarnings'⟩ := ih h
        refine ⟨hending, ?_, ?_⟩
        · simp [hwritten', hwritten, ← Array.toList_inj]
        · simp [hwarnings', hwarnings, ← Array.toList_inj]

/-- A run keeps what its sink held before. -/
theorem exists_play (c : Course σ α) (sink : Sink) :
    ∃ (bytes : Bytes) (reported : List Warning),
      (c.play sink).2.sink.written = sink.written ++ bytes ∧
      (c.play sink).2.sink.warnings = sink.warnings ++ reported := by
  induction c generalizing sink with
  | ends result state stats => exact ⟨[], [], by simp [play], by simp [play]⟩
  | turn events state stats rest ih =>
    obtain ⟨bytes, reported, hwritten, hwarnings, -, -, -⟩ := sink.exists_acceptAll events
    rw [play]
    cases haccept : sink.acceptAll events with
    | mk sink' complete =>
      rw [haccept] at hwritten hwarnings
      cases complete with
      | true =>
        obtain ⟨more, later, hmore, hlater⟩ := ih sink'
        dsimp only at hwritten hwarnings ⊢
        refine ⟨bytes ++ more, reported ++ later, ?_, ?_⟩
        · simp [hmore, hwritten, ← Array.toList_inj]
        · simp [hlater, hwarnings, ← Array.toList_inj]
      | false => exact ⟨bytes, reported, hwritten, hwarnings⟩

end Course

namespace Recognizer

variable {σ : Type} (r : Recognizer σ) (config : Config)

/-! ## The courses of a run and its parts -/

/-- The course over the sentences of a block. A sentence that is rendered is a turn. -/
def sentencesCourse (renderer : Renderer) : List Sentence → σ → Stats → Course σ Renderer
  | [], state, stats => .ends (.ok renderer) state stats
  | tokens :: rest, state, stats =>
    match r.recognize state tokens.forms with
    | (.error e, state) => .ends (.error e) state stats
    | (.ok entities, state) =>
      let stats := stats.addSentence tokens entities
      match renderer.sentence tokens entities with
      | .error e => .ends (.error e) state stats
      | .ok (events, renderer) =>
        .turn events state stats (sentencesCourse renderer rest state stats)

/-- The course over a block, of which the end is a turn too. -/
def blockCourse (counter : LineCounter) (block : Text) (state : σ) (stats : Stats) :
    Course σ LineCounter :=
  let renderer : Renderer := ⟨config.output, config.crossing, block, counter, 0, 0⟩
  (r.sentencesCourse renderer (config.input.sentences block) state stats).andThen
    fun renderer state stats =>
      .turn renderer.finish.1 state stats.addBlock
        (.ends (.ok renderer.finish.2) state stats.addBlock)

/-- The course over the items of an input. -/
def itemsCourse (counter : LineCounter) : List Block.Item → σ → Stats → Course σ Unit
  | [], state, stats => .ends (.ok ()) state stats
  | .unreadable :: _, state, stats => .ends (.error (.io .unreadable)) state stats
  | .block block :: rest, state, stats =>
    (r.blockCourse config counter block state stats).andThen
      fun counter state stats => itemsCourse counter rest state stats

/-- The course over blocks, which ends with the counter for the next. -/
def blocksCourse (counter : LineCounter) : List Text → σ → Stats → Course σ LineCounter
  | [], state, stats => .ends (.ok counter) state stats
  | block :: rest, state, stats =>
    (r.blockCourse config counter block state stats).andThen
      fun counter state stats => blocksCourse counter rest state stats

theorem itemsCourse_append (counter : LineCounter) (blocks : List Text) (items : List Block.Item)
    (state : σ) (stats : Stats) :
    r.itemsCourse config counter (blocks.map .block ++ items) state stats
      = (r.blocksCourse config counter blocks state stats).andThen
        fun counter state stats => r.itemsCourse config counter items state stats := by
  induction blocks generalizing counter state stats with
  | nil => rfl
  | cons block rest ih =>
    rw [List.map_cons, List.cons_append, itemsCourse, blocksCourse, Course.andThen_assoc]
    congr 1
    funext counter state stats
    exact ih counter state stats

/-- The course over an input. -/
def course (input : Bytes) (state : σ) : Course σ Stats :=
  (r.itemsCourse config {} (Block.items input) state {}).andThen
    fun _ state stats => .ends (.ok stats) state stats

/-! ## A run is its course -/

theorem renderSentences_eq_play (renderer : Renderer) (sentences : List Sentence) (state : σ)
    (sink : Sink) (stats : Stats) :
    r.renderSentences renderer sentences ⟨state, sink, stats⟩
      = (r.sentencesCourse renderer sentences state stats).play sink := by
  induction sentences generalizing renderer state sink stats with
  | nil => rfl
  | cons tokens rest ih =>
    rw [renderSentences_cons, sentencesCourse]
    cases r.recognize state tokens.forms with
    | mk answer state =>
      cases answer with
      | error e => rfl
      | ok entities =>
        simp only
        cases renderer.sentence tokens entities with
        | error e => rfl
        | ok rendered =>
          simp only [Course.play, Progress.emit]
          cases sink.acceptAll rendered.1 with
          | mk sink complete =>
            cases complete with
            | true => exact ih rendered.2 state sink _
            | false => rfl

theorem renderBlock_eq_play (counter : LineCounter) (block : Text) (state : σ) (sink : Sink)
    (stats : Stats) :
    r.renderBlock config counter block ⟨state, sink, stats⟩
      = (r.blockCourse config counter block state stats).play sink := by
  rw [renderBlock, blockCourse, Course.play_andThen]
  simp only [renderSentences_eq_play]
  cases (r.sentencesCourse ⟨config.output, config.crossing, block, counter, 0, 0⟩
    (config.input.sentences block) state stats).play sink with
  | mk result p =>
    cases result with
    | error e => rfl
    | ok renderer =>
      simp only [Course.play, Progress.emit]
      cases p.sink.acceptAll renderer.finish.1 with
      | mk sink complete => cases complete <;> rfl

theorem renderItems_eq_play (counter : LineCounter) (items : List Block.Item) (state : σ)
    (sink : Sink) (stats : Stats) :
    r.renderItems config counter items ⟨state, sink, stats⟩
      = (r.itemsCourse config counter items state stats).play sink := by
  induction items generalizing counter state sink stats with
  | nil => rfl
  | cons item rest ih =>
    cases item with
    | unreadable => rfl
    | block block =>
      rw [renderItems, itemsCourse, Course.play_andThen, renderBlock_eq_play]
      cases (r.blockCourse config counter block state stats).play sink with
      | mk result p =>
        cases result with
        | error e => rfl
        | ok counter => exact ih counter p.state p.sink p.stats

/-- **A run is its course, played to its sink.** -/
theorem process_eq_play (input : Bytes) (state : σ) (sink : Sink) :
    r.process config input state sink = (r.course config input state).play sink := by
  rw [process, course, Course.play_andThen, renderItems_eq_play]
  cases (r.itemsCourse config {} (Block.items input) state {}).play sink with
  | mk result p => cases result <;> rfl

end Recognizer

end EntityMarkup
