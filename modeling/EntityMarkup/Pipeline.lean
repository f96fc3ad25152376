import EntityMarkup.Block
import EntityMarkup.Recognizer
import EntityMarkup.Render.Renderer
import EntityMarkup.Sink
import EntityMarkup.Token.Listed
import EntityMarkup.Token.Running

/-!
# From input to marked-up text

An input is read block by block. The sentences of a block are found, the recognizer is asked about
each of them, and the entities it answers are rendered at once; the block then ends with what its
format writes last. The first error ends everything, and what was written before it stays written.

`Progress` is what a run has come to: the state of the recognizer, the sink, and counts. Between
blocks nothing else is kept but the line counter, which is passed on explicitly.

Flushing the sink at the end is left out, and so is what is logged besides warnings.
-/

namespace EntityMarkup

/-- Counts of what has been processed. -/
structure Stats where
  blocks : Nat := 0
  sentences : Nat := 0
  tokens : Nat := 0
  entities : Nat := 0
  deriving DecidableEq, Repr

namespace Stats

/-- Counts a sentence with the entities that were found in it. -/
def addSentence (s : Stats) (tokens : Sentence) (entities : List Entity) : Stats :=
  { s with
    sentences := s.sentences + 1
    tokens := s.tokens + tokens.length
    entities := s.entities + entities.length }

/-- Counts a block. -/
def addBlock (s : Stats) : Stats :=
  { s with blocks := s.blocks + 1 }

end Stats

/-- The sentences of a block in an input format. -/
def InputFormat.sentences : InputFormat → Text → List Sentence
  | .untokenized => Running.sentences
  | .vertical => Listed.sentences

/-- What a run has come to. -/
structure Progress (σ : Type) where
  /-- The state of the recognizer. -/
  state : σ
  sink : Sink := {}
  stats : Stats := {}

namespace Progress

variable {σ : Type}

/-- Hands events to the sink. -/
def emit (p : Progress σ) (events : List Event) : Except MarkupError Unit × Progress σ :=
  let (sink, complete) := p.sink.acceptAll events
  (if complete then .ok () else .error (.io .full), { p with sink })

end Progress

namespace Recognizer

variable {σ : Type}

/-! ## Blocks -/

/-- Finds and renders the entities of the sentences of a block, and answers with the renderer as it
is after them. -/
def renderSentences (r : Recognizer σ) (renderer : Renderer) :
    List Sentence → Progress σ → Except MarkupError Renderer × Progress σ
  | [], p => (.ok renderer, p)
  | tokens :: rest, p =>
    match r.recognize p.state tokens.forms with
    | (.error e, state) => (.error e, { p with state })
    | (.ok entities, state) =>
      let p := { p with state, stats := p.stats.addSentence tokens entities }
      let (outcome, trace) := renderer.call tokens entities
      match p.emit trace.events, outcome with
      | (.error e, p), _ => (.error e, p)
      | (.ok (), p), .error e => (.error e, p)
      | (.ok (), p), .ok () => renderSentences r trace.renderer rest p

/-- Processes a block, and answers with the line counter for the next. -/
def renderBlock (r : Recognizer σ) (config : Config) (counter : LineCounter) (block : Text)
    (p : Progress σ) : Except MarkupError LineCounter × Progress σ :=
  let renderer : Renderer := ⟨config.output, config.crossing, block, counter, 0, 0⟩
  match r.renderSentences renderer (config.input.sentences block) p with
  | (.error e, p) => (.error e, p)
  | (.ok renderer, p) =>
    let (events, counter) := renderer.finish
    match Progress.emit { p with stats := p.stats.addBlock } events with
    | (.error e, p) => (.error e, p)
    | (.ok (), p) => (.ok counter, p)

/-! ## Inputs -/

/-- Processes the items of an input. -/
def renderItems (r : Recognizer σ) (config : Config) (counter : LineCounter) :
    List Block.Item → Progress σ → Except MarkupError Unit × Progress σ
  | [], p => (.ok (), p)
  | .unreadable :: _, p => (.error (.io .unreadable), p)
  | .block block :: rest, p =>
    match r.renderBlock config counter block p with
    | (.error e, p) => (.error e, p)
    | (.ok counter, p) => renderItems r config counter rest p

/-- Processes an input from its beginning. -/
def process (r : Recognizer σ) (config : Config) (input : Bytes) (state : σ) (sink : Sink) :
    Except MarkupError Stats × Progress σ :=
  match r.renderItems config {} (Block.items input) { state, sink } with
  | (.ok (), p) => (.ok p.stats, p)
  | (.error e, p) => (.error e, p)

/-- Marks up a text, and answers with what was written. -/
def renderText (r : Recognizer σ) (config : Config) (text : Text) (state : σ) :
    Except MarkupError (Text × Stats) × Progress σ :=
  match r.process config text.utf8 state {} with
  | (.error e, p) => (.error e, p)
  | (.ok stats, p) =>
    match p.sink.text? with
    | some output => (.ok (output, stats), p)
    | none => (.error (.io .unreadable), p)

end Recognizer

end EntityMarkup
