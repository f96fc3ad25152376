import EntityMarkup.Config
import EntityMarkup.Entity.Crossing
import EntityMarkup.Entity.Order
import EntityMarkup.Render.Flat
import EntityMarkup.Render.Listing
import EntityMarkup.Render.Nested
import EntityMarkup.Render.Outermost

/-!
# Rendering a block

A `Renderer` goes through the sentences of one block, in any of the output formats. Its state is
how much of the block is written and how many tokens have gone by; the line counter is passed on
to the next block by `finish`.

`call` renders a sentence. It says what was written and reported, where the renderer stands and how
the call ended, also if it failed: an action does its work in order, and what it did before a
failure stays done. Each format begins with its checks. An entity that is no span of the sentence is
an error in every format. Inline formats look for entities that cross, and report them or reject the
sentence, as the policy says. `sentence` sums a call up: what it comes to, or why it failed.

A sink is flushed at the end of a block. That is not observed here.
-/

namespace EntityMarkup

/-- The state of rendering a block. -/
structure Renderer where
  format : OutputFormat
  crossing : CrossingPolicy
  block : Text
  counter : LineCounter
  /-- The offset up to which the block is written, in inline formats. -/
  cursor : Nat := 0
  /-- The tokens of the sentences so far, in the listing of entities. -/
  seen : Nat := 0
  deriving DecidableEq, Repr

namespace Renderer

/-! ## Checks -/

/-- The first of the given entities that is no span of a sentence. -/
def invalidEntity? (entities : List Entity) (tokens : Nat) : Option Entity :=
  entities.find? fun e => !e.isSpanOf tokens

/-- Checks that all entities are spans of a sentence. -/
def checkSpans (entities : List Entity) (tokens : Nat) : Except MarkupError Unit :=
  match invalidEntity? entities tokens with
  | some e => .error (.invalidSpan e.start e.length tokens)
  | none => .ok ()

/-- Applies the policy on crossing entities to a list in the order of rendering. -/
def checkCrossing (policy : CrossingPolicy) (sorted : List Entity) :
    Except MarkupError (List Event) :=
  match Entity.firstCrossing? sorted, policy with
  | none, _ => .ok []
  | some pair, .warn => .ok [.warn (.crossingSpans pair.1 pair.2)]
  | some pair, .reject => .error (.crossingSpans pair.1 pair.2)

/-! ## Rendering -/

/-- A call under way: the renderer, and what has been written and reported. -/
structure Trace where
  renderer : Renderer
  events : List Event := []
  deriving DecidableEq, Repr

/-- A part of a call. It may fail, and what was done before it failed stays done. -/
abbrev Action (α : Type) : Type :=
  ExceptT MarkupError (StateM Trace) α

namespace Action

/-- Writes and reports. -/
def emit (events : List Event) : Action Unit :=
  modify fun t => { t with events := t.events ++ events }

/-- Leaves the renderer in a state. -/
def leave (renderer : Renderer) : Action Unit :=
  modify fun t => { t with renderer }

/-- How an action ends, and the call after it. -/
def run {α : Type} (x : Action α) (t : Trace) : Except MarkupError α × Trace :=
  Id.run (StateT.run (ExceptT.run x) t)

section

variable {α β : Type} (t : Trace)

@[simp] theorem run_bind (x : Action α) (f : α → Action β) :
    run (x >>= f) t =
      match run x t with
      | (.ok a, t) => run (f a) t
      | (.error e, t) => (.error e, t) := by
  simp only [run, ExceptT.run_bind, StateT.run_bind, Id.run_bind]
  rcases Id.run (StateT.run (ExceptT.run x) t) with ⟨e | a, t⟩ <;> rfl

@[simp] theorem run_check (x : Except MarkupError α) : run (liftM x) t = (x, t) := rfl

@[simp] theorem run_get : run get t = (.ok t, t) := rfl

@[simp] theorem run_emit (events : List Event) :
    run (emit events) t = (.ok (), { t with events := t.events ++ events }) := rfl

@[simp] theorem run_leave (renderer : Renderer) :
    run (leave renderer) t = (.ok (), { t with renderer }) := rfl

end

end Action

open EntityMarkup.Renderer.Action

/-- Renders a sentence inline with the given markup. -/
def renderInline (markup : Text → Nat → Sentence → List Entity → List Event × Nat)
    (tokens : Sentence) (entities : List Entity) : Action Unit := do
  checkSpans entities tokens.length
  let sorted := Entity.sort entities
  let r := (← get).renderer
  emit (← checkCrossing r.crossing sorted)
  let (events, cursor) := markup r.block r.cursor tokens sorted
  emit events
  leave { r with cursor }

/-- Lists the entities of a sentence in the order in which they are given. -/
def renderListing (tokens : Sentence) (entities : List Entity) : Action Unit := do
  checkSpans entities tokens.length
  let r := (← get).renderer
  emit (Listing.render (r.counter.lines + r.seen + 1) tokens entities)
  leave { r with seen := r.seen + tokens.length }

/-- Tags the tokens of a sentence with its outermost entities. -/
def renderOutermost (tokens : Sentence) (entities : List Entity) : Action Unit := do
  checkSpans entities tokens.length
  emit (Outermost.render tokens (Entity.sort entities))

/-- Renders a sentence in the format of the renderer. -/
def renderSentence (tokens : Sentence) (entities : List Entity) : Action Unit := do
  match (← get).renderer.format with
  | .xml => renderInline Nested.render tokens entities
  | .charSpan => renderInline Flat.render tokens entities
  | .vertical => renderListing tokens entities
  | .conll => renderOutermost tokens entities

/-- Renders the next sentence with the entities that were found in it. -/
def call (r : Renderer) (tokens : Sentence) (entities : List Entity) :
    Except MarkupError Unit × Trace :=
  run (renderSentence tokens entities) { renderer := r }

/-- What the next sentence comes to: why its call fails, or what the call does and the renderer
after it. -/
def sentence (r : Renderer) (tokens : Sentence) (entities : List Entity) :
    Except MarkupError (List Event × Renderer) :=
  match r.call tokens entities with
  | (.ok (), t) => .ok (t.events, t.renderer)
  | (.error e, _) => .error e

/-- Ends the block: inline formats write the rest of it. -/
def finish (r : Renderer) : List Event × LineCounter :=
  match r.format with
  | .xml => (Mark.events (Mark.stretch r.block r.cursor r.block.size), r.counter)
  | .charSpan => (Mark.events (Mark.stretch r.block r.cursor r.block.size), r.counter)
  | .vertical => ([], r.counter.afterBlock r.seen)
  | .conll => ([], r.counter)

end Renderer

end EntityMarkup
