import EntityMarkup.Render.Renderer

/-!
# Sentences one after the other

`Renderer.sentences` renders the sentences of a block in their order, each with the entities that
were found in it, as far as none fails. That is what is left of a successful run when the
recognizer, the sink and the counts are taken away.

A call does one thing after the other, and could fail when some of it is done. It does not: in every
format all that can fail stands before the first thing that is written, reported or left behind, so
a call does all that its sentence comes to, or nothing (`allOrNothing`).

A sentence that does not fail is described once for both inline formats, which differ only in the
markup of a sentence (`OutputFormat.markup?`).

* **`call_eq_allOrNothing`**: a call that fails has done nothing.
* **`sentence_inline_eq_ok_iff`**: when a sentence does not fail in an inline format, and what it
  comes to.
* `sentences_cons_eq_ok_iff`: a run over several sentences, after the first of them.
-/

namespace EntityMarkup

/-- A sentence and the entities that were found in it. -/
abbrev Finding := Sentence × List Entity

theorem bind_eq_ok_iff {ε α β : Type} {x : Except ε α} {f : α → Except ε β} {b : β} :
    x >>= f = .ok b ↔ ∃ a, x = .ok a ∧ f a = .ok b := by
  cases x with
  | error e => simp [bind, Except.bind]
  | ok a => simp [bind, Except.bind]

theorem bind_eq_error_iff {ε α β : Type} {x : Except ε α} {f : α → Except ε β} {e : ε} :
    x >>= f = .error e ↔ x = .error e ∨ ∃ a, x = .ok a ∧ f a = .error e := by
  cases x with
  | error e => simp [bind, Except.bind]
  | ok a => simp [bind, Except.bind]

theorem Event.written_map {α : Type} (f : α → Text) (xs : List α) :
    written (xs.map fun x => .write (f x)) = xs.flatMap f := by
  rw [List.flatMap_def, ← written_map_write, List.map_map]
  rfl

theorem Event.warnings_map {α : Type} (f : α → Text) (xs : List α) :
    warnings (xs.map fun x => .write (f x)) = [] := by
  rw [← warnings_map_write (xs.map f), List.map_map]
  rfl

/-- The markup of a sentence in the inline formats. -/
def OutputFormat.markup? :
    OutputFormat → Option (Text → Nat → Sentence → List Entity → List Event × Nat)
  | .xml => some Nested.render
  | .charSpan => some Flat.render
  | _ => none

theorem OutputFormat.isSome_markup?_iff {format : OutputFormat} :
    format.markup?.isSome = true ↔ format = .xml ∨ format = .charSpan := by
  cases format <;> simp [markup?]

theorem OutputFormat.markup?_eq_none_iff {format : OutputFormat} :
    format.markup? = none ↔ format = .vertical ∨ format = .conll := by
  cases format <;> simp [markup?]

namespace Renderer

/-! ## Checks -/

theorem checkSpans_eq_ok_iff {entities : List Entity} {tokens : Nat} {u : Unit} :
    checkSpans entities tokens = .ok u ↔ ∀ e ∈ entities, e.isSpanOf tokens = true := by
  rw [checkSpans, invalidEntity?]
  cases h : entities.find? fun e => !e.isSpanOf tokens with
  | none => simpa using h
  | some e =>
    have he : e.isSpanOf tokens = false := by simpa using List.find?_some h
    simp only [reduceCtorEq, false_iff]
    intro hall
    rw [hall e (List.mem_of_find?_eq_some h)] at he
    cases he

/-- Nothing is written by the check for crossing entities, and nothing is reported without some. -/
theorem written_of_checkCrossing {policy : CrossingPolicy} {sorted : List Entity}
    {notice : List Event} (h : checkCrossing policy sorted = .ok notice) :
    Event.written notice = [] ∧ (Entity.firstCrossing? sorted = none → notice = []) := by
  unfold checkCrossing at h
  split at h
  · cases h
    exact ⟨rfl, fun _ => rfl⟩
  · rename_i hsome
    cases h
    exact ⟨rfl, fun hnone => by simp [hnone] at hsome⟩
  · cases h

theorem checkCrossing_of_none {policy : CrossingPolicy} {sorted : List Entity}
    (h : Entity.firstCrossing? sorted = none) : checkCrossing policy sorted = .ok [] := by
  unfold checkCrossing
  rw [h]

theorem checkCrossing_reject_eq_ok_iff {sorted : List Entity} {notice : List Event} :
    checkCrossing .reject sorted = .ok notice
      ↔ Entity.firstCrossing? sorted = none ∧ notice = [] := by
  unfold checkCrossing
  cases Entity.firstCrossing? sorted <;> simp [eq_comm]

/-- Whatever the policy is, it matters only where a crossing pair is found. -/
theorem checkCrossing_eq_ok_nil_iff {policy : CrossingPolicy} {sorted : List Entity} :
    checkCrossing policy sorted = .ok [] ↔ Entity.firstCrossing? sorted = none := by
  unfold checkCrossing
  cases Entity.firstCrossing? sorted with
  | none => simp
  | some pair => cases policy <;> simp

theorem checkCrossing_warn (sorted : List Entity) :
    checkCrossing .warn sorted
      = .ok ((Entity.firstCrossing? sorted).toList.map
          fun p => .warn (.crossingSpans p.1 p.2)) := by
  unfold checkCrossing
  cases Entity.firstCrossing? sorted <;> rfl

/-- Crossing entities are no error under the policy that reports them. -/
theorem exists_checkCrossing_warn (sorted : List Entity) :
    ∃ notice, checkCrossing .warn sorted = .ok notice :=
  ⟨_, checkCrossing_warn sorted⟩

/-! ## One sentence -/

/-- The call that does all a sentence comes to, or fails and has done nothing. -/
def allOrNothing (r : Renderer) :
    Except MarkupError (List Event × Renderer) → Except MarkupError Unit × Trace
  | .ok (events, r') => (.ok (), ⟨r', events⟩)
  | .error e => (.error e, ⟨r, []⟩)

/-- What a sentence comes to in an inline format if its entities are spans of it. -/
def inlineSentence (r : Renderer) (entities : List Entity)
    (markup : List Entity → List Event × Nat) : Except MarkupError (List Event × Renderer) := do
  let sorted := Entity.sort entities
  let notice ← checkCrossing r.crossing sorted
  let (events, cursor) := markup sorted
  return (notice ++ events, { r with cursor })

theorem sentence_of_call {r : Renderer} {tokens : Sentence} {entities : List Entity}
    {x : Except MarkupError (List Event × Renderer)}
    (h : r.call tokens entities = r.allOrNothing x) : r.sentence tokens entities = x := by
  rw [sentence, h]
  cases x <;> rfl

section Listed

variable {r : Renderer} (tokens : Sentence) (entities : List Entity)

theorem call_vertical (hformat : r.format = .vertical) :
    r.call tokens entities = r.allOrNothing (checkSpans entities tokens.length >>= fun _ =>
      .ok (Listing.render (r.counter.lines + r.seen + 1) tokens entities,
        { r with seen := r.seen + tokens.length })) := by
  have hcall : r.call tokens entities
      = Action.run (renderListing tokens entities) { renderer := r } := by
    simp [call, renderSentence, hformat]
  rw [hcall]
  cases hspans : checkSpans entities tokens.length <;>
    simp [renderListing, hspans] <;>
    rfl

theorem call_conll (hformat : r.format = .conll) :
    r.call tokens entities = r.allOrNothing (checkSpans entities tokens.length >>= fun _ =>
      .ok (Outermost.render tokens (Entity.sort entities), r)) := by
  have hcall : r.call tokens entities
      = Action.run (renderOutermost tokens entities) { renderer := r } := by
    simp [call, renderSentence, hformat]
  rw [hcall]
  cases hspans : checkSpans entities tokens.length <;>
    simp [renderOutermost, hspans] <;>
    rfl

theorem sentence_vertical (hformat : r.format = .vertical) :
    r.sentence tokens entities = checkSpans entities tokens.length >>= fun _ =>
      .ok (Listing.render (r.counter.lines + r.seen + 1) tokens entities,
        { r with seen := r.seen + tokens.length }) :=
  sentence_of_call (call_vertical tokens entities hformat)

theorem sentence_conll (hformat : r.format = .conll) :
    r.sentence tokens entities = checkSpans entities tokens.length >>= fun _ =>
      .ok (Outermost.render tokens (Entity.sort entities), r) :=
  sentence_of_call (call_conll tokens entities hformat)

end Listed

section Inline

variable {r r' : Renderer} {markup : Text → Nat → Sentence → List Entity → List Event × Nat}
  (hmarkup : r.format.markup? = some markup)

include hmarkup

theorem call_inline (tokens : Sentence) (entities : List Entity) :
    r.call tokens entities = r.allOrNothing (checkSpans entities tokens.length >>= fun _ =>
      r.inlineSentence entities (markup r.block r.cursor tokens)) := by
  have hcall : r.call tokens entities
      = Action.run (renderInline markup tokens entities) { renderer := r } := by
    cases hformat : r.format <;> rw [hformat] at hmarkup <;> cases hmarkup <;>
      simp [call, renderSentence, hformat]
  rw [hcall, inlineSentence]
  cases hspans : checkSpans entities tokens.length with
  | error e =>
    simp [renderInline, hspans]
    rfl
  | ok u =>
    cases hcrossing : checkCrossing r.crossing (Entity.sort entities) <;>
      simp [renderInline, hspans, hcrossing] <;>
      rfl

/-- A sentence in an inline format is checked, and rendered with the markup of the format. -/
theorem sentence_inline (tokens : Sentence) (entities : List Entity) :
    r.sentence tokens entities = checkSpans entities tokens.length >>= fun _ =>
      r.inlineSentence entities (markup r.block r.cursor tokens) :=
  sentence_of_call (call_inline hmarkup tokens entities)

/-- **A sentence in an inline format** does not fail when its entities are spans of it and the
policy admits them. It then comes to the markup of the entities in the order of rendering. -/
theorem sentence_inline_eq_ok_iff {tokens : Sentence} {entities : List Entity}
    {events : List Event} :
    r.sentence tokens entities = .ok (events, r') ↔
      checkSpans entities tokens.length = .ok () ∧
      ∃ notice, checkCrossing r.crossing (Entity.sort entities) = .ok notice ∧
        events = notice ++ (markup r.block r.cursor tokens (Entity.sort entities)).1 ∧
        r' = { r with cursor := (markup r.block r.cursor tokens (Entity.sort entities)).2 } := by
  rw [sentence_inline hmarkup, bind_eq_ok_iff]
  constructor
  · rintro ⟨u, hspans, hinline⟩
    rw [inlineSentence, bind_eq_ok_iff] at hinline
    obtain ⟨notice, hnotice, hrest⟩ := hinline
    cases hrest
    exact ⟨hspans, notice, hnotice, rfl, rfl⟩
  · rintro ⟨hspans, notice, hnotice, rfl, rfl⟩
    refine ⟨(), hspans, ?_⟩
    rw [inlineSentence, hnotice]
    rfl

/-- Under the policy that reports crossing entities a sentence does not fail if its entities are
spans of it. A crossing pair is reported before anything is written. -/
theorem sentence_inline_warn (hcrossing : r.crossing = .warn) {tokens : Sentence}
    {entities : List Entity} (hspans : checkSpans entities tokens.length = .ok ()) :
    r.sentence tokens entities
      = .ok ((Entity.firstCrossing? (Entity.sort entities)).toList.map
            (fun p => .warn (.crossingSpans p.1 p.2))
          ++ (markup r.block r.cursor tokens (Entity.sort entities)).1,
        { r with cursor := (markup r.block r.cursor tokens (Entity.sort entities)).2 }) := by
  have hcheck := checkCrossing_warn (Entity.sort entities)
  rw [← hcrossing] at hcheck
  exact (sentence_inline_eq_ok_iff hmarkup).mpr ⟨hspans, _, hcheck, rfl, rfl⟩

theorem finish_inline :
    r.finish = (Mark.events (Mark.stretch r.block r.cursor r.block.size), r.counter) := by
  unfold finish
  cases hformat : r.format with
  | xml => rfl
  | charSpan => rfl
  | vertical => rw [hformat] at hmarkup; cases hmarkup
  | conll => rw [hformat] at hmarkup; cases hmarkup

end Inline

/-- **All checks come first.** A call does all that its sentence comes to, or it fails before it has
written or reported anything, and before the renderer has changed. -/
theorem call_eq_allOrNothing (r : Renderer) (tokens : Sentence) (entities : List Entity) :
    r.call tokens entities = r.allOrNothing (r.sentence tokens entities) := by
  cases hmarkup : r.format.markup? with
  | some markup => rw [sentence_inline hmarkup, call_inline hmarkup]
  | none =>
    rcases OutputFormat.markup?_eq_none_iff.mp hmarkup with hformat | hformat
    · rw [sentence_vertical _ _ hformat, call_vertical _ _ hformat]
    · rw [sentence_conll _ _ hformat, call_conll _ _ hformat]

/-- An entity that is no span of its sentence is an error in every format. -/
theorem sentence_of_checkSpans_eq_error {r : Renderer} {tokens : Sentence} {entities : List Entity}
    {e : MarkupError} (h : checkSpans entities tokens.length = .error e) :
    r.sentence tokens entities = .error e := by
  cases hmarkup : r.format.markup? with
  | some markup =>
    rw [sentence_inline hmarkup, h]
    rfl
  | none =>
    rcases OutputFormat.markup?_eq_none_iff.mp hmarkup with hformat | hformat
    · rw [sentence_vertical _ _ hformat, h]
      rfl
    · rw [sentence_conll _ _ hformat, h]
      rfl

theorem warnings_finish (r : Renderer) : Event.warnings r.finish.1 = [] := by
  unfold finish
  cases r.format with
  | xml => exact Event.warnings_map_write _
  | charSpan => exact Event.warnings_map_write _
  | vertical => rfl
  | conll => rfl

/-! ## All sentences -/

/-- Renders sentences one after the other, up to the first that fails. -/
def sentences (r : Renderer) : List Finding → Except MarkupError (List Event × Renderer)
  | [] => return ([], r)
  | found :: rest => do
    let (events, r) ← r.sentence found.1 found.2
    let (more, r) ← r.sentences rest
    return (events ++ more, r)

variable {r r' : Renderer} {events : List Event}

theorem sentences_nil_eq_ok_iff : r.sentences [] = .ok (events, r') ↔ events = [] ∧ r' = r := by
  simp [sentences, pure, Except.pure, eq_comm]

theorem sentences_cons_eq_ok_iff {found : Finding} {rest : List Finding} :
    r.sentences (found :: rest) = .ok (events, r') ↔
      ∃ first r₁ more, r.sentence found.1 found.2 = .ok (first, r₁) ∧
        r₁.sentences rest = .ok (more, r') ∧ events = first ++ more := by
  rw [sentences, bind_eq_ok_iff]
  constructor
  · rintro ⟨⟨first, r₁⟩, hfirst, h⟩
    obtain ⟨⟨more, r₂⟩, hmore, hrest⟩ := bind_eq_ok_iff.mp h
    cases hrest
    exact ⟨first, r₁, more, hfirst, hmore, rfl⟩
  · rintro ⟨first, r₁, more, hfirst, hmore, rfl⟩
    refine ⟨(first, r₁), hfirst, ?_⟩
    simp only [hmore]
    rfl

/-- Entities that are spans of their sentences are no error under the policy that reports crossing
ones. -/
theorem exists_sentences_warn {markup : Text → Nat → Sentence → List Entity → List Event × Nat}
    (hmarkup : r.format.markup? = some markup) (hcrossing : r.crossing = .warn)
    {found : List Finding} (hspans : ∀ f ∈ found, checkSpans f.2 f.1.length = .ok ()) :
    ∃ events r', r.sentences found = .ok (events, r') := by
  induction found generalizing r with
  | nil => exact ⟨[], r, rfl⟩
  | cons f rest ih =>
    obtain ⟨hf, hrest⟩ := List.forall_mem_cons.mp hspans
    have hfirst := sentence_inline_warn hmarkup hcrossing hf
    let r₁ := { r with cursor := (markup r.block r.cursor f.1 (Entity.sort f.2)).2 }
    obtain ⟨more, r', hmore⟩ := ih (r := r₁) hmarkup hcrossing hrest
    exact ⟨_, r', sentences_cons_eq_ok_iff.mpr ⟨_, r₁, more, hfirst, hmore, rfl⟩⟩

end Renderer

end EntityMarkup
