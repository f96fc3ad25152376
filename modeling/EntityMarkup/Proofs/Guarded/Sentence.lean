import EntityMarkup.Proofs.Guarded.Markup

/-!
# Sentences in all formats

What a renderer keeps from sentence to sentence has to stay in words: the offset up to which the
block is written, and the number of the next line, which grows by one for each token.
`Renderer.Fits` says that it does for the tokens still to come, and is kept by a sentence in any
format.

* `Listing.render?_eq`, `Outermost.render?_eq`: lines of entities, and of tokens.
* **`sentence?_eq`**: a sentence, whatever the recognizer answers.
* `finish?_eq`, `Fits.lines_finish`: the end of a block, and the counter behind it.
-/

namespace EntityMarkup

/-! ## The listing of entities -/

/-- The tokens from one index up to another, if there are so many. -/
def Sentence.slice? (tokens : Sentence) (start stop : Nat) : Option Sentence :=
  if start ≤ stop ∧ stop ≤ tokens.length then some ((tokens.drop start).take (stop - start))
  else none

/-- The counter after a block of `tokens` tokens. -/
def LineCounter.afterBlock? (counter : LineCounter) (tokens : Nat) : Option LineCounter := do
  let behind ← Word.add? counter.lines tokens
  let lines ← Word.add? behind 1
  return ⟨lines⟩

theorem LineCounter.afterBlock?_eq {counter : LineCounter} {tokens : Nat}
    (h : counter.lines + tokens + 1 < Word.bound) :
    counter.afterBlock? tokens = some (counter.afterBlock tokens) := by
  have hbehind : counter.lines + tokens < Word.bound := by omega
  simp only [afterBlock?, Word.add?_of_lt hbehind, Word.add?_of_lt h, Option.bind_eq_bind,
    Option.bind_some, Option.pure_def]
  rfl

namespace Listing

/-- The line of an entity in a sentence whose first token has the number `first`. -/
def row? (first : Nat) (tokens : Sentence) (e : Entity) : Option Row := do
  let stop ← e.stop?
  let numbers ← (List.range' e.start (stop - e.start)).mapM (Word.add? first)
  let covered ← tokens.slice? e.start stop
  return ⟨numbers, e.label, covered.map Token.form⟩

/-- The events of a sentence, whose entities are taken in the order in which they are given. -/
def render? (first : Nat) (tokens : Sentence) (entities : List Entity) : Option (List Event) := do
  let rows ← entities.mapM (row? first tokens)
  return rows.map fun row => .write row.text

variable {first : Nat} {tokens : Sentence} {es : List Entity}

theorem row?_eq {e : Entity} (hfirst : first + tokens.length < Word.bound)
    (he : e.isSpanOf tokens.length = true) : row? first tokens e = some (row first tokens e) := by
  obtain ⟨-, hle⟩ := Entity.isSpanOf_iff.mp he
  have hword : tokens.length < Word.bound := by omega
  have hcovered : e.stop - e.start = e.length := by
    rw [Entity.stop]
    omega
  have hnumbers : (List.range' e.start e.length).mapM (Word.add? first)
      = some (List.range' (first + e.start) e.length) := by
    rw [mapM_eq_some (f := fun i => first + i), List.map_add_range']
    intro i hi
    obtain ⟨k, hk, rfl⟩ := List.mem_range'.mp hi
    exact Word.add?_of_lt (by omega)
  have hslice : tokens.slice? e.start e.stop = some ((tokens.drop e.start).take e.length) := by
    rw [Sentence.slice?, hcovered]
    exact if_pos ⟨Nat.le_add_right _ _, hle⟩
  simp only [row?, Entity.stop?_eq hword he, hcovered, hnumbers, hslice, Option.bind_eq_bind,
    Option.bind_some, Option.pure_def]
  rfl

/-- **Entities that are spans can be listed.** -/
theorem render?_eq (hfirst : first + tokens.length < Word.bound)
    (hspan : ∀ e ∈ es, e.isSpanOf tokens.length = true) :
    render? first tokens es = some (render first tokens es) := by
  rw [render?, mapM_eq_some fun e he => row?_eq hfirst (hspan e he), render]
  simp

end Listing

/-! ## Tagged tokens -/

namespace Outermost

/-- What is open at the next token. The tokens left are counted even where there are none. -/
def Open.advance? (o : Open) : Option (Option Open) := do
  let left ← Word.sub? o.remaining 1
  return if 1 < o.remaining then some { o with remaining := left } else none

/-- The tags of the tokens from index `i` on, of which there are `count`. -/
def tags? (i : Nat) (current : Option Open) (pending : List Entity) :
    (count : Nat) → Option (List Tag)
  | 0 => return []
  | count + 1 =>
    let reached := pending.takeWhile fun e => e.start ≤ i
    let later := pending.drop reached.length
    match current with
    | some o => do
      let next ← o.advance?
      let rest ← tags? (i + 1) next later count
      return .inside o.label :: rest
    | none =>
      match reached.find? fun e => e.start == i with
      | some e => do
        let next ← Open.advance? ⟨e.label, e.length⟩
        let rest ← tags? (i + 1) next later count
        return .begins e.label :: rest
      | none => do
        let rest ← tags? (i + 1) none later count
        return .outside :: rest

/-- The events of a sentence, its entities being in the order of rendering. -/
def render? (tokens : Sentence) (entities : List Entity) : Option (List Event) := do
  let tags ← tags? 0 none entities tokens.length
  return (tokens.forms.zip tags).map (fun r => .write (row r.1 r.2)) ++ [.write ['\n']]

/-- An open entity covers a token still, and so it does as long as it stays open. -/
theorem Open.advance?_eq {o : Open} (h : 1 ≤ o.remaining) :
    o.advance? = some o.advance ∧ ∀ next ∈ o.advance, 1 ≤ next.remaining := by
  refine ⟨?_, fun next hnext => ?_⟩
  · rw [advance?, Word.sub?_of_le h]
    rfl
  · unfold advance at hnext
    split at hnext
    · obtain rfl := Option.some.inj hnext
      simp only
      omega
    · cases hnext

theorem tags?_eq {i count : Nat} {current : Option Open} {pending : List Entity}
    (hcurrent : ∀ o ∈ current, 1 ≤ o.remaining) (hpending : ∀ e ∈ pending, 1 ≤ e.length) :
    tags? i current pending count = some (tags i current pending count) := by
  induction count generalizing i current pending with
  | zero => rfl
  | succ count ih =>
    have hlater : ∀ n, ∀ e ∈ pending.drop n, 1 ≤ e.length :=
      fun n e he => hpending e (List.mem_of_mem_drop he)
    unfold tags? tags
    cases current with
    | some o =>
      obtain ⟨hnext, hcovers⟩ := Open.advance?_eq (hcurrent o rfl)
      simp only [hnext, ih hcovers (hlater _), Option.bind_eq_bind, Option.bind_some,
        Option.pure_def]
    | none =>
      have hnone : ∀ o ∈ (none : Option Open), 1 ≤ o.remaining := by simp
      cases hfind : (pending.takeWhile fun e => e.start ≤ i).find? fun e => e.start == i with
      | some e =>
        have he := (List.takeWhile_sublist _).subset (List.mem_of_find?_eq_some hfind)
        obtain ⟨hnext, hcovers⟩ := Open.advance?_eq (o := ⟨e.label, e.length⟩) (hpending e he)
        simp only [hfind, hnext, ih hcovers (hlater _), Option.bind_eq_bind, Option.bind_some,
          Option.pure_def]
      | none =>
        simp only [hfind, ih hnone (hlater _), Option.bind_eq_bind, Option.bind_some,
          Option.pure_def]

/-- **Tokens can be tagged** with entities that are spans. -/
theorem render?_eq {tokens : Sentence} {es : List Entity}
    (hspan : ∀ e ∈ es, e.isSpanOf tokens.length = true) :
    render? tokens es = some (render tokens es) := by
  have hlength : ∀ e ∈ es, 1 ≤ e.length := fun e he =>
    Nat.one_le_iff_ne_zero.mpr (Entity.isSpanOf_iff.mp (hspan e he)).1
  rw [render?, tags?_eq (by simp) hlength]
  rfl

end Outermost

/-! ## A sentence -/

namespace Renderer

/-- Renders a sentence inline with the given markup. -/
def inlineSentence? (r : Renderer) (entities : List Entity)
    (markup? : List Entity → Option (List Event × Nat)) :
    Option (Except MarkupError (List Event × Renderer)) := do
  let sorted := Entity.sort entities
  match ← checkCrossing? r.crossing sorted with
  | .error e => return .error e
  | .ok notice =>
    let (events, cursor) ← markup? sorted
    return .ok (notice ++ events, { r with cursor })

/-- Renders the next sentence with the entities that were found in it. -/
def sentence? (r : Renderer) (tokens : Sentence) (entities : List Entity) :
    Option (Except MarkupError (List Event × Renderer)) :=
  match checkWordSpans entities tokens.length with
  | .error e => return .error e
  | .ok () =>
    match r.format with
    | .xml => r.inlineSentence? entities (Nested.render? r.block r.cursor tokens)
    | .charSpan => r.inlineSentence? entities (Flat.render? r.block r.cursor tokens)
    | .vertical => do
      let before ← Word.add? r.counter.lines r.seen
      let first ← Word.add? before 1
      let events ← Listing.render? first tokens entities
      let seen ← Word.add? r.seen tokens.length
      return .ok (events, { r with seen })
    | .conll => do
      let events ← Outermost.render? tokens (Entity.sort entities)
      return .ok (events, r)

/-- Ends the block: inline formats write the rest of it. -/
def finish? (r : Renderer) : Option (List Event × LineCounter) :=
  match r.format with
  | .xml | .charSpan => do
    let rest ← Mark.stretch? r.block r.cursor r.block.size
    let events ← Mark.events? rest
    return (events, r.counter)
  | .vertical => do
    let counter ← r.counter.afterBlock? r.seen
    return ([], counter)
  | .conll => return ([], r.counter)

/-- What a renderer keeps stays in words. It is at the tokens of a block from offset `n` on, of
which there are `ahead`. -/
structure Fits (r : Renderer) (n ahead : Nat) : Prop where
  block : r.block.size < Word.bound
  isBoundary : r.block.IsBoundary r.cursor
  cursor_le : r.cursor ≤ n
  lines : r.counter.lines + r.seen + ahead + 1 < Word.bound

variable {r r' : Renderer} {n ahead : Nat} {tokens : Sentence} {entities : List Entity}
  {events : List Event}

theorem inlineSentence?_eq {markup : List Entity → List Event × Nat}
    {markup? : List Entity → Option (List Event × Nat)} (hword : tokens.length < Word.bound)
    (hspan : ∀ e ∈ entities, e.isSpanOf tokens.length = true)
    (hmarkup : markup? (Entity.sort entities) = some (markup (Entity.sort entities))) :
    r.inlineSentence? entities markup? = some (r.inlineSentence entities markup) := by
  have hsorted : ∀ e ∈ Entity.sort entities, e.isSpanOf tokens.length = true :=
    fun e he => hspan e (Entity.mem_sort.mp he)
  simp only [inlineSentence?, inlineSentence, checkCrossing?_eq hword r.crossing hsorted, hmarkup,
    Option.bind_eq_bind, Option.bind_some, Option.pure_def]
  cases checkCrossing r.crossing (Entity.sort entities) <;> rfl

/-- **A sentence does not fail in words**, whatever the recognizer answers. -/
theorem sentence?_eq (h : r.Fits n (tokens.length + ahead))
    (hin : r.block.InOrder n (tokens.map Token.range)) :
    r.sentence? tokens entities = some (r.sentence tokens entities) := by
  have hlines := h.lines
  have hword : tokens.length < Word.bound := by omega
  unfold sentence?
  rw [checkWordSpans_eq hword]
  cases hspans : checkSpans entities tokens.length with
  | error e =>
    rw [sentence_of_checkSpans_eq_error hspans]
    rfl
  | ok u =>
    have hspan := checkSpans_eq_ok_iff.mp hspans
    have hsorted : ∀ e ∈ Entity.sort entities, e.isSpanOf tokens.length = true :=
      fun e he => hspan e (Entity.mem_sort.mp he)
    cases hformat : r.format with
    | xml =>
      have hmarkup : r.format.markup? = some Nested.render := by rw [hformat]; rfl
      rw [sentence_inline hmarkup, hspans]
      exact inlineSentence?_eq hword hspan
        (Nested.render?_eq h.block hword hsorted h.isBoundary h.cursor_le hin)
    | charSpan =>
      have hmarkup : r.format.markup? = some Flat.render := by rw [hformat]; rfl
      rw [sentence_inline hmarkup, hspans]
      exact inlineSentence?_eq hword hspan
        (Flat.render?_eq h.block hword hsorted h.isBoundary h.cursor_le hin)
    | vertical =>
      have hbefore : r.counter.lines + r.seen < Word.bound := by omega
      have hfirst : r.counter.lines + r.seen + 1 < Word.bound := by omega
      have hseen : r.seen + tokens.length < Word.bound := by omega
      have hlist : Listing.render? (r.counter.lines + r.seen + 1) tokens entities
          = some (Listing.render (r.counter.lines + r.seen + 1) tokens entities) :=
        Listing.render?_eq (by omega) hspan
      rw [sentence_vertical tokens entities hformat, hspans]
      simp only [Word.add?_of_lt hbefore, Word.add?_of_lt hfirst, hlist, Word.add?_of_lt hseen,
        Option.bind_eq_bind, Option.bind_some, Option.pure_def]
      rw [hformat]
      rfl
    | conll =>
      rw [sentence_conll tokens entities hformat, hspans, Outermost.render?_eq hsorted]
      rfl

/-- What a renderer keeps stays in words behind a sentence. -/
theorem Fits.sentence (h : r.Fits n (tokens.length + ahead))
    (hin : r.block.InOrder n (tokens.map Token.range))
    (hsentence : r.sentence tokens entities = .ok (events, r')) :
    r'.block = r.block ∧ r'.Fits (Text.reach n (tokens.map Token.range)) ahead := by
  have hlines := h.lines
  cases hmarkup : r.format.markup? with
  | some markup =>
    obtain ⟨hspans, notice, -, -, rfl⟩ := (sentence_inline_eq_ok_iff hmarkup).mp hsentence
    have hspan := checkSpans_eq_ok_iff.mp hspans
    obtain ⟨marks, -, -, hcopies⟩ := copies_markup (p := fun _ => True) hmarkup h.isBoundary
      h.cursor_le hin (fun e he => hspan e (Entity.mem_sort.mp he)) fun _ _ => trivial
    exact ⟨rfl, h.block, hcopies.isBoundary, hcopies.le_bound, by simp only; omega⟩
  | none =>
    have hreach := h.cursor_le.trans hin.le_reach
    rcases OutputFormat.markup?_eq_none_iff.mp hmarkup with hformat | hformat
    · rw [sentence_vertical tokens entities hformat] at hsentence
      obtain ⟨-, -, hrendered⟩ := bind_eq_ok_iff.mp hsentence
      cases hrendered
      exact ⟨rfl, h.block, h.isBoundary, hreach, by simp only; omega⟩
    · rw [sentence_conll tokens entities hformat] at hsentence
      obtain ⟨-, -, hrendered⟩ := bind_eq_ok_iff.mp hsentence
      cases hrendered
      exact ⟨rfl, h.block, h.isBoundary, hreach, by omega⟩

/-- **A block ends without failure.** -/
theorem finish?_eq (h : r.Fits n ahead) : r.finish? = some r.finish := by
  have hlines := h.lines
  have hrest : Mark.stretch? r.block r.cursor r.block.size
      = some (Mark.stretch r.block r.cursor r.block.size) :=
    Mark.stretch?_eq h.isBoundary (Text.isBoundary_size _)
  have hevents : Mark.events? (Mark.stretch r.block r.cursor r.block.size)
      = some (Mark.events (Mark.stretch r.block r.cursor r.block.size)) :=
    (Mark.copies_stretch h.isBoundary (Text.isBoundary_size _) h.isBoundary.le_size
      (le_refl _)).events?_eq h.isBoundary h.block
  unfold finish? finish
  cases r.format with
  | xml =>
    simp only [hrest, hevents, Option.bind_eq_bind, Option.bind_some, Option.pure_def]
  | charSpan =>
    simp only [hrest, hevents, Option.bind_eq_bind, Option.bind_some, Option.pure_def]
  | vertical =>
    have hcounter : r.counter.lines + r.seen + 1 < Word.bound := by omega
    rw [LineCounter.afterBlock?_eq hcounter]
    rfl
  | conll => rfl

theorem Fits.lines_finish (h : r.Fits n ahead) : r.finish.2.lines + ahead < Word.bound := by
  have hlines := h.lines
  unfold Renderer.finish
  cases r.format <;> simp only [LineCounter.afterBlock] <;> omega

end Renderer

end EntityMarkup
