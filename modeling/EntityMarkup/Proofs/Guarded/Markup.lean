import EntityMarkup.Proofs.Guarded.Entity
import EntityMarkup.Proofs.Render.Copying

/-!
# Inline markup is cut where it can be

Both inline renderers cut the block at a cursor and at offsets of tokens, and cut what they copy
again, at the characters that are escaped. The cursor only ever comes to stand at ends of tokens, so
where tokens lie in order every cut is between two characters. Tokens are found by the ends of
entities, which are spans of the sentence.

* `escapedRuns?_eq`, `events?_eq`: text is escaped as it is written.
* **`Nested.render?_eq`**: markup nested by tokens, where the stack holds the last tokens of the
  open entities.
* **`Flat.render?_eq`**: markup by stretches of text.
-/

namespace EntityMarkup

open Mark (literals)

/-! ## Writing marks -/

namespace Text

/-- The runs in which the rest of a text is escaped as it is written, from offset `i` on. What has
not been written yet begins at `plain`. -/
def escapedRunsFrom? (t : Text) (plain i : Nat) : Text → Option (List Text)
  | [] => do
    let run ← t.slice? plain t.size
    return [run]
  | c :: rest =>
    match reference? c with
    | some reference => do
      let run ← t.slice? plain i
      let next ← Word.add? i c.utf8Size
      let runs ← escapedRunsFrom? t next next rest
      return run :: reference :: runs
    | none => escapedRunsFrom? t plain (i + c.utf8Size) rest

/-- The runs in which a text is escaped as it is written. -/
def escapedRuns? (t : Text) : Option (List Text) :=
  escapedRunsFrom? t 0 0 t

theorem escapedRuns_ne_nil (t : Text) : escapedRuns t ≠ [] := by
  cases t with
  | nil => exact List.cons_ne_nil _ _
  | cons c rest =>
    unfold escapedRuns
    split <;> exact List.cons_ne_nil _ _

theorem escapedRunsFrom?_eq (u run : Text) {rest : Text}
    (h : (u ++ run ++ rest).size < Word.bound) :
    escapedRunsFrom? (u ++ run ++ rest) u.size (u ++ run).size rest
      = some ((escapedRuns rest).modifyHead (run ++ ·)) := by
  induction rest generalizing u run with
  | nil =>
    have hslice : (u ++ run ++ []).slice? u.size (u ++ run ++ []).size = some run :=
      slice?_eq_some_iff.mpr ⟨u, [], rfl, rfl, by simp⟩
    rw [escapedRunsFrom?, hslice, escapedRuns, List.modifyHead_cons, List.append_nil]
    rfl
  | cons c rest ih =>
    have htext : u ++ run ++ c :: rest = u ++ run ++ [c] ++ rest := by simp
    have hsize : (u ++ run).size + c.utf8Size = (u ++ run ++ [c]).size := by simp [Nat.add_assoc]
    have hlt : (u ++ run ++ [c]).size < Word.bound := by
      rw [htext, size_append] at h
      omega
    unfold escapedRunsFrom? escapedRuns
    cases hreference : reference? c with
    | some reference =>
      have hslice : (u ++ run ++ c :: rest).slice? u.size (u ++ run).size = some run :=
        slice?_eq_some_iff.mpr ⟨u, c :: rest, rfl, rfl, (size_append u run).symm⟩
      -- the next run begins behind the character
      have hnext := ih (u ++ run ++ [c]) [] (by simpa using h)
      rw [List.append_nil, ← htext] at hnext
      simp only [hslice, Word.add?_of_lt (hsize ▸ hlt), hsize, hnext, Option.bind_eq_bind,
        Option.bind_some, Option.pure_def, List.modifyHead_cons, List.append_nil]
      cases escapedRuns rest <;> rfl
    | none =>
      -- the run goes on with the character
      have hnext := ih u (run ++ [c]) (by simpa using h)
      rw [← List.append_assoc, ← htext] at hnext
      obtain ⟨first, runs, hruns⟩ := List.exists_cons_of_ne_nil (escapedRuns_ne_nil rest)
      simp only [hsize, hnext, hruns, List.modifyHead_cons]
      rw [List.append_assoc, List.singleton_append]

/-- **A text that is escaped as it is written** is cut between its characters. -/
theorem escapedRuns?_eq {t : Text} (h : t.size < Word.bound) :
    t.escapedRuns? = some t.escapedRuns := by
  refine (escapedRunsFrom?_eq [] [] h).trans ?_
  cases t.escapedRuns <;> rfl

end Text

namespace Mark

/-- The marks that copy a block from one offset to another, where the second lies behind the
first. -/
def stretch? (block : Text) (start stop : Nat) : Option (List Mark) :=
  if start < stop then do
    let text ← block.slice? start stop
    return [.literal text]
  else return []

/-- The pieces in which a mark is written. -/
def pieces? : Mark → Option (List Text)
  | .literal t => t.escapedRuns?
  | m => return [m.text]

/-- The events that write marks. -/
def events? (marks : List Mark) : Option (List Event) := do
  let pieces ← marks.mapM pieces?
  return pieces.flatten.map .write

variable {block : Text} {a b : Nat} {marks : List Mark}

theorem stretch?_eq (ha : block.IsBoundary a) (hb : block.IsBoundary b) :
    stretch? block a b = some (stretch block a b) := by
  unfold stretch? stretch
  by_cases hlt : a < b
  · rw [if_pos hlt, if_pos hlt, ha.slice?_eq hb hlt.le]
    rfl
  · rw [if_neg hlt, if_neg hlt]
    rfl

theorem size_le_size_literals {t : Text} (h : .literal t ∈ marks) :
    t.size ≤ (literals marks).size := by
  obtain ⟨before, behind, rfl⟩ := List.append_of_mem h
  have hliteral : literals (.literal t :: behind) = t ++ literals behind := rfl
  rw [literals_append, hliteral, Text.size_append, Text.size_append]
  omega

theorem events?_eq (h : (literals marks).size < Word.bound) :
    events? marks = some (events marks) := by
  have hpieces : ∀ m ∈ marks, m.pieces? = some m.pieces := by
    intro m hm
    cases m with
    | literal t => exact Text.escapedRuns?_eq (Nat.lt_of_le_of_lt (size_le_size_literals hm) h)
    | _ => rfl
  rw [events?, mapM_eq_some hpieces, events, List.flatMap_def]
  rfl

theorem Copies.events?_eq {c bound : Nat} (h : Copies block a c bound marks)
    (ha : block.IsBoundary a) (hblock : block.size < Word.bound) :
    events? marks = some (events marks) := by
  have hsize : (literals marks).size = c - a := by
    rw [h.literals_eq, Text.size_slice ha h.isBoundary h.start_le]
  have hle := h.isBoundary.le_size
  exact Mark.events?_eq (by omega)

end Mark

/-! ## Markup nested by tokens -/

/-- The offset at which the token ends. -/
def Token.stop? (t : Token) : Option Nat :=
  Word.add? t.start t.length

theorem Token.stop?_eq {block : Text} (hblock : block.size < Word.bound) {t : Token}
    (h : block.IsBoundary t.stop) : t.stop? = some t.stop :=
  Word.add?_of_lt (Nat.lt_of_le_of_lt h.le_size hblock)

namespace Nested

/-- What the markup of a sentence comes to, when the indices of the last tokens are kept of the
entities that are open. -/
structure WordOutcome where
  marks : List Mark
  cursor : Nat
  opened : List Nat

/-- What is kept of an outcome. -/
def Outcome.inWords (o : Outcome) : WordOutcome :=
  ⟨o.marks, o.cursor, o.opened.map Entity.last⟩

/-- The markup of the tokens from index `i` on, of `count` in all. -/
def walk? (block : Text) (count i cursor : Nat) (opened : List Nat) (pending : List Entity) :
    Sentence → Option WordOutcome
  | [] => return ⟨[], cursor, opened⟩
  | token :: rest => do
    let before ← Mark.stretch? block cursor token.start
    let starting := startingAt i pending
    let lasts ← starting.mapM Entity.last?
    let stop ← token.stop?
    let form ← block.slice? token.start stop
    let stack := lasts.reverse ++ opened
    let ending := stack.takeWhile (· == i)
    let next ← Word.add? i 1
    let tail ← walk? block count next stop (stack.drop ending.length)
      (pending.drop starting.length) rest
    let marks :=
      before
        ++ (if i = 0 then [.beginSentence] else [])
        ++ starting.map (fun e => .beginEntity e.label)
        ++ [.beginToken, .literal form, .endToken]
        ++ ending.map (fun _ => .endEntity)
        ++ (if next = count then [.endSentence] else [])
    return { tail with marks := marks ++ tail.marks }

/-- The events of a sentence, and the offset up to which the block is written after it. -/
def render? (block : Text) (cursor : Nat) (tokens : Sentence) (entities : List Entity) :
    Option (List Event × Nat) := do
  let outcome ← walk? block tokens.length 0 cursor [] entities tokens
  let events ← Mark.events? outcome.marks
  let unclosed := outcome.opened.length
  return (events ++ (if unclosed = 0 then [] else [.warn (.unclosed unclosed)]), outcome.cursor)

variable {block : Text} {count i n cursor : Nat} {pending es : List Entity} {tokens : Sentence}

theorem walk?_eq (opened : List Entity) (hblock : block.size < Word.bound)
    (hcount : i + tokens.length = count) (hword : count < Word.bound)
    (hpending : ∀ e ∈ pending, e.isSpanOf count = true)
    (hcursor : block.IsBoundary cursor) (hin : block.InOrder n (tokens.map Token.range)) :
    walk? block count i cursor (opened.map Entity.last) pending tokens
      = some (walk block i cursor opened pending tokens).inWords := by
  induction tokens generalizing i n cursor opened pending with
  | nil => rfl
  | cons token rest ih =>
    obtain ⟨-, hlt, hboundary, hboundary', hrest⟩ := hin
    have hstart : block.IsBoundary token.start := hboundary
    have hstop : block.IsBoundary token.stop := hboundary'
    have hlt : token.start < token.stop := hlt
    rw [List.length_cons] at hcount
    have hnext : i + 1 + rest.length = count := by omega
    have hlasts : (startingAt i pending).mapM Entity.last?
        = some ((startingAt i pending).map Entity.last) :=
      mapM_eq_some fun e he =>
        Entity.last?_eq hword (hpending e ((List.takeWhile_sublist _).subset he))
    have hstack : ((startingAt i pending).map Entity.last).reverse ++ opened.map Entity.last
        = (openAt i opened pending).map Entity.last := by
      rw [openAt, List.map_append, List.map_reverse]
    have hending : ((openAt i opened pending).map Entity.last).takeWhile (· == i)
        = (endingAt i (openAt i opened pending)).map Entity.last :=
      List.takeWhile_map
    have hlast : (i + 1 = count) = (rest.isEmpty = true) := by
      rw [List.isEmpty_iff, ← List.length_eq_zero_iff]
      exact propext ⟨fun h => by omega, fun h => by omega⟩
    have hlater : ∀ e ∈ pending.drop (startingAt i pending).length, e.isSpanOf count = true :=
      fun e he => hpending e (List.mem_of_mem_drop he)
    have htail := ih ((openAt i opened pending).drop (endingAt i (openAt i opened pending)).length)
      hnext hlater hstop hrest
    rw [List.map_drop] at htail
    simp only [walk?, Mark.stretch?_eq hcursor hstart, hlasts, Token.stop?_eq hblock hstop,
      hstart.slice?_eq hstop hlt.le, Word.add?_of_lt (show i + 1 < Word.bound by omega), hstack,
      hending, List.length_map, htail, hlast, Option.bind_eq_bind, Option.bind_some,
      Option.pure_def, List.map_map]
    rfl

/-- **Markup nested by tokens does not fail.** -/
theorem render?_eq (hblock : block.size < Word.bound) (hword : tokens.length < Word.bound)
    (hspan : ∀ e ∈ es, e.isSpanOf tokens.length = true) (hcursor : block.IsBoundary cursor)
    (hle : cursor ≤ n) (hin : block.InOrder n (tokens.map Token.range)) :
    render? block cursor tokens es = some (render block cursor tokens es) := by
  have hwalk : walk? block tokens.length 0 cursor [] es tokens
      = some (sentence block cursor tokens es).inWords :=
    walk?_eq [] hblock (Nat.zero_add _) hword hspan hcursor hin
  have hevents : Mark.events? (sentence block cursor tokens es).marks
      = some (Mark.events (sentence block cursor tokens es).marks) :=
    (copies_walk hcursor hle hin).events?_eq hcursor hblock
  simp only [render?, hwalk, Outcome.inWords, hevents, List.length_map, Option.bind_eq_bind,
    Option.bind_some, Option.pure_def]
  rfl

end Nested

/-! ## Markup by stretches of text -/

namespace Flat

/-- Copies the block up to an offset; does nothing if it is copied that far already. -/
def Pen.copyTo? (block : Text) (offset : Nat) (pen : Pen) : Option Pen := do
  let copied ← Mark.stretch? block pen.cursor offset
  return ⟨max pen.cursor offset, pen.marks ++ copied⟩

/-- Closes an entity that ends at an offset. -/
def Pen.closeAt? (block : Text) (pen : Pen) (offset : Nat) : Option Pen := do
  let pen ← pen.copyTo? block offset
  return pen.put .endEntity

/-- Opens an entity, after closing those on top of the stack that end before it begins. -/
def openEntity? (block : Text) (tokens : Sentence) (state : List Nat × Pen) (e : Entity) :
    Option (List Nat × Pen) := do
  let first ← tokens[e.start]?
  let last ← e.last?
  let token ← tokens[last]?
  let stop ← token.stop?
  let ending := state.1.takeWhile fun offset => offset ≤ first.start
  let pen ← ending.foldlM (Pen.closeAt? block) state.2
  let pen ← pen.copyTo? block first.start
  return (stop :: state.1.drop ending.length, pen.put (.beginEntity e.label))

/-- The markup of a sentence, its entities being in the order of rendering. -/
def sentence? (block : Text) (cursor : Nat) (tokens : Sentence) (entities : List Entity) :
    Option Pen := do
  let state ← entities.foldlM (openEntity? block tokens) ([], { cursor })
  state.1.foldlM (Pen.closeAt? block) state.2

/-- The events of a sentence, and the offset up to which the block is written after it. -/
def render? (block : Text) (cursor : Nat) (tokens : Sentence) (entities : List Entity) :
    Option (List Event × Nat) := do
  let pen ← sentence? block cursor tokens entities
  let events ← Mark.events? pen.marks
  return (events, pen.cursor)

variable {block : Text} {n cursor offset : Nat} {tokens : Sentence} {es : List Entity} {pen : Pen}

theorem Pen.copyTo?_eq (hpen : block.IsBoundary pen.cursor) (hoffset : block.IsBoundary offset) :
    pen.copyTo? block offset = some (pen.copyTo block offset) ∧
      block.IsBoundary (pen.copyTo block offset).cursor := by
  refine ⟨?_, hpen.max hoffset⟩
  rw [Pen.copyTo?, Mark.stretch?_eq hpen hoffset]
  rfl

theorem Pen.foldlM_closeAt?_eq {offsets : List Nat} (hoffsets : ∀ o ∈ offsets, block.IsBoundary o)
    (hpen : block.IsBoundary pen.cursor) :
    offsets.foldlM (Pen.closeAt? block) pen = some (offsets.foldl (Pen.closeAt block) pen) ∧
      block.IsBoundary (offsets.foldl (Pen.closeAt block) pen).cursor := by
  refine foldlM_eq_some (P := fun pen : Pen => block.IsBoundary pen.cursor) ?_ hpen
  intro pen hpen offset hoffset
  obtain ⟨hcopy, hcursor⟩ := Pen.copyTo?_eq hpen (hoffsets offset hoffset)
  refine ⟨?_, hcursor⟩
  rw [Pen.closeAt?, hcopy]
  rfl

/-- The entities that are open, and what has been written, end at boundaries. -/
def Cuts (block : Text) (state : List Nat × Pen) : Prop :=
  (∀ o ∈ state.1, block.IsBoundary o) ∧ block.IsBoundary state.2.cursor

theorem openEntity?_eq (hblock : block.size < Word.bound) (hword : tokens.length < Word.bound)
    (hin : block.InOrder n (tokens.map Token.range)) {e : Entity}
    (he : e.isSpanOf tokens.length = true) {state : List Nat × Pen} (h : Cuts block state) :
    openEntity? block tokens state e = some (openEntity block tokens state e) ∧
      Cuts block (openEntity block tokens state e) := by
  obtain ⟨hle, hlast, -⟩ := Entity.start_le_last_of_isSpanOf he
  have hfirst := Nat.lt_of_le_of_lt hle hlast
  obtain ⟨-, -, hstart, -, -⟩ := range_getElem hin hfirst
  obtain ⟨-, -, -, hstop, -⟩ := range_getElem hin hlast
  have hstartOffset : startOffset tokens e = tokens[e.start].start :=
    startOffset_of_start_eq (List.getElem?_eq_getElem hfirst) rfl
  have hstopOffset : stopOffset tokens e = tokens[e.last].stop :=
    stopOffset_of_last_eq (List.getElem?_eq_getElem hlast) rfl
  obtain ⟨hstack, hpen⟩ := h
  have hending : ∀ o ∈ state.1.takeWhile fun offset => offset ≤ tokens[e.start].start,
      block.IsBoundary o := fun o ho => hstack o ((List.takeWhile_sublist _).subset ho)
  obtain ⟨hclose, hclosed⟩ := Pen.foldlM_closeAt?_eq hending hpen
  obtain ⟨hcopy, hcopied⟩ := Pen.copyTo?_eq hclosed hstart
  rw [openEntity, hstartOffset, hstopOffset]
  refine ⟨?_, ?_, hcopied⟩
  · simp only [openEntity?, List.getElem?_eq_getElem hfirst, List.getElem?_eq_getElem hlast,
      Entity.last?_eq hword he, Token.stop?_eq hblock hstop, hclose, hcopy, Option.bind_eq_bind,
      Option.bind_some, Option.pure_def]
  · intro o ho
    rcases List.mem_cons.mp ho with rfl | ho
    · exact hstop
    · exact hstack o (List.mem_of_mem_drop ho)

/-- **Markup by stretches of text does not fail.** -/
theorem render?_eq (hblock : block.size < Word.bound) (hword : tokens.length < Word.bound)
    (hspan : ∀ e ∈ es, e.isSpanOf tokens.length = true) (hcursor : block.IsBoundary cursor)
    (hle : cursor ≤ n) (hin : block.InOrder n (tokens.map Token.range)) :
    render? block cursor tokens es = some (render block cursor tokens es) := by
  obtain ⟨hstate, hstack, hpen⟩ := foldlM_eq_some (P := Cuts block) (b := ([], { cursor }))
    (fun state h e he => openEntity?_eq hblock hword hin (hspan e he) h)
    ⟨fun o ho => absurd ho List.not_mem_nil, hcursor⟩
  have hsentence : sentence? block cursor tokens es = some (sentence block cursor tokens es) := by
    rw [sentence?, hstate]
    exact (Pen.foldlM_closeAt?_eq hstack hpen).1
  have hevents : Mark.events? (sentence block cursor tokens es).marks
      = some (Mark.events (sentence block cursor tokens es).marks) :=
    (copies_sentence hin hspan hcursor hle).events?_eq hcursor hblock
  rw [render?, hsentence, render]
  simp only [hevents, Option.bind_eq_bind, Option.bind_some, Option.pure_def]

end Flat

end EntityMarkup
