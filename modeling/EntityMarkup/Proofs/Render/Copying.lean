import EntityMarkup.Proofs.Render.Offsets
import EntityMarkup.Proofs.Render.Sentences
import EntityMarkup.Proofs.Render.Steps

/-!
# Inline markup copies the block

An inline renderer keeps a cursor, up to which the block is written. Both of them write the block
from the old cursor to the new one, whatever tags they put into it: no byte is left out, repeated or
moved. It takes tokens that lie in order, for only then is it known where the block is cut.

* `copies_walk`, `copies_sentence`: the markup of a sentence copies the block from cursor to cursor.
* **`copies_sentences`**: so do the sentences of a block, one after the other.
* **`literals_block`**: with what is written at its end, all of a block is copied.
-/

namespace EntityMarkup

open Mark (literals LabelsAre stretch)

/-! ## Marks that copy a stretch -/

/-- Marks that copy a block from one offset to another, the second of which is no further than
`bound`. -/
structure Mark.Copies (block : Text) (start stop bound : Nat) (marks : List Mark) : Prop where
  literals_eq : literals marks = block.slice start stop
  start_le : start ≤ stop
  le_bound : stop ≤ bound
  isBoundary : block.IsBoundary stop

namespace Mark

@[simp] theorem literals_stretch (block : Text) (a b : Nat) :
    literals (stretch block a b) = block.slice a b := by
  rw [stretch]
  split
  · simp [literals, copied]
  · rename_i h
    exact (Text.slice_eq_nil_of_le (Nat.le_of_not_lt h)).symm

theorem flatMap_text_stretch (block : Text) (a b : Nat) :
    (stretch block a b).flatMap text = (block.slice a b).escape := by
  rw [stretch]
  split
  · rw [List.flatMap_singleton, text_literal]
  · rename_i hle
    rw [Text.slice_eq_nil_of_le (Nat.le_of_not_lt hle)]
    rfl

variable {block : Text} {a b c bound : Nat} {xs ys : List Mark}

theorem Copies.nil (ha : block.IsBoundary a) (hle : a ≤ bound) : Copies block a a bound [] :=
  ⟨(Text.slice_self block a).symm, le_refl a, hle, ha⟩

theorem Copies.mono {bound' : Nat} (h : Copies block a b bound xs) (hle : bound ≤ bound') :
    Copies block a b bound' xs :=
  { h with le_bound := h.le_bound.trans hle }

theorem Copies.append (ha : block.IsBoundary a) (hx : Copies block a b bound xs)
    (hy : Copies block b c bound ys) : Copies block a c bound (xs ++ ys) where
  literals_eq := by
    rw [literals_append, hx.literals_eq, hy.literals_eq,
      Text.slice_append_slice ha hx.isBoundary hy.isBoundary hx.start_le hy.start_le]
  start_le := hx.start_le.trans hy.start_le
  le_bound := hy.le_bound
  isBoundary := hy.isBoundary

theorem Copies.append_tags (h : Copies block a b bound xs) (ys : List Mark)
    (hys : literals ys = []) : Copies block a b bound (xs ++ ys) :=
  { h with literals_eq := by rw [literals_append, hys, List.append_nil, h.literals_eq] }

theorem copies_stretch (ha : block.IsBoundary a) (hb : block.IsBoundary b) (hle : a ≤ bound)
    (hle' : b ≤ bound) : Copies block a (max a b) bound (stretch block a b) where
  literals_eq := by
    rw [literals_stretch]
    rcases Nat.le_total a b with h | h
    · rw [Nat.max_eq_right h]
    · rw [Nat.max_eq_left h, Text.slice_self, Text.slice_eq_nil_of_le h]
  start_le := Nat.le_max_left a b
  le_bound := Nat.max_le.mpr ⟨hle, hle'⟩
  isBoundary := ha.max hb

end Mark

/-! ## Markup nested by tokens -/

namespace Nested

variable {block : Text} {i n cursor : Nat} {opened pending : List Entity} {tokens : Sentence}

/-- What the markup of a sentence writes; a warning writes nothing. -/
theorem written_render (block : Text) (cursor : Nat) (tokens : Sentence) (es : List Entity) :
    Event.written (render block cursor tokens es).1
      = (sentence block cursor tokens es).marks.flatMap Mark.text := by
  rw [render, Event.written_append, Mark.written_events]
  split <;> exact List.append_nil _

theorem cursor_walk : (walk block i cursor opened pending tokens).cursor
    = Text.reach cursor (tokens.map Token.range) := by
  induction tokens generalizing i cursor opened pending with
  | nil => rfl
  | cons token rest ih => exact ih

/-- Before and in a token the block is copied up to its end. -/
theorem copies_around {token : Token} (starting ending : List Entity) (isLast : Bool)
    (hcursor : block.IsBoundary cursor) (hle : cursor ≤ token.start)
    (hlt : token.start < token.stop) (hstart : block.IsBoundary token.start)
    (hstop : block.IsBoundary token.stop) :
    Mark.Copies block cursor token.stop token.stop
      (around block i cursor starting ending token isLast) where
  literals_eq := by
    have hbegin : literals (starting.map fun e => Mark.beginEntity e.label) = [] := by
      simp [literals, Mark.copied]
    have hend : literals (ending.map fun _ => Mark.endEntity) = [] := by
      simp [literals, Mark.copied]
    have hopen : literals (if i = 0 then [Mark.beginSentence] else []) = [] := by
      split <;> rfl
    have hclose : literals (if isLast then [Mark.endSentence] else []) = [] := by
      split <;> rfl
    have hmid : literals [.beginToken, .literal (block.slice token.start token.stop), .endToken]
        = block.slice token.start token.stop := by
      simp [literals, Mark.copied]
    simp only [around, Mark.literals_append, hbegin, hend, hopen, hclose, hmid,
      Mark.literals_stretch, List.append_nil]
    exact Text.slice_append_slice hcursor hstart hstop hle hlt.le
  start_le := hle.trans hlt.le
  le_bound := le_refl _
  isBoundary := hstop

theorem copies_walk (hcursor : block.IsBoundary cursor) (hle : cursor ≤ n)
    (h : block.InOrder n (tokens.map Token.range)) :
    Mark.Copies block cursor (walk block i cursor opened pending tokens).cursor
      (Text.reach n (tokens.map Token.range))
      (walk block i cursor opened pending tokens).marks := by
  induction tokens generalizing i n cursor opened pending with
  | nil => exact Mark.Copies.nil hcursor hle
  | cons token rest ih =>
    obtain ⟨hn, hlt, hstart, hstop, hrest⟩ := h
    have haround := copies_around (i := i) (startingAt i pending)
      (endingAt i (openAt i opened pending)) rest.isEmpty hcursor (hle.trans hn) hlt hstart hstop
    exact (haround.mono hrest.le_reach).append hcursor (ih hstop (le_refl _) hrest)

end Nested

/-! ## Markup by stretches of text -/

namespace Flat

variable {block : Text} {n cursor bound : Nat} {tokens : Sentence}

theorem copies_closeAll (offsets : List Nat) (hcursor : block.IsBoundary cursor)
    (hle : cursor ≤ bound) (hoffsets : ∀ o ∈ offsets, block.IsBoundary o ∧ o ≤ bound) :
    Mark.Copies block cursor (closeAll block cursor offsets).cursor bound
      (closeAll block cursor offsets).marks := by
  induction offsets generalizing cursor with
  | nil => exact Mark.Copies.nil hcursor hle
  | cons o rest ih =>
    obtain ⟨⟨ho, hole⟩, hrest⟩ := List.forall_mem_cons.mp hoffsets
    have hstep := (Mark.copies_stretch hcursor ho hle hole).append_tags [.endEntity] rfl
    have hall := hstep.append hcursor (ih hstep.isBoundary hstep.le_bound hrest)
    rwa [List.append_assoc] at hall

/-- Entities that can be cut out of the block before an offset copy it no further than to there. -/
theorem copies_follow {es : List Entity} (stack : List Nat) (hcursor : block.IsBoundary cursor)
    (hle : cursor ≤ bound) (hstack : ∀ o ∈ stack, block.IsBoundary o ∧ o ≤ bound)
    (hes : ∀ e ∈ es, (block.IsBoundary (startOffset tokens e) ∧ startOffset tokens e ≤ bound) ∧
      block.IsBoundary (stopOffset tokens e) ∧ stopOffset tokens e ≤ bound) :
    Mark.Copies block cursor (follow block tokens stack cursor es).cursor bound
      (follow block tokens stack cursor es).marks := by
  induction es generalizing stack cursor with
  | nil => exact copies_closeAll stack hcursor hle hstack
  | cons e rest ih =>
    obtain ⟨⟨hstart, hstop⟩, hrest⟩ := List.forall_mem_cons.mp hes
    have hclosed := copies_closeAll (endingBy (startOffset tokens e) stack) hcursor hle
      fun o ho => hstack o ((List.takeWhile_sublist _).subset ho)
    have hcopied := (hclosed.append hcursor (Mark.copies_stretch hclosed.isBoundary hstart.1
      hclosed.le_bound hstart.2)).append_tags [.beginEntity e.label] rfl
    have hopened : ∀ o ∈ stackAfter tokens stack e, block.IsBoundary o ∧ o ≤ bound := by
      intro o ho
      rcases mem_stackAfter ho with rfl | ho
      · exact hstop
      · exact hstack o ho
    have hall := hcopied.append hcursor (ih _ hcopied.isBoundary hcopied.le_bound hopened hrest)
    rwa [List.append_assoc] at hall

/-- Entities that are spans of tokens in order copy the block no further than to their end. -/
theorem copies_sentence {es : List Entity} (hin : block.InOrder n (tokens.map Token.range))
    (hspan : ∀ e ∈ es, e.isSpanOf tokens.length = true) (hcursor : block.IsBoundary cursor)
    (hle : cursor ≤ n) :
    Mark.Copies block cursor (sentence block cursor tokens es).cursor
      (Text.reach n (tokens.map Token.range)) (sentence block cursor tokens es).marks := by
  rw [sentence_eq_follow]
  exact copies_follow [] hcursor (hle.trans hin.le_reach) (by simp)
    fun e he => isBoundary_offsets hin (hspan e he)

end Flat

/-! ## The sentences of a block -/

namespace Renderer

variable {r r' : Renderer} {markup : Text → Nat → Sentence → List Entity → List Event × Nat}
  {p : String → Prop} {n : Nat} {events : List Event}

/-- The markup of a sentence writes marks that copy the block up to the new cursor. -/
theorem copies_markup {format : OutputFormat} (hmarkup : format.markup? = some markup)
    {block : Text} {cursor : Nat} {tokens : Sentence} {es : List Entity}
    (hcursor : block.IsBoundary cursor) (hle : cursor ≤ n)
    (hin : block.InOrder n (tokens.map Token.range))
    (hspan : ∀ e ∈ es, e.isSpanOf tokens.length = true) (hlabels : ∀ e ∈ es, p e.label) :
    ∃ marks, Event.written (markup block cursor tokens es).1 = marks.flatMap Mark.text ∧
      LabelsAre p marks ∧
      Mark.Copies block cursor (markup block cursor tokens es).2
        (Text.reach n (tokens.map Token.range)) marks := by
  cases format with
  | xml =>
    cases hmarkup
    exact ⟨(Nested.sentence block cursor tokens es).marks,
      Nested.written_render block cursor tokens es, Nested.labelsAre_walk hlabels,
      Nested.copies_walk hcursor hle hin⟩
  | charSpan =>
    cases hmarkup
    exact ⟨(Flat.sentence block cursor tokens es).marks, Mark.written_events _,
      Flat.labelsAre_sentence block cursor tokens hlabels,
      Flat.copies_sentence hin hspan hcursor hle⟩
  | vertical => cases hmarkup
  | conll => cases hmarkup

variable (hmarkup : r.format.markup? = some markup)

include hmarkup

/-- **The sentences of a block copy it** from cursor to cursor. -/
theorem copies_sentences {found : List Finding} (h : r.sentences found = .ok (events, r'))
    (hlabels : ∀ f ∈ found, ∀ e ∈ f.2, p e.label)
    (hcursor : r.block.IsBoundary r.cursor) (hle : r.cursor ≤ n)
    (hin : r.block.InOrder n ((found.map Prod.fst).flatten.map Token.range)) :
    r' = { r with cursor := r'.cursor } ∧
      ∃ marks, Event.written events = marks.flatMap Mark.text ∧ LabelsAre p marks ∧
        Mark.Copies r.block r.cursor r'.cursor
          (Text.reach n ((found.map Prod.fst).flatten.map Token.range)) marks := by
  induction found generalizing r n events with
  | nil =>
    obtain ⟨rfl, rfl⟩ := sentences_nil_eq_ok_iff.mp h
    exact ⟨rfl, [], rfl, Mark.labelsAre_of_forall_ne (by simp), Mark.Copies.nil hcursor hle⟩
  | cons found rest ih =>
    obtain ⟨first, r₁, more, hfirst, hmore, rfl⟩ := sentences_cons_eq_ok_iff.mp h
    obtain ⟨hspans, notice, hnotice, rfl, rfl⟩ := (sentence_inline_eq_ok_iff hmarkup).mp hfirst
    obtain ⟨hfound, hrest⟩ := List.forall_mem_cons.mp hlabels
    rw [List.map_cons, List.flatten_cons, List.map_append, Text.inOrder_append] at hin
    obtain ⟨marks, hwritten, hmarks, hcopies⟩ := copies_markup hmarkup hcursor hle hin.1
      (fun e he => checkSpans_eq_ok_iff.mp hspans e (Entity.mem_sort.mp he))
      (fun e he => hfound e (Entity.mem_sort.mp he))
    let r₁ := { r with cursor := (markup r.block r.cursor found.1 (Entity.sort found.2)).2 }
    obtain ⟨hr', marks', hwritten', hmarks', hcopies'⟩ :=
      ih (r := r₁) hmarkup hmore hrest hcopies.isBoundary hcopies.le_bound hin.2
    refine ⟨hr', marks ++ marks', ?_, Mark.labelsAre_append.mpr ⟨hmarks, hmarks'⟩, ?_⟩
    · rw [Event.written_append, Event.written_append, (written_of_checkCrossing hnotice).1,
        hwritten, hwritten', List.nil_append, List.flatMap_append]
    · rw [List.map_cons, List.flatten_cons, List.map_append, Text.reach_append]
      exact (hcopies.mono hin.2.le_reach).append hcursor hcopies'

/-- **All of a block is copied** when it has ended. -/
theorem literals_block {found : List Finding} (hstart : r.cursor = 0)
    (h : r.sentences found = .ok (events, r'))
    (hlabels : ∀ f ∈ found, ∀ e ∈ f.2, p e.label)
    (hin : r.block.InOrder 0 ((found.map Prod.fst).flatten.map Token.range)) :
    ∃ marks, Event.written (events ++ r'.finish.1) = marks.flatMap Mark.text ∧
      LabelsAre p marks ∧ literals marks = r.block := by
  have hzero := Text.isBoundary_zero r.block
  obtain ⟨hr', marks, hwritten, hmarks, hcopies⟩ :=
    copies_sentences hmarkup h hlabels (hstart ▸ hzero) (Nat.le_of_eq hstart) hin
  have hmarkup' : r'.format.markup? = some markup := by rw [hr']; exact hmarkup
  have hblock : r'.block = r.block := by rw [hr']
  rw [finish_inline hmarkup']
  refine ⟨marks ++ stretch r'.block r'.cursor r'.block.size, ?_,
    Mark.labelsAre_append.mpr ⟨hmarks, Mark.labelsAre_stretch p _ _ _⟩, ?_⟩
  · rw [Event.written_append, hwritten, Mark.written_events, List.flatMap_append]
  · rw [Mark.literals_append, hcopies.literals_eq, Mark.literals_stretch, hblock, hstart,
      Text.slice_append_slice hzero hcopies.isBoundary (Text.isBoundary_size _) (Nat.zero_le _)
        hcopies.isBoundary.le_size, Text.slice_zero_size]

end Renderer

end EntityMarkup
