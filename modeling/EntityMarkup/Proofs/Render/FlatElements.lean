import EntityMarkup.Proofs.Render.Brackets
import EntityMarkup.Proofs.Render.Copying

/-!
# The elements of markup by stretches of text

Every entity begins at its own start, whatever the entities are: they are opened in the order of
rendering, and what is closed before one is opened ends before it. It is closed when everything that
was put on top of it is, so it ends at the furthest of its own end and the ends of the entities
inside its element. Where no two entities cross, those end no later than it does.

* `stopOf_follow`: where what is open ends, for any entities.
* **`elements_follow`**: the elements of entities in the order of rendering.
* `Laminar.step`, `stopOf_follow_laminar`: where what is open ends if no two entities cross.
* **`elements_sentence_charSpan`**: the elements of a sentence after any others of its block.
-/

namespace EntityMarkup

open Mark (IsPlain Bracket Element stopOf innerOf elementsOf brackets isBalancedFrom bytesIn
  stretch)

namespace Flat

/-! ## How far the block is copied -/

/-- The furthest of a cursor and some offsets. -/
def furthest (cursor : Nat) (offsets : List Nat) : Nat :=
  offsets.foldl max cursor

/-- The offsets at which entities are closed that end at the given offsets. -/
def closingOffsets : (cursor : Nat) → List Nat → List Nat
  | _, [] => []
  | cursor, offset :: rest => max cursor offset :: closingOffsets (max cursor offset) rest

/-- The offset at which an entity is opened. -/
def openingOffset (tokens : Sentence) (stack : List Nat) (cursor : Nat) (e : Entity) : Nat :=
  max (furthest cursor (endingBy (startOffset tokens e) stack)) (startOffset tokens e)

variable {block : Text} {cursor bound : Nat} {offsets stack : List Nat} {tokens : Sentence}
  {e : Entity} {es : List Entity}

theorem furthest_le_iff :
    furthest cursor offsets ≤ bound ↔ cursor ≤ bound ∧ ∀ o ∈ offsets, o ≤ bound := by
  induction offsets generalizing cursor with
  | nil => simp [furthest]
  | cons o rest ih =>
    have hcons : furthest cursor (o :: rest) = furthest (max cursor o) rest := rfl
    rw [hcons, ih, Nat.max_le, List.forall_mem_cons, and_assoc]

theorem some_furthest_cons {offset : Nat} (h : cursor ≤ offset) (offsets : List Nat) :
    some (furthest cursor (offset :: offsets)) = (offset :: offsets).max? := by
  rw [List.max?_cons', furthest, List.foldl_cons, Nat.max_eq_right h]

theorem cursor_closeAll (block : Text) (cursor : Nat) (offsets : List Nat) :
    (closeAll block cursor offsets).cursor = furthest cursor offsets := by
  induction offsets generalizing cursor with
  | nil => rfl
  | cons o rest ih => exact ih (max cursor o)

theorem length_closingOffsets (cursor : Nat) (offsets : List Nat) :
    (closingOffsets cursor offsets).length = offsets.length := by
  induction offsets generalizing cursor with
  | nil => rfl
  | cons o rest ih => rw [closingOffsets, List.length_cons, ih, List.length_cons]

theorem getElem?_closingOffsets {depth : Nat} (h : depth < offsets.length) :
    (closingOffsets cursor offsets)[depth]?
      = some (furthest cursor (offsets.take (depth + 1))) := by
  induction offsets generalizing cursor depth with
  | nil => exact absurd h (Nat.not_lt_zero _)
  | cons o rest ih =>
    cases depth with
    | zero => rfl
    | succ depth => exact ih (Nat.lt_of_succ_lt_succ h)

theorem openingOffset_eq (stack : List Nat) (h : cursor ≤ startOffset tokens e) :
    openingOffset tokens stack cursor e = startOffset tokens e :=
  Nat.max_eq_right (furthest_le_iff.mpr ⟨h, fun _ ho => le_of_mem_endingBy ho⟩)

/-! ## Brackets -/

/-- The offsets at which the block is copied or cut are boundaries, and entities end behind their
starts. -/
structure Cut (block : Text) (tokens : Sentence) (stack : List Nat) (cursor : Nat)
    (es : List Entity) : Prop where
  cursor : block.IsBoundary cursor
  stack : ∀ o ∈ stack, block.IsBoundary o
  starts : ∀ e ∈ es, block.IsBoundary (startOffset tokens e)
  stops : ∀ e ∈ es, block.IsBoundary (stopOffset tokens e)
  lt : ∀ e ∈ es, startOffset tokens e < stopOffset tokens e

theorem isBoundary_furthest (hcursor : block.IsBoundary cursor)
    (hoffsets : ∀ o ∈ offsets, block.IsBoundary o) :
    block.IsBoundary (furthest cursor offsets) := by
  induction offsets generalizing cursor with
  | nil => exact hcursor
  | cons o rest ih =>
    obtain ⟨ho, hrest⟩ := List.forall_mem_cons.mp hoffsets
    exact ih (hcursor.max ho) hrest

theorem Cut.step (h : Cut block tokens stack cursor (e :: es)) :
    Cut block tokens (stackAfter tokens stack e) (openingOffset tokens stack cursor e) es where
  cursor := (isBoundary_furthest h.cursor fun o ho =>
    h.stack o ((List.takeWhile_sublist _).subset ho)).max (h.starts e List.mem_cons_self)
  stack o ho := by
    rcases mem_stackAfter ho with rfl | ho
    · exact h.stops e List.mem_cons_self
    · exact h.stack o ho
  starts x hx := h.starts x (List.mem_cons_of_mem _ hx)
  stops x hx := h.stops x (List.mem_cons_of_mem _ hx)
  lt x hx := h.lt x (List.mem_cons_of_mem _ hx)

theorem brackets_stretch_append {a b : Nat} (ha : block.IsBoundary a) (hb : block.IsBoundary b)
    (rest : List Mark) :
    brackets bytesIn a (stretch block a b ++ rest) = brackets bytesIn (max a b) rest := by
  rw [stretch]
  split
  · rename_i hlt
    have hsize : a + bytesIn (.literal (block.slice a b)) = max a b := by
      rw [bytesIn, Mark.copied, Text.size_slice ha hb hlt.le, Nat.max_eq_right hlt.le]
      omega
    rw [List.singleton_append, brackets, hsize]
    all_goals simp
  · rename_i hle
    rw [Nat.max_eq_left (Nat.le_of_not_lt hle), List.nil_append]

theorem brackets_closeAll_append (hcursor : block.IsBoundary cursor)
    (hoffsets : ∀ o ∈ offsets, block.IsBoundary o) (rest : List Mark) :
    brackets bytesIn cursor ((closeAll block cursor offsets).marks ++ rest)
      = (closingOffsets cursor offsets).map .closing
        ++ brackets bytesIn (furthest cursor offsets) rest := by
  induction offsets generalizing cursor with
  | nil => rfl
  | cons o offsets ih =>
    obtain ⟨ho, hoffsets⟩ := List.forall_mem_cons.mp hoffsets
    rw [closeAll, List.append_assoc, brackets_stretch_append hcursor ho, List.cons_append, brackets,
      ih (hcursor.max ho) hoffsets]
    rfl

theorem brackets_follow_nil (h : Cut block tokens stack cursor []) :
    brackets bytesIn cursor (follow block tokens stack cursor []).marks
      = (closingOffsets cursor stack).map .closing := by
  have hall := brackets_closeAll_append h.cursor h.stack []
  rw [List.append_nil] at hall
  simpa [follow, brackets] using hall

theorem brackets_follow_cons (h : Cut block tokens stack cursor (e :: es)) :
    brackets bytesIn cursor (follow block tokens stack cursor (e :: es)).marks
      = (closingOffsets cursor (endingBy (startOffset tokens e) stack)).map .closing
        ++ .opening e.label (openingOffset tokens stack cursor e)
        :: brackets bytesIn (openingOffset tokens stack cursor e)
          (follow block tokens (stackAfter tokens stack e) (openingOffset tokens stack cursor e)
            es).marks := by
  have hending : ∀ o ∈ endingBy (startOffset tokens e) stack, block.IsBoundary o :=
    fun o ho => h.stack o ((List.takeWhile_sublist _).subset ho)
  simp only [follow, cursor_closeAll, List.append_assoc]
  rw [brackets_closeAll_append h.cursor hending,
    brackets_stretch_append (isBoundary_furthest h.cursor hending) (h.starts e List.mem_cons_self)]
  rfl

/-! ## Any entities -/

/-- What is copied when the entity at a depth ends, if it does not end before the next is opened. -/
theorem furthest_stackAfter (hlt : startOffset tokens e < stopOffset tokens e) (depth k : Nat) :
    furthest (openingOffset tokens stack cursor e)
        ((stackAfter tokens stack e).take (depth + 2) ++ (es.take k).map (stopOffset tokens))
      = furthest cursor
        (stack.take ((endingBy (startOffset tokens e) stack).length + depth + 1)
          ++ ((e :: es).take (k + 1)).map (stopOffset tokens)) := by
  have hstack : stack.take ((endingBy (startOffset tokens e) stack).length + depth + 1)
      = endingBy (startOffset tokens e) stack
        ++ (stack.drop (endingBy (startOffset tokens e) stack).length).take (depth + 1) := by
    rw [Nat.add_assoc, List.take_add, take_length_endingBy]
  -- both are the furthest of the same offsets, for the entity ends behind its start
  refine eq_of_forall_ge_iff fun b => ?_
  rw [hstack, stackAfter, openingOffset]
  simp only [furthest_le_iff, Nat.max_le, List.take_succ_cons, List.map_cons,
    List.forall_mem_append, List.forall_mem_cons, List.cons_append]
  constructor
  · rintro ⟨⟨⟨hcursor, hending⟩, -⟩, hstop, hopen, hes⟩
    exact ⟨hcursor, ⟨hending, hopen⟩, hstop, hes⟩
  · rintro ⟨hcursor, ⟨hending, hopen⟩, hstop, hes⟩
    exact ⟨⟨⟨hcursor, hending⟩, hlt.le.trans hstop⟩, hstop, hopen, hes⟩

/-- **Where what is open ends**: at the furthest of the cursor, the offsets above it on the stack
and its own, and the ends of the entities that are opened before that. -/
theorem stopOf_follow (h : Cut block tokens stack cursor es) {depth : Nat}
    (hdepth : depth < stack.length) :
    stopOf depth (brackets bytesIn cursor (follow block tokens stack cursor es).marks)
      = some (furthest cursor (stack.take (depth + 1)
        ++ (es.take (innerOf depth (brackets bytesIn cursor
          (follow block tokens stack cursor es).marks))).map (stopOffset tokens))) := by
  induction es generalizing stack cursor depth with
  | nil =>
    have hclosing := Mark.stopOf_closings_append depth (closingOffsets cursor stack) []
    rw [List.append_nil, length_closingOffsets, if_pos hdepth, getElem?_closingOffsets hdepth]
      at hclosing
    rw [brackets_follow_nil h, hclosing, List.take_nil, List.map_nil, List.append_nil]
  | cons e es ih =>
    rw [brackets_follow_cons h, Mark.stopOf_closings_append, Mark.innerOf_closings_append,
      length_closingOffsets]
    by_cases hlt : depth < (endingBy (startOffset tokens e) stack).length
    · have htake : (endingBy (startOffset tokens e) stack).take (depth + 1)
          = stack.take (depth + 1) := by
        rw [← take_length_endingBy, List.take_take, Nat.min_eq_left hlt]
      rw [if_pos hlt, if_pos hlt, getElem?_closingOffsets hlt, htake, List.take_zero, List.map_nil,
        List.append_nil]
    · obtain ⟨d, rfl⟩ := Nat.exists_eq_add_of_le (Nat.le_of_not_lt hlt)
      have hd : d + 1 < (stackAfter tokens stack e).length := by
        rw [stackAfter, List.length_cons, List.length_drop]
        omega
      rw [if_neg hlt, if_neg hlt, Nat.add_sub_cancel_left, stopOf, innerOf, ih h.step hd,
        furthest_stackAfter (h.lt e List.mem_cons_self)]

/-- The first entity becomes an element, the first of all. -/
theorem elementsOf_follow_cons (h : Cut block tokens stack cursor (e :: es)) :
    elementsOf (brackets bytesIn cursor (follow block tokens stack cursor (e :: es)).marks)
      = (let later := brackets bytesIn (openingOffset tokens stack cursor e)
          (follow block tokens (stackAfter tokens stack e) (openingOffset tokens stack cursor e)
            es).marks
        ⟨e.label, openingOffset tokens stack cursor e, stopOf 0 later, innerOf 0 later⟩
          :: elementsOf later) := by
  rw [brackets_follow_cons h, Mark.elementsOf_closings_append]
  rfl

/-- **The elements of entities in the order of rendering**: each begins where its entity does and
ends at the furthest of its entity's end and those of the entities inside it. -/
theorem elements_follow (h : Cut block tokens stack cursor es)
    (hcursor : ∀ e ∈ es, cursor ≤ startOffset tokens e)
    (hsorted : es.Pairwise fun a b => startOffset tokens a ≤ startOffset tokens b) :
    let found := elementsOf (brackets bytesIn cursor (follow block tokens stack cursor es).marks)
    found.length = es.length ∧
      ∀ k e x, es[k]? = some e → found[k]? = some x →
        x.label = e.label ∧ x.start = startOffset tokens e ∧
        x.stop = (((es.drop k).take (x.inner + 1)).map (stopOffset tokens)).max? := by
  induction es generalizing stack cursor with
  | nil =>
    refine ⟨?_, fun k e x he => absurd he (by simp)⟩
    rw [brackets_follow_nil h]
    have hnone := Mark.elementsOf_closings_append (closingOffsets cursor stack) []
    rw [List.append_nil] at hnone
    rw [hnone]
    rfl
  | cons e es ih =>
    obtain ⟨he, hrest⟩ := List.pairwise_cons.mp hsorted
    have hopening := openingOffset_eq stack (hcursor e List.mem_cons_self)
    have hstep := h.step
    rw [elementsOf_follow_cons h]
    rw [hopening] at hstep ⊢
    obtain ⟨hlength, helements⟩ := ih hstep he hrest
    refine ⟨congrArg Nat.succ hlength, fun k e' x he' hx => ?_⟩
    cases k with
    | zero =>
      obtain rfl := Option.some.inj he'
      obtain rfl := Option.some.inj hx
      refine ⟨rfl, rfl, ?_⟩
      rw [stopOf_follow hstep (Nat.succ_pos _)]
      exact some_furthest_cons (h.lt e List.mem_cons_self).le _
    | succ k => exact helements k e' x he' hx

/-! ## Entities that do not cross -/

/-- Nothing that is open ends before the cursor, or before what lies above it on the stack, and
every entity still to come lies behind what is open and what comes before it, or inside that. -/
structure Laminar (tokens : Sentence) (stack : List Nat) (cursor : Nat) (es : List Entity) :
    Prop where
  le_stack : ∀ o ∈ stack, cursor ≤ o
  le_start : ∀ e ∈ es, cursor ≤ startOffset tokens e
  sorted : stack.Pairwise (· ≤ ·)
  nests_stack : ∀ o ∈ stack, ∀ e ∈ es, o ≤ startOffset tokens e ∨ stopOffset tokens e ≤ o
  nests : es.Pairwise fun a b => startOffset tokens a ≤ startOffset tokens b ∧
    (stopOffset tokens a ≤ startOffset tokens b ∨ stopOffset tokens b ≤ stopOffset tokens a)

/-- **The stack stays ordered** when an entity is opened. -/
theorem Laminar.step (h : Laminar tokens stack cursor (e :: es))
    (hlt : startOffset tokens e < stopOffset tokens e) :
    Laminar tokens (stackAfter tokens stack e) (openingOffset tokens stack cursor e) es := by
  obtain ⟨he, hes⟩ := List.pairwise_cons.mp h.nests
  have hlower : ∀ o ∈ stack.drop (endingBy (startOffset tokens e) stack).length,
      startOffset tokens e < o ∧ stopOffset tokens e ≤ o := by
    intro o ho
    have hbehind : startOffset tokens e < o := lt_of_mem_drop_takeWhile (f := id) h.sorted
      (fun x _ hx => Nat.lt_of_not_le (of_decide_eq_false hx)) ho
    rcases h.nests_stack o (List.mem_of_mem_drop ho) e List.mem_cons_self with hle | hle
    · exact absurd hle (Nat.not_le_of_lt hbehind)
    · exact ⟨hbehind, hle⟩
  rw [openingOffset_eq stack (h.le_start e List.mem_cons_self), stackAfter]
  refine ⟨?_, fun x hx => (he x hx).1, ?_, ?_, hes⟩
  · exact List.forall_mem_cons.mpr ⟨hlt.le, fun o ho => (hlower o ho).1.le⟩
  · exact List.pairwise_cons.mpr
      ⟨fun o ho => (hlower o ho).2, h.sorted.sublist (List.drop_sublist _ _)⟩
  · exact List.forall_mem_cons.mpr ⟨fun x hx => (he x hx).2, fun o ho x hx =>
      h.nests_stack o (List.mem_of_mem_drop ho) x (List.mem_cons_of_mem _ hx)⟩

/-- Ordered offsets are those at which entities are closed. -/
theorem closingOffsets_eq (hle : ∀ o ∈ offsets, cursor ≤ o) (hsorted : offsets.Pairwise (· ≤ ·)) :
    closingOffsets cursor offsets = offsets := by
  induction offsets generalizing cursor with
  | nil => rfl
  | cons o rest ih =>
    obtain ⟨ho, hrest⟩ := List.pairwise_cons.mp hsorted
    rw [closingOffsets, Nat.max_eq_right (hle o List.mem_cons_self), ih ho hrest]

/-- What is open ends where the stack says. -/
theorem stopOf_follow_laminar (h : Cut block tokens stack cursor es)
    (hl : Laminar tokens stack cursor es) (depth : Nat) :
    stopOf depth (brackets bytesIn cursor (follow block tokens stack cursor es).marks)
      = stack[depth]? := by
  induction es generalizing stack cursor depth with
  | nil =>
    have hclosing := Mark.stopOf_closings_append depth stack []
    rw [brackets_follow_nil h, closingOffsets_eq hl.le_stack hl.sorted]
    rw [List.append_nil] at hclosing
    rw [hclosing]
    split
    · rfl
    · rename_i hle
      exact (List.getElem?_eq_none (Nat.le_of_not_lt hle)).symm
  | cons e es ih =>
    have hending : closingOffsets cursor (endingBy (startOffset tokens e) stack)
        = endingBy (startOffset tokens e) stack :=
      closingOffsets_eq (fun o ho => hl.le_stack o ((List.takeWhile_sublist _).subset ho))
        (hl.sorted.sublist (List.takeWhile_sublist _))
    rw [brackets_follow_cons h, hending, Mark.stopOf_closings_append]
    split
    · rename_i hlt
      rw [← take_length_endingBy, List.getElem?_take_of_lt hlt]
    · rename_i hle
      rw [stopOf, ih h.step (hl.step (h.lt e List.mem_cons_self)), stackAfter,
        List.getElem?_cons_succ, List.getElem?_drop,
        Nat.add_sub_cancel' (Nat.le_of_not_lt hle)]

/-- Elements of entities of which no two cross end where their entities do. -/
theorem stop_elements_follow (h : Cut block tokens stack cursor es)
    (hl : Laminar tokens stack cursor es) {k : Nat} {x : Element} (he : es[k]? = some e)
    (hx : (elementsOf (brackets bytesIn cursor
      (follow block tokens stack cursor es).marks))[k]? = some x) :
    x.stop = some (stopOffset tokens e) := by
  induction es generalizing stack cursor k with
  | nil => exact absurd he (by simp)
  | cons e' es ih =>
    have hstep := hl.step (h.lt e' List.mem_cons_self)
    rw [elementsOf_follow_cons h] at hx
    cases k with
    | zero =>
      obtain rfl := Option.some.inj he
      obtain rfl := Option.some.inj hx
      exact stopOf_follow_laminar h.step hstep 0
    | succ k => exact ih h.step hstep he hx

/-! ## Balance -/

/-- Closing entities takes them off from what is open. -/
theorem isBalancedFrom_closeAll_append (frames : List Mark)
    (hlength : frames.length = offsets.length)
    (hframes : ∀ m ∈ frames, Mark.endEntity.isEndOf m = true) (opened rest : List Mark) :
    isBalancedFrom (frames ++ opened) ((closeAll block cursor offsets).marks ++ rest)
      = isBalancedFrom opened rest := by
  induction offsets generalizing frames cursor with
  | nil =>
    obtain rfl := List.length_eq_zero_iff.mp hlength
    rfl
  | cons o offsets ih =>
    obtain ⟨m, frames, rfl⟩ := List.exists_cons_of_length_eq_add_one hlength
    obtain ⟨hm, hframes⟩ := List.forall_mem_cons.mp hframes
    have hends := Mark.isBalancedFrom_ends_append [m] (by simpa using hm)
      (frames ++ opened) ((closeAll block (max cursor o) offsets).marks ++ rest)
    rw [closeAll, List.append_assoc, Mark.isBalancedFrom_stretch_append]
    exact hends.trans (ih frames (Nat.succ.inj hlength) hframes)

/-- **Everything that is open is closed.** -/
theorem isBalancedFrom_follow (frames : List Mark) (hlength : frames.length = stack.length)
    (hframes : ∀ m ∈ frames, Mark.endEntity.isEndOf m = true) :
    isBalancedFrom frames (follow block tokens stack cursor es).marks = true := by
  induction es generalizing frames stack cursor with
  | nil =>
    have hclosed :
        isBalancedFrom (frames ++ []) ((closeAll block cursor stack).marks ++ []) = true :=
      isBalancedFrom_closeAll_append frames hlength hframes [] []
    rwa [List.append_nil, List.append_nil] at hclosed
  | cons e es ih =>
    have hending : (frames.take (endingBy (startOffset tokens e) stack).length).length
        = (endingBy (startOffset tokens e) stack).length := by
      rw [List.length_take, hlength]
      exact Nat.min_eq_left (List.takeWhile_prefix _).length_le
    rw [← List.take_append_drop (endingBy (startOffset tokens e) stack).length frames, follow,
      List.append_assoc, isBalancedFrom_closeAll_append _ hending
        (fun m hm => hframes m (List.mem_of_mem_take hm)),
      Mark.isBalancedFrom_stretch_append]
    refine ih (.beginEntity e.label :: _) ?_ ?_
    · rw [stackAfter, List.length_cons, List.length_cons, List.length_drop, List.length_drop,
        hlength]
    · exact List.forall_mem_cons.mpr ⟨rfl, fun m hm => hframes m (List.mem_of_mem_drop hm)⟩

/-- The tags of a sentence are balanced, whatever its entities are. -/
theorem isBalanced_sentence (block : Text) (cursor : Nat) (tokens : Sentence) (es : List Entity) :
    Mark.isBalanced (sentence block cursor tokens es).marks = true := by
  rw [sentence_eq_follow]
  exact isBalancedFrom_follow [] rfl (by simp)

/-! ## A sentence -/

/-- At entities that are spans of tokens in order everything can be cut, be they open or still to
come. -/
theorem cut_of_isSpanOf {n : Nat} (hin : block.InOrder n (tokens.map Token.range))
    (hcursor : block.IsBoundary cursor) {opened pending : List Entity}
    (hspan : ∀ e ∈ opened ++ pending, e.isSpanOf tokens.length = true) :
    Cut block tokens (opened.map (stopOffset tokens)) cursor pending where
  cursor := hcursor
  stack o ho := by
    obtain ⟨e, he, rfl⟩ := List.mem_map.mp ho
    exact (isBoundary_offsets hin (hspan e (List.mem_append_left _ he))).2.1
  starts e he := (isBoundary_offsets hin (hspan e (List.mem_append_right _ he))).1.1
  stops e he := (isBoundary_offsets hin (hspan e (List.mem_append_right _ he))).2.1
  lt e he := startOffset_lt_stopOffset hin (hspan e (List.mem_append_right _ he))

section Sentence

variable {n : Nat} {entities : List Entity}
  (hin : block.InOrder n (tokens.map Token.range))
  (hspan : ∀ e ∈ entities, e.isSpanOf tokens.length = true)

include hin hspan

theorem cut_sort (hcursor : block.IsBoundary cursor) :
    Cut block tokens [] cursor (Entity.sort entities) := by
  have hsorted : ∀ e ∈ [] ++ Entity.sort entities, e.isSpanOf tokens.length = true :=
    fun e he => hspan e (Entity.mem_sort.mp he)
  exact cut_of_isSpanOf hin hcursor hsorted

theorem pairwise_startOffset_sort :
    (Entity.sort entities).Pairwise fun a b => startOffset tokens a ≤ startOffset tokens b :=
  (Entity.pairwise_sort entities).imp_of_mem fun _ hb hab =>
    startOffset_mono hin (hspan _ (Entity.mem_sort.mp hb)) (Entity.start_le_of_mayPrecede hab)

/-- Before the first entity, entities of which no two cross are as they have to be. -/
theorem laminar_sort (hle : cursor ≤ n)
    (hcross : Entity.firstCrossing? (Entity.sort entities) = none) :
    Laminar tokens [] cursor (Entity.sort entities) where
  le_stack _ ho := absurd ho List.not_mem_nil
  le_start e he := hle.trans (le_startOffset hin (hspan e (Entity.mem_sort.mp he)))
  sorted := List.Pairwise.nil
  nests_stack _ ho := absurd ho List.not_mem_nil
  nests := (Entity.pairwise_nests hspan hcross).imp_of_mem fun ha hb hab =>
    nestsAt_of_nests hin (hspan _ (Entity.mem_sort.mp hb)) (hspan _ (Entity.mem_sort.mp ha)) hab

theorem elements_sentence (hcursor : block.IsBoundary cursor) (hle : cursor ≤ n) :
    let sorted := Entity.sort entities
    let found := Mark.elements bytesIn cursor (sentence block cursor tokens sorted).marks
    found.length = entities.length ∧
      ∀ k e x, sorted[k]? = some e → found[k]? = some x →
        x.label = e.label ∧
        tokens[e.start]?.map Token.start = some x.start ∧
        x.stop = (((sorted.drop k).take (x.inner + 1)).map (stopOffset tokens)).max? ∧
        (∃ stop, x.stop = some stop ∧ stopOffset tokens e ≤ stop) ∧
        ((∀ a ∈ entities, ∀ b ∈ entities, a.crosses b = false) →
          x.stop = tokens[e.last]?.map Token.stop) := by
  intro sorted found
  have hcut := cut_sort hin hspan hcursor
  have hstarts : ∀ e ∈ sorted, cursor ≤ startOffset tokens e := fun e he =>
    hle.trans (le_startOffset hin (hspan e (Entity.mem_sort.mp he)))
  obtain ⟨hlength, helements⟩ := elements_follow hcut hstarts (pairwise_startOffset_sort hin hspan)
  have hfound : found = elementsOf (brackets bytesIn cursor
      (follow block tokens [] cursor sorted).marks) := by
    rw [← sentence_eq_follow]
    rfl
  rw [← hfound] at hlength helements
  refine ⟨hlength.trans (Entity.sort_perm entities).length_eq, fun k e x he hx => ?_⟩
  obtain ⟨hlabel, hstart, hstop⟩ := helements k e x he hx
  have hspan := hspan e (Entity.mem_sort.mp (List.mem_of_getElem? he))
  refine ⟨hlabel, ?_, hstop, ?_, fun hcross => ?_⟩
  · rw [hstart, startOffset_eq hspan]
  · -- the entity is the first of those whose ends are compared
    have hdrop : sorted.drop k = e :: sorted.drop (k + 1) := by
      obtain ⟨hk, rfl⟩ := List.getElem?_eq_some_iff.mp he
      exact List.drop_eq_getElem_cons hk
    rw [hdrop, List.take_succ_cons, List.map_cons, List.max?_cons'] at hstop
    exact ⟨_, hstop, (furthest_le_iff.mp (le_refl _)).1⟩
  · rw [hfound] at hx
    rw [stop_elements_follow hcut (laminar_sort hin ‹_› hle
      (Entity.firstCrossing?_sort_eq_none hcross)) he hx, stopOffset_eq hspan]

end Sentence

end Flat

/-- **The elements of a sentence after any others of its block**, counted in bytes of the block:
each begins where its entity does, and ends at the furthest of the ends of its entity and of those
whose elements lie inside it; where no two entities cross it ends where its entity does. All tags
are balanced, and what is written is the block up to some offset. -/
theorem Renderer.elements_sentence_charSpan {block : Text} (counter : LineCounter)
    {earlier : List Finding} {tokens : Sentence} {entities : List Entity}
    (hin : block.InOrder 0 (((earlier.map Prod.fst).flatten ++ tokens).map Token.range))
    (hspans : ∀ f ∈ earlier ++ [(tokens, entities)], checkSpans f.2 f.1.length = .ok ())
    (hlabels : ∀ f ∈ earlier ++ [(tokens, entities)], ∀ e ∈ f.2, IsPlain e.label) :
    ∃ before r₁ events r₂ marks origin,
      sentences ⟨.charSpan, .warn, block, counter, 0, 0⟩ earlier = .ok (before, r₁) ∧
      r₁.sentence tokens entities = .ok (events, r₂) ∧
      origin = (Event.written before).stripTags.unescape ∧
      origin ++ (Event.written events).stripTags.unescape <+: block ∧
      Mark.read? (Event.written events) = some marks ∧
      Mark.isBalanced marks = true ∧
      (Mark.elements bytesIn origin.size marks).length = entities.length ∧
      ∀ k e x, (Entity.sort entities)[k]? = some e →
        (Mark.elements bytesIn origin.size marks)[k]? = some x →
        x.label = e.label ∧
        tokens[e.start]?.map Token.start = some x.start ∧
        x.stop = ((((Entity.sort entities).drop k).take (x.inner + 1)).map
          (Flat.stopOffset tokens)).max? ∧
        (∃ stop, x.stop = some stop ∧ Flat.stopOffset tokens e ≤ stop) ∧
        ((∀ a ∈ entities, ∀ b ∈ entities, a.crosses b = false) →
          x.stop = tokens[e.last]?.map Token.stop) := by
  rw [List.map_append, Text.inOrder_append] at hin
  obtain ⟨hearlier, htokens⟩ := hin
  obtain ⟨hspansEarlier, hspans⟩ := List.forall_mem_append.mp hspans
  obtain ⟨hlabelsEarlier, hlabels⟩ := List.forall_mem_append.mp hlabels
  have hspans := hspans _ (List.mem_singleton_self _)
  have hlabels := hlabels _ (List.mem_singleton_self _)
  have hspan := checkSpans_eq_ok_iff.mp hspans
  let r : Renderer := ⟨.charSpan, .warn, block, counter, 0, 0⟩
  have hmarkup : r.format.markup? = some Flat.render := rfl
  have hzero := Text.isBoundary_zero block
  -- what is written before the sentence
  obtain ⟨before, r₁, hbefore⟩ := exists_sentences_warn hmarkup rfl hspansEarlier
  obtain ⟨hr₁, earlierMarks, hwritten, hearlierLabels, hcopies⟩ :=
    copies_sentences hmarkup hbefore hlabelsEarlier hzero (le_refl 0) hearlier
  obtain ⟨cursor, rfl⟩ : ∃ cursor, r₁ = { r with cursor } := ⟨_, hr₁⟩
  have horigin : (Event.written before).stripTags.unescape = block.slice 0 cursor := by
    rw [hwritten]
    exact (Mark.unescape_stripTags_flatMap_text
      (hearlierLabels.imp fun _ h => h.keepsTag)).trans hcopies.literals_eq
  have hsize : (block.slice 0 cursor).size = cursor := by
    rw [Text.size_slice hzero hcopies.isBoundary (Nat.zero_le _), Nat.sub_zero]
  -- the sentence
  obtain ⟨notice, hnotice⟩ := exists_checkCrossing_warn (Entity.sort entities)
  let pen := Flat.sentence block cursor tokens (Entity.sort entities)
  have hsentence : Renderer.sentence { r with cursor } tokens entities
      = .ok (notice ++ Mark.events pen.marks, { r with cursor := pen.cursor }) :=
    (sentence_inline_eq_ok_iff (r := { r with cursor }) hmarkup).mpr
      ⟨hspans, notice, hnotice, rfl, rfl⟩
  have hevents : Event.written (notice ++ Mark.events pen.marks) = pen.marks.flatMap Mark.text := by
    rw [Event.written_append, (written_of_checkCrossing hnotice).1, Mark.written_events,
      List.nil_append]
  have hmarks : Mark.LabelsAre IsPlain pen.marks :=
    Flat.labelsAre_sentence block cursor tokens fun e he => hlabels e (Entity.mem_sort.mp he)
  have hcopied := Flat.copies_sentence htokens (fun e he => hspan e (Entity.mem_sort.mp he))
    hcopies.isBoundary hcopies.le_bound
  have hprefix : block.slice 0 cursor
      ++ (Event.written (notice ++ Mark.events pen.marks)).stripTags.unescape <+: block := by
    have hliteral := Mark.unescape_stripTags_flatMap_text (hmarks.imp fun _ h => h.keepsTag)
    rw [hevents, hliteral, hcopied.literals_eq, Text.slice_append_slice hzero hcopies.isBoundary
      hcopied.isBoundary (Nat.zero_le _) hcopied.start_le]
    exact Text.slice_isPrefix hcopied.isBoundary
  have hbalanced : Mark.isBalanced (Mark.joined [] pen.marks) = true := by
    rw [Mark.isBalanced_joined]
    exact Flat.isBalanced_sentence block cursor tokens _
  have hread : Mark.read? (Event.written (notice ++ Mark.events pen.marks))
      = some (Mark.joined [] pen.marks) := by
    rw [hevents]
    exact Mark.read?_flatMap_text hmarks
  refine ⟨before, _, _, _, _, _, hbefore, hsentence, horigin.symm, hprefix, hread, hbalanced, ?_⟩
  rw [hsize, Mark.elements_joined fun t u => Text.size_append t u]
  exact Flat.elements_sentence htokens hspan hcopies.isBoundary hcopies.le_bound

/-- So it is with two entities that cross in the second of two sentences. -/
theorem Renderer.elements_sentence_charSpan_crossing :
    let block : Text := "a\n\nb\nc\n<\n".toList
    let earlier : List Finding := [([.ofForm ['a'] 0 0], [⟨0, 1, "X"⟩])]
    let tokens : Sentence := [.ofForm ['b'] 3 0, .ofForm ['c'] 5 1, .ofForm ['<'] 7 2]
    let entities : List Entity := [⟨1, 2, "B"⟩, ⟨0, 2, "A"⟩]
    ∃ before r₁ events r₂ marks origin,
      sentences ⟨.charSpan, .warn, block, {}, 0, 0⟩ earlier = .ok (before, r₁) ∧
      r₁.sentence tokens entities = .ok (events, r₂) ∧
      origin = (Event.written before).stripTags.unescape ∧
      origin ++ (Event.written events).stripTags.unescape <+: block ∧
      Mark.read? (Event.written events) = some marks ∧
      Mark.isBalanced marks = true ∧
      (Mark.elements bytesIn origin.size marks).length = 2 := by
  intro block earlier tokens entities
  have hsentences : Listed.sentences block = [[.ofForm ['a'] 0 0], tokens] := by decide +kernel
  have hin : block.InOrder 0 (((earlier.map Prod.fst).flatten ++ tokens).map Token.range) := by
    have hall := Listed.inOrder_sentences block
    rwa [hsentences] at hall
  have hspans : ∀ f ∈ earlier ++ [(tokens, entities)], checkSpans f.2 f.1.length = .ok () := by
    decide
  have hlabels : ∀ f ∈ earlier ++ [(tokens, entities)], ∀ e ∈ f.2, IsPlain e.label := by
    simp only [IsPlain]
    decide
  obtain ⟨before, r₁, events, r₂, marks, origin, hbefore, hsentence, horigin, hprefix, hread,
    hbalanced, hlength, -⟩ := elements_sentence_charSpan {} hin hspans hlabels
  exact ⟨before, r₁, events, r₂, marks, origin, hbefore, hsentence, horigin, hprefix, hread,
    hbalanced, hlength⟩

end EntityMarkup
