import EntityMarkup.Proofs.Render.FlatElements
import EntityMarkup.Proofs.Render.NestedElements

/-!
# The two kinds of inline markup agree

Markup nested by tokens closes an entity as soon as it has ended; markup by stretches of text closes
it when the next one is opened, or at the end of the sentence. Where no two entities cross this
makes no difference to what is written, for nothing is written in between. `Flat.toLimit` is what
the second kind has still to write, with the rest of the block up to some offset. As long as it does
not pass anything that begins or ends, its cursor can be moved (`toLimit_advance`), and then its
stack can be brought to what the first kind has on its stack.

* `toLimit_close`, `toLimit_open`: what is written next.
* `toLimit_token`: what is written for a token.
* **`text_shared_walk`**: the tags of entities and the text are written by both in the same order.
-/

namespace EntityMarkup

open Mark (isShared stretch)

namespace Flat

/-! ## What is still to be written -/

/-- What is written of a sentence from a state on, and then the block up to an offset. -/
def toLimit (block : Text) (tokens : Sentence) (limit : Nat) (stack : List Nat) (cursor : Nat)
    (es : List Entity) : Text :=
  (follow block tokens stack cursor es).marks.flatMap Mark.text
    ++ (block.slice (follow block tokens stack cursor es).cursor limit).escape

variable {block : Text} {tokens : Sentence} {limit cursor : Nat} {stack : List Nat}
  {e : Entity} {es : List Entity}

theorem toLimit_nil : toLimit block tokens limit [] cursor [] = (block.slice cursor limit).escape :=
  rfl

/-- What ends before the next entity begins is closed next. -/
theorem toLimit_close {o : Nat} (h : ∀ e ∈ es.head?, o ≤ startOffset tokens e) :
    toLimit block tokens limit (o :: stack) cursor es
      = (block.slice cursor o).escape
        ++ (Mark.text .endEntity ++ toLimit block tokens limit stack (max cursor o) es) := by
  cases es with
  | nil =>
    simp only [toLimit, follow, closeAll, List.flatMap_append, List.flatMap_cons,
      Mark.flatMap_text_stretch, List.append_assoc]
  | cons e es =>
    have hending : endingBy (startOffset tokens e) (o :: stack)
        = o :: endingBy (startOffset tokens e) stack :=
      List.takeWhile_cons_of_pos (decide_eq_true (h e rfl))
    simp only [toLimit, follow, stackAfter, hending, closeAll, List.length_cons,
      List.drop_succ_cons, List.flatMap_append, List.flatMap_cons, Mark.flatMap_text_stretch,
      List.append_assoc]

/-- An entity is opened next if everything that is open ends behind its start. -/
theorem toLimit_open (h : ∀ o ∈ stack.head?, startOffset tokens e < o) :
    toLimit block tokens limit stack cursor (e :: es)
      = (block.slice cursor (startOffset tokens e)).escape
        ++ (Mark.text (.beginEntity e.label)
        ++ toLimit block tokens limit (stopOffset tokens e :: stack)
          (max cursor (startOffset tokens e)) es) := by
  have hending : endingBy (startOffset tokens e) stack = [] := by
    cases stack with
    | nil => rfl
    | cons o stack =>
      exact List.takeWhile_cons_of_neg (by simpa using h o rfl)
  simp only [toLimit, follow, stackAfter, hending, closeAll, List.length_nil, List.drop_zero,
    List.nil_append, List.flatMap_append, List.flatMap_cons, Mark.flatMap_text_stretch,
    List.append_assoc]

/-- The cursor can be moved up to where something is written next. -/
theorem toLimit_advance {offset : Nat} (h : Cut block tokens stack cursor es)
    (hlimit : block.IsBoundary limit) (hoffset : block.IsBoundary offset) (hle : cursor ≤ offset)
    (hend : offset ≤ limit) (hstack : ∀ o ∈ stack, offset ≤ o)
    (hes : ∀ e ∈ es, offset ≤ startOffset tokens e) :
    toLimit block tokens limit stack cursor es
      = (block.slice cursor offset).escape ++ toLimit block tokens limit stack offset es := by
  have hslice : ∀ next, offset ≤ next → block.IsBoundary next →
      (block.slice cursor next).escape
        = (block.slice cursor offset).escape ++ (block.slice offset next).escape := by
    intro next hnext hboundary
    rw [← Text.escape_append,
      Text.slice_append_slice h.cursor hoffset hboundary hle hnext]
  have hclose : ∀ o ∈ stack, (∀ e ∈ es.head?, o ≤ startOffset tokens e) →
      ∀ rest, stack = o :: rest → toLimit block tokens limit stack cursor es
        = (block.slice cursor offset).escape ++ toLimit block tokens limit stack offset es := by
    rintro o ho hhead rest rfl
    have hbehind := hstack o ho
    rw [toLimit_close hhead, toLimit_close hhead, hslice o hbehind (h.stack o ho),
      Nat.max_eq_right hbehind, Nat.max_eq_right (hle.trans hbehind), List.append_assoc]
  cases es with
  | nil =>
    cases stack with
    | nil => rw [toLimit_nil, toLimit_nil, hslice limit hend hlimit]
    | cons o rest => exact hclose o List.mem_cons_self (by simp) rest rfl
  | cons e es =>
    have hbehind := hes e List.mem_cons_self
    by_cases hopen : ∀ o ∈ stack.head?, startOffset tokens e < o
    · rw [toLimit_open hopen, toLimit_open hopen,
        hslice _ hbehind (h.starts e List.mem_cons_self), Nat.max_eq_right hbehind,
        Nat.max_eq_right (hle.trans hbehind), List.append_assoc]
    · cases stack with
      | nil => exact absurd (by simp) hopen
      | cons o rest =>
        have hhead : o ≤ startOffset tokens e := by simpa using hopen
        exact hclose o List.mem_cons_self (by simpa using hhead) rest rfl

/-- Entities that end at the cursor are closed, one after the other. -/
theorem toLimit_close_all {ending : List Nat} (hending : ∀ o ∈ ending, o = cursor)
    (hes : ∀ e ∈ es, cursor ≤ startOffset tokens e) :
    toLimit block tokens limit (ending ++ stack) cursor es
      = (List.replicate ending.length Mark.endEntity).flatMap Mark.text
        ++ toLimit block tokens limit stack cursor es := by
  induction ending with
  | nil => rfl
  | cons o ending ih =>
    obtain ⟨rfl, hrest⟩ := List.forall_mem_cons.mp hending
    have hhead : ∀ e ∈ es.head?, o ≤ startOffset tokens e :=
      fun e he => hes e (List.mem_of_mem_head? he)
    rw [List.cons_append, toLimit_close hhead, Text.slice_self, Nat.max_self, ih hrest,
      List.length_cons, List.replicate_succ, List.flatMap_cons, List.append_assoc]
    rfl

/-- Entities that begin at the cursor are opened, one after the other. -/
theorem toLimit_open_all {starting : List Entity}
    (hstarting : ∀ e ∈ starting, startOffset tokens e = cursor ∧ cursor < stopOffset tokens e)
    (hstack : ∀ o ∈ stack, cursor < o) :
    toLimit block tokens limit stack cursor (starting ++ es)
      = (starting.map fun e => Mark.beginEntity e.label).flatMap Mark.text
        ++ toLimit block tokens limit ((starting.reverse.map (stopOffset tokens)) ++ stack) cursor
          es := by
  induction starting generalizing stack with
  | nil => rfl
  | cons e starting ih =>
    obtain ⟨⟨hstart, hstop⟩, hrest⟩ := List.forall_mem_cons.mp hstarting
    have hhead : ∀ o ∈ stack.head?, startOffset tokens e < o :=
      fun o ho => hstart ▸ hstack o (List.mem_of_mem_head? ho)
    have hstack' : ∀ o ∈ stopOffset tokens e :: stack, cursor < o :=
      List.forall_mem_cons.mpr ⟨hstop, hstack⟩
    rw [List.cons_append, toLimit_open hhead, hstart, Text.slice_self, Nat.max_self,
      ih hrest hstack', List.map_cons, List.flatMap_cons, List.reverse_cons, List.map_append,
      List.append_assoc, List.append_assoc]
    rfl

end Flat

/-! ## A token -/

namespace Nested

variable {block : Text} {tokens : Sentence} {n i cursor limit : Nat} {opened pending : List Entity}
  {token : Token}

/-- What of a token both kinds of markup write. -/
theorem text_shared_around (starting ending : List Entity) (isLast : Bool) :
    ((around block i cursor starting ending token isLast).filter isShared).flatMap Mark.text
      = (block.slice cursor token.start).escape
        ++ ((starting.map fun e => Mark.beginEntity e.label).flatMap Mark.text
        ++ ((block.slice token.start token.stop).escape
        ++ (List.replicate ending.length Mark.endEntity).flatMap Mark.text)) := by
  have hstretch : (stretch block cursor token.start).filter isShared
      = stretch block cursor token.start := by
    rw [stretch]
    split <;> rfl
  have hopen : (if i = 0 then [Mark.beginSentence] else []).filter isShared = [] := by
    split <;> rfl
  have hclose : (if isLast then [Mark.endSentence] else []).filter isShared = [] := by
    split <;> rfl
  have hbegin : (starting.map fun e => Mark.beginEntity e.label).filter isShared
      = starting.map fun e => Mark.beginEntity e.label :=
    List.filter_eq_self.mpr fun m hm => by
      obtain ⟨e, -, rfl⟩ := List.mem_map.mp hm
      rfl
  have hend : (List.replicate ending.length Mark.endEntity).filter isShared
      = List.replicate ending.length Mark.endEntity :=
    List.filter_replicate_of_pos rfl
  have htoken : [Mark.beginToken, .literal (block.slice token.start token.stop), .endToken].filter
      isShared = [.literal (block.slice token.start token.stop)] := rfl
  simp only [around, List.map_const', List.filter_append, List.flatMap_append, hstretch, hopen,
    hclose, hbegin, hend, htoken, Mark.flatMap_text_stretch, List.flatMap_singleton,
    Mark.text_literal, List.nil_append, List.append_nil, List.append_assoc]

/-- **What is written for a token**, and then what is still to be written behind it. -/
theorem toLimit_token (hin : block.InOrder n (tokens.map Token.range))
    (hi : tokens[i]? = some token) (h : Ready i tokens.length opened pending)
    (hcursor : block.IsBoundary cursor) (hle : cursor ≤ token.start)
    (hlimit : block.IsBoundary limit) (hend : token.stop ≤ limit) (isLast : Bool) :
    let stack := openAt i opened pending
    Flat.toLimit block tokens limit (opened.map (Flat.stopOffset tokens)) cursor pending
      = ((around block i cursor (startingAt i pending) (endingAt i stack) token isLast).filter
          isShared).flatMap Mark.text
        ++ Flat.toLimit block tokens limit
          ((stack.drop (endingAt i stack).length).map (Flat.stopOffset tokens)) token.stop
          (pending.drop (startingAt i pending).length) := by
  intro stack
  obtain ⟨hcovers, -⟩ := h.openAt
  have hspans := h.isSpanOf_openAt
  obtain ⟨hlt, hstart, hstop⟩ := Flat.range_of_getElem? hin hi
  -- how the entities lie to the token
  have hopenStops : ∀ e ∈ stack, token.stop ≤ Flat.stopOffset tokens e := fun e he =>
    Flat.stop_le_stopOffset hin hi (hspans e (List.mem_append_left _ he)) (hcovers e he).2
  have hlaterStarts : ∀ e ∈ pending.drop (startingAt i pending).length,
      token.stop ≤ Flat.startOffset tokens e := fun e he =>
    Flat.stop_le_startOffset hin hi (hspans e (List.mem_append_right _ he)) (h.lt_start e he)
  have hbegin : ∀ e ∈ startingAt i pending, Flat.startOffset tokens e = token.start ∧
      token.start < Flat.stopOffset tokens e := by
    intro e he
    have hstack : e ∈ stack := List.mem_append_left _ (List.mem_reverse.mpr he)
    exact ⟨Flat.startOffset_of_start_eq hi (start_of_mem_startingAt he),
      Nat.lt_of_lt_of_le hlt (hopenStops e hstack)⟩
  have hfinish : ∀ o ∈ (endingAt i stack).map (Flat.stopOffset tokens), o = token.stop := by
    intro o ho
    obtain ⟨e, he, rfl⟩ := List.mem_map.mp ho
    exact Flat.stopOffset_of_last_eq hi (last_of_mem_endingAt he)
  have hopened : ∀ o ∈ opened.map (Flat.stopOffset tokens), token.start < o := by
    intro o ho
    obtain ⟨e, he, rfl⟩ := List.mem_map.mp ho
    exact Nat.lt_of_lt_of_le hlt (hopenStops e (List.mem_append_right _ he))
  have hpending : ∀ e ∈ pending, token.start ≤ Flat.startOffset tokens e := fun e he =>
    Flat.start_le_startOffset hin hi (h.spans e (List.mem_append_right _ he)) (h.comes e he)
  have hstack : (startingAt i pending).reverse.map (Flat.stopOffset tokens)
      ++ opened.map (Flat.stopOffset tokens) = stack.map (Flat.stopOffset tokens) :=
    List.map_append.symm
  have hleft : stack.map (Flat.stopOffset tokens)
      = (endingAt i stack).map (Flat.stopOffset tokens)
        ++ (stack.drop (endingAt i stack).length).map (Flat.stopOffset tokens) := by
    rw [← List.map_append, endingAt_append_drop]
  calc Flat.toLimit block tokens limit (opened.map (Flat.stopOffset tokens)) cursor pending
      -- the text before the token
      = (block.slice cursor token.start).escape ++ Flat.toLimit block tokens limit
          (opened.map (Flat.stopOffset tokens)) token.start pending :=
        Flat.toLimit_advance (Flat.cut_of_isSpanOf hin hcursor h.spans) hlimit hstart hle
          (hlt.le.trans hend) (fun o ho => (hopened o ho).le) hpending
      -- the entities that begin with it
    _ = (block.slice cursor token.start).escape
          ++ (((startingAt i pending).map fun e => Mark.beginEntity e.label).flatMap Mark.text
          ++ Flat.toLimit block tokens limit (stack.map (Flat.stopOffset tokens)) token.start
            (pending.drop (startingAt i pending).length)) := by
        rw [← hstack, ← Flat.toLimit_open_all hbegin hopened, startingAt_append_drop]
      -- its text
    _ = (block.slice cursor token.start).escape
          ++ (((startingAt i pending).map fun e => Mark.beginEntity e.label).flatMap Mark.text
          ++ ((block.slice token.start token.stop).escape
          ++ Flat.toLimit block tokens limit (stack.map (Flat.stopOffset tokens)) token.stop
            (pending.drop (startingAt i pending).length))) := by
        rw [Flat.toLimit_advance (Flat.cut_of_isSpanOf hin hstart hspans) hlimit
          hstop hlt.le hend (by simpa using hopenStops) hlaterStarts]
      -- the entities that end with it
    _ = _ := by
        rw [hleft, Flat.toLimit_close_all hfinish hlaterStarts, List.length_map,
          text_shared_around]
        simp only [List.append_assoc]

/-- **The tags of entities and the text are written by both kinds of markup in the same order.** -/
theorem text_shared_walk (hin : block.InOrder n (tokens.map Token.range))
    {rest : Sentence} (hrest : tokens.drop i = rest) (hn : i + rest.length = tokens.length)
    (h : Ready i tokens.length opened pending) (hcursor : block.IsBoundary cursor)
    (horder : block.InOrder cursor (rest.map Token.range)) (hlimit : block.IsBoundary limit)
    (hend : Text.reach cursor (rest.map Token.range) ≤ limit) :
    ((walk block i cursor opened pending rest).marks.filter isShared).flatMap Mark.text
        ++ (block.slice (Text.reach cursor (rest.map Token.range)) limit).escape
      = Flat.toLimit block tokens limit (opened.map (Flat.stopOffset tokens)) cursor pending := by
  induction rest generalizing i cursor opened pending with
  | nil =>
    obtain rfl : i = tokens.length := hn
    obtain ⟨rfl, rfl⟩ := h.eq_nil
    rfl
  | cons token rest ih =>
    obtain ⟨hle, -, -, hboundary, htokens⟩ := horder
    have hstop : block.IsBoundary token.stop := hboundary
    have horder : block.InOrder token.stop (rest.map Token.range) := htokens
    have hi : tokens[i]? = some token := by
      have hhead := congrArg (·[0]?) hrest
      simpa [List.getElem?_drop] using hhead
    have hdrop : tokens.drop (i + 1) = rest := by
      rw [← List.drop_drop, hrest]
      rfl
    have hlength : i + 1 + rest.length = tokens.length := by
      rw [List.length_cons] at hn
      omega
    have htail := ih hdrop hlength h.step hstop horder hend
    rw [walk_cons, toLimit_token hin hi h hcursor hle hlimit (horder.le_reach.trans hend)
      rest.isEmpty, ← htail]
    simp only [List.filter_append, List.flatMap_append, List.append_assoc]
    rfl

/-- What both kinds of markup write of a sentence is the same, when what the second kind has not
copied yet is put in front and behind. -/
theorem text_shared_sentence (hin : block.InOrder n (tokens.map Token.range))
    {entities : List Entity} (hspan : ∀ e ∈ entities, e.isSpanOf tokens.length = true)
    (hcross : Entity.firstCrossing? (Entity.sort entities) = none) {copied : Nat}
    (hcopied : block.IsBoundary copied) (hcursor : block.IsBoundary cursor) (hle : copied ≤ cursor)
    (hn : cursor ≤ n) :
    let nested := sentence block cursor tokens (Entity.sort entities)
    let flat := Flat.sentence block copied tokens (Entity.sort entities)
    (block.slice copied cursor).escape ++ (nested.marks.filter isShared).flatMap Mark.text
      = flat.marks.flatMap Mark.text ++ (block.slice flat.cursor nested.cursor).escape := by
  intro nested flat
  have hreach : nested.cursor = Text.reach cursor (tokens.map Token.range) := cursor_walk
  have horder : block.InOrder cursor (tokens.map Token.range) := hin.mono hn
  have hlimit : block.IsBoundary nested.cursor := by
    rw [hreach]
    exact horder.isBoundary_reach hcursor
  have hsorted : ∀ e ∈ Entity.sort entities, e.isSpanOf tokens.length = true :=
    fun e he => hspan e (Entity.mem_sort.mp he)
  have hwalk := text_shared_walk hin List.drop_zero (Nat.zero_add _)
    (ready_sort hspan hcross) hcursor horder hlimit (Nat.le_of_eq hreach.symm)
  have hadvance := Flat.toLimit_advance (Flat.cut_sort hin hspan hcopied) hlimit hcursor hle
    (hreach ▸ horder.le_reach) (by simp)
    fun e he => hn.trans (Flat.le_startOffset hin (hsorted e he))
  rw [← hreach, Text.slice_self, Text.escape_nil, List.append_nil, List.map_nil] at hwalk
  calc (block.slice copied cursor).escape ++ (nested.marks.filter isShared).flatMap Mark.text
      = (block.slice copied cursor).escape
          ++ Flat.toLimit block tokens nested.cursor [] cursor (Entity.sort entities) := by
        rw [← hwalk]
        rfl
    _ = Flat.toLimit block tokens nested.cursor [] copied (Entity.sort entities) := hadvance.symm
    _ = flat.marks.flatMap Mark.text ++ (block.slice flat.cursor nested.cursor).escape := by
        rw [Flat.toLimit, ← Flat.sentence_eq_follow]

end Nested

end EntityMarkup
