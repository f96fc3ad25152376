import EntityMarkup.Proofs.Entity.Nesting
import EntityMarkup.Proofs.Render.Brackets
import EntityMarkup.Proofs.Render.Sentences
import EntityMarkup.Proofs.Render.Steps

/-!
# The elements of markup nested by tokens

Where no two entities cross, the elements of the markup are the entities. What makes it so is how
the stack looks before each token (`Ready`): the entities that are open cover the token, those still
to come begin no earlier, and all of them, in the order of rendering, are nested. The entities on
the stack then end in the order in which they lie on it, so that closing those on top that end with
a token closes all that do, and the end of the sentence finds the stack empty.

* `Ready.step`: the stack is as it has to be before the next token.
* `stopOf_walk`: an entity that is open ends behind its last token.
* `elements_walk`, `isBalancedFrom_walk`: the entities still to come are elements, and everything
  that is open is closed.
* **`elements_sentence`**: the elements of a sentence are its entities in the order of rendering.
-/

namespace EntityMarkup

open Mark (IsPlain stopOf elementsOf brackets isBalancedFrom tokensIn stretch)

/-- The entity that an element stands for, if its positions are those of tokens; an element that
does not end stands for none. -/
def Mark.Element.entity? (x : Mark.Element) : Option Entity :=
  x.stop.map fun stop => ⟨x.start, stop - x.start, x.label⟩

namespace Nested

/-! ## The stack -/

/-- Before the token with index `i`, of `n` tokens, the entities that are open cover it, those still
to come begin no earlier, and in the order of rendering they are all nested. -/
structure Ready (i n : Nat) (opened pending : List Entity) : Prop where
  nests : (opened.reverse ++ pending).Pairwise Entity.Nests
  covers : ∀ e ∈ opened, e.start ≤ i ∧ i ≤ e.last
  comes : ∀ e ∈ pending, i ≤ e.start
  spans : ∀ e ∈ opened ++ pending, e.isSpanOf n = true

variable {block : Text} {i n cursor : Nat} {opened pending : List Entity} {token : Token}
  {tokens rest : Sentence}

theorem start_of_mem_startingAt {e : Entity} (h : e ∈ startingAt i pending) : e.start = i :=
  eq_of_beq (List.all_eq_true.mp List.all_takeWhile e h)

theorem last_of_mem_endingAt {e : Entity} (h : e ∈ endingAt i opened) : e.last = i :=
  eq_of_beq (List.all_eq_true.mp List.all_takeWhile e h)

theorem lt_of_beq_eq_false {k : Nat} (hle : i ≤ k) (hne : (k == i) = false) : i < k :=
  Nat.lt_of_le_of_ne hle fun h => beq_eq_false_iff_ne.mp hne h.symm

/-- The entities that are open at a token cover it, and they end in the order in which they lie on
the stack. -/
theorem Ready.openAt (h : Ready i n opened pending) :
    (∀ e ∈ openAt i opened pending, e.start ≤ i ∧ i ≤ e.last) ∧
      (Nested.openAt i opened pending).Pairwise fun a b => a.last ≤ b.last := by
  have hcovers : ∀ e ∈ Nested.openAt i opened pending, e.start ≤ i ∧ i ≤ e.last := by
    intro e he
    rcases List.mem_append.mp he with he | he
    · have he := List.mem_reverse.mp he
      have hspan := h.spans e (List.mem_append_right _ ((List.takeWhile_sublist _).subset he))
      have hstart := start_of_mem_startingAt he
      have hlast := (Entity.start_le_last_of_isSpanOf hspan).1
      omega
    · exact h.covers e he
  refine ⟨hcovers, ?_⟩
  have hnests : (Nested.openAt i opened pending).reverse.Pairwise Entity.Nests := by
    rw [Nested.openAt, List.reverse_append, List.reverse_reverse]
    exact h.nests.sublist (List.Sublist.append_left (List.takeWhile_sublist _) _)
  refine (List.pairwise_reverse.mp hnests).imp_of_mem fun {a b} ha hb hba => ?_
  -- both cover the token, so neither lies behind the other
  have := hcovers a ha
  have := hcovers b hb
  rcases hba.2 with hlt | hle
  · omega
  · exact hle

/-- Opening the entities that begin with a token changes nothing in their order. -/
theorem openAt_append_drop (i : Nat) (opened pending : List Entity) :
    (openAt i opened pending).reverse ++ pending.drop (startingAt i pending).length
      = opened.reverse ++ pending := by
  rw [openAt, List.reverse_append, List.reverse_reverse, List.append_assoc, startingAt_append_drop]

theorem Ready.isSpanOf_openAt (h : Ready i n opened pending) :
    ∀ e ∈ Nested.openAt i opened pending ++ pending.drop (startingAt i pending).length,
      e.isSpanOf n = true := by
  intro e he
  have hmem : e ∈ (Nested.openAt i opened pending).reverse
      ++ pending.drop (startingAt i pending).length := by
    simpa using he
  rw [openAt_append_drop] at hmem
  exact h.spans e (by simpa using hmem)

theorem Ready.lt_start (h : Ready i n opened pending) :
    ∀ e ∈ pending.drop (startingAt i pending).length, i < e.start := fun _ he =>
  lt_of_mem_drop_takeWhile ((List.pairwise_append.mp h.nests).2.1.imp And.left)
    (fun e he => lt_of_beq_eq_false (h.comes e he)) he

/-- **The stack is as it has to be before the next token.** -/
theorem Ready.step (h : Ready i n opened pending) :
    Ready (i + 1) n
      ((Nested.openAt i opened pending).drop (endingAt i (Nested.openAt i opened pending)).length)
      (pending.drop (startingAt i pending).length) := by
  obtain ⟨hcovers, hsorted⟩ := h.openAt
  refine ⟨?_, ?_, h.lt_start, ?_⟩
  · have hnests := h.nests
    rw [← openAt_append_drop i] at hnests
    exact hnests.sublist ((List.reverse_sublist.mpr (List.drop_sublist _ _)).append_right _)
  · intro e he
    have hcover := hcovers e (List.mem_of_mem_drop he)
    have hlast := lt_of_mem_drop_takeWhile hsorted
      (fun e he => lt_of_beq_eq_false (hcovers e he).2) he
    exact ⟨Nat.le_succ_of_le hcover.1, hlast⟩
  · intro e he
    refine h.isSpanOf_openAt e ?_
    rcases List.mem_append.mp he with he | he
    · exact List.mem_append_left _ (List.mem_of_mem_drop he)
    · exact List.mem_append_right _ he

theorem Ready.eq_nil (h : Ready n n opened pending) : opened = [] ∧ pending = [] := by
  constructor
  · refine List.eq_nil_iff_forall_not_mem.mpr fun e he => ?_
    have := h.covers e he
    have := Entity.start_le_last_of_isSpanOf (h.spans e (List.mem_append_left _ he))
    omega
  · refine List.eq_nil_iff_forall_not_mem.mpr fun e he => ?_
    have := h.comes e he
    have := Entity.start_le_last_of_isSpanOf (h.spans e (List.mem_append_right _ he))
    omega

theorem opened_walk (h : Ready i n opened pending) (hn : i + tokens.length = n) :
    (walk block i cursor opened pending tokens).opened = [] := by
  induction tokens generalizing i cursor opened pending with
  | nil =>
    obtain rfl : i = n := hn
    exact h.eq_nil.1
  | cons token rest ih =>
    rw [walk_cons]
    exact ih h.step (by rw [List.length_cons] at hn; omega)

/-! ## Elements -/

/-- What is written for a token begins entities before it and ends entities behind it. -/
theorem brackets_around_append (i position : Nat) (starting ending : List Entity) (isLast : Bool)
    (marks : List Mark) :
    brackets tokensIn position (around block i cursor starting ending token isLast ++ marks)
      = (starting.map Entity.label).map (fun label => .opening label position)
        ++ ((List.replicate ending.length (position + 1)).map .closing
        ++ brackets tokensIn (position + 1) marks) := by
  have hstretch : ∀ xs, brackets tokensIn position (stretch block cursor token.start ++ xs)
      = brackets tokensIn position xs := by
    intro xs
    rw [stretch]
    split <;> rfl
  have hopen : ∀ xs, brackets tokensIn position ((if i = 0 then [.beginSentence] else []) ++ xs)
      = brackets tokensIn position xs := by
    intro xs
    split <;> rfl
  have hclose : ∀ xs, brackets tokensIn (position + 1)
      ((if isLast then [.endSentence] else []) ++ xs) = brackets tokensIn (position + 1) xs := by
    intro xs
    split <;> rfl
  have htoken : ∀ text xs, brackets tokensIn position
      ([.beginToken, .literal text, .endToken] ++ xs) = brackets tokensIn (position + 1) xs :=
    fun _ _ => rfl
  have hmap : starting.map (fun e => Mark.beginEntity e.label)
      = (starting.map Entity.label).map .beginEntity := by
    simp
  simp only [around, hmap, List.map_const', List.append_assoc, hstretch, hopen, htoken, hclose,
    Mark.brackets_openings_append, Mark.brackets_closings_append]

/-- Closing those that end with a token ends them behind it, and leaves the others to be ended. -/
theorem stopOf_endingAt_append {stack : List Entity} {rest : List Mark.Bracket}
    (hrest : ∀ depth, stopOf depth rest
      = (stack.drop (endingAt i stack).length)[depth]?.map fun e => e.last + 1) (depth : Nat) :
    stopOf depth ((List.replicate (endingAt i stack).length (i + 1)).map .closing ++ rest)
      = stack[depth]?.map fun e => e.last + 1 := by
  rw [Mark.stopOf_closings_append, List.length_replicate, hrest]
  split
  · rename_i hlt
    have hget : stack[depth]? = some (endingAt i stack)[depth] := by
      conv => lhs; rw [← endingAt_append_drop i stack]
      rw [List.getElem?_append_left hlt, List.getElem?_eq_getElem hlt]
    rw [hget, Option.map_some, last_of_mem_endingAt (List.getElem_mem hlt), List.getElem?_replicate,
      if_pos hlt]
  · rename_i hle
    rw [List.getElem?_drop]
    congr 2
    omega

/-- An entity that is open ends behind its last token. -/
theorem stopOf_walk (block : Text) (cursor : Nat) (h : Ready i n opened pending)
    (hn : i + tokens.length = n) (depth : Nat) :
    stopOf depth (brackets tokensIn i (walk block i cursor opened pending tokens).marks)
      = opened[depth]?.map fun e => e.last + 1 := by
  induction tokens generalizing i cursor opened pending depth with
  | nil =>
    obtain rfl : i = n := hn
    rw [h.eq_nil.1]
    rfl
  | cons token rest ih =>
    have hrest := ih token.stop h.step (by rw [List.length_cons] at hn; omega)
    rw [walk_cons, brackets_around_append, Mark.stopOf_openings_append,
      stopOf_endingAt_append hrest, List.length_map, openAt,
      List.getElem?_append_right (by simp)]
    simp

/-- What begins before a token becomes elements, if it ends where it is to end. -/
theorem map_entity?_openings_append {starting opened : List Entity} {rest : List Mark.Bracket}
    (hstart : ∀ e ∈ starting, e.start = i ∧ e.isSpanOf n = true)
    (hstop : ∀ depth, stopOf depth rest
      = (starting.reverse ++ opened)[depth]?.map fun e => e.last + 1) :
    (elementsOf ((starting.map Entity.label).map (fun label => .opening label i) ++ rest)).map
        Mark.Element.entity?
      = starting.map some ++ (elementsOf rest).map Mark.Element.entity? := by
  induction starting generalizing opened with
  | nil => rfl
  | cons e more ih =>
    obtain ⟨⟨he, hspan⟩, hmore⟩ := List.forall_mem_cons.mp hstart
    have hreverse : (e :: more).reverse ++ opened = more.reverse ++ e :: opened := by simp
    rw [hreverse] at hstop
    -- of those that begin together `e` is the outermost, so it ends when the others have ended
    have hend : stopOf 0 ((more.map Entity.label).map (fun label => .opening label i) ++ rest)
        = some (e.last + 1) := by
      rw [Mark.stopOf_openings_append, hstop]
      simp
    have hentity : (⟨i, e.last + 1 - i, e.label⟩ : Entity) = e := by
      have hlast := Entity.start_le_last_of_isSpanOf hspan
      have hstop := hlast.2.2
      rw [Entity.stop] at hstop
      have hlength : e.last + 1 - i = e.length := by omega
      rw [hlength, ← he]
    simp only [List.map_cons, List.cons_append, elementsOf, Mark.Element.entity?, hend,
      Option.map_some, hentity, ih hmore hstop]

/-- **The entities still to come are elements**, in their order. -/
theorem elements_walk (h : Ready i n opened pending) (hn : i + tokens.length = n) :
    (elementsOf (brackets tokensIn i (walk block i cursor opened pending tokens).marks)).map
        Mark.Element.entity? = pending.map some := by
  induction tokens generalizing i cursor opened pending with
  | nil =>
    obtain rfl : i = n := hn
    rw [h.eq_nil.2]
    rfl
  | cons token rest ih =>
    have hlength : i + 1 + rest.length = n := by
      rw [List.length_cons] at hn
      omega
    have hstop := stopOf_endingAt_append (stopOf_walk block token.stop h.step hlength)
    have hstarting : ∀ e ∈ startingAt i pending, e.start = i ∧ e.isSpanOf n = true := fun e he =>
      ⟨start_of_mem_startingAt he,
        h.spans e (List.mem_append_right _ ((List.takeWhile_sublist _).subset he))⟩
    rw [walk_cons, brackets_around_append, map_entity?_openings_append hstarting hstop,
      Mark.elementsOf_closings_append, ih h.step hlength, ← List.map_append, startingAt_append_drop]

/-! ## Balance -/

/-- The tags that are open in a sentence, the innermost first. -/
def frames (opened : List Entity) : List Mark :=
  opened.map (fun e => .beginEntity e.label) ++ [.beginSentence]

theorem isBalancedFrom_around_append (hfirst : i = 0 → opened = []) (isLast : Bool)
    (marks : List Mark) :
    isBalancedFrom (if i = 0 then [] else frames opened)
        (around block i cursor (startingAt i pending) (endingAt i (openAt i opened pending)) token
          isLast ++ marks)
      = isBalancedFrom (frames ((openAt i opened pending).drop
          (endingAt i (openAt i opened pending)).length))
        ((if isLast then [.endSentence] else []) ++ marks) := by
  have hopen : ∀ xs, isBalancedFrom (if i = 0 then [] else frames opened)
      ((if i = 0 then [.beginSentence] else []) ++ xs) = isBalancedFrom (frames opened) xs := by
    intro xs
    split
    · rename_i hi
      rw [hfirst hi]
      rfl
    · rfl
  have hbegin : ∀ m ∈ (startingAt i pending).map fun e => Mark.beginEntity e.label,
      m.isBegin = true := by
    intro m hm
    obtain ⟨e, -, rfl⟩ := List.mem_map.mp hm
    rfl
  have hstack : ((startingAt i pending).map fun e => Mark.beginEntity e.label).reverse
      ++ frames opened = frames (openAt i opened pending) := by
    simp [frames, openAt]
  have htoken : ∀ text xs, isBalancedFrom (frames (openAt i opened pending))
      ([.beginToken, .literal text, .endToken] ++ xs)
        = isBalancedFrom (frames (openAt i opened pending)) xs :=
    fun _ _ => rfl
  have hend : ∀ m ∈ (endingAt i (openAt i opened pending)).map fun e => Mark.beginEntity e.label,
      Mark.endEntity.isEndOf m = true := by
    intro m hm
    obtain ⟨e, -, rfl⟩ := List.mem_map.mp hm
    rfl
  have hclose : ∀ xs, isBalancedFrom (frames (openAt i opened pending))
      (List.replicate (endingAt i (openAt i opened pending)).length .endEntity ++ xs)
        = isBalancedFrom (frames ((openAt i opened pending).drop
          (endingAt i (openAt i opened pending)).length)) xs := by
    intro xs
    have hends := Mark.isBalancedFrom_ends_append _ hend (frames ((openAt i opened pending).drop
      (endingAt i (openAt i opened pending)).length)) xs
    rw [List.length_map, frames, ← List.append_assoc, ← List.map_append, endingAt_append_drop]
      at hends
    exact hends
  simp only [around, List.append_assoc, Mark.isBalancedFrom_stretch_append, hopen,
    Mark.isBalancedFrom_begins_append hbegin, hstack, htoken, List.map_const', hclose]

/-- **Everything that is open is closed**, the sentence last. -/
theorem isBalancedFrom_walk (block : Text) (cursor : Nat) (h : Ready i n opened pending)
    (hn : i + tokens.length = n) (hfirst : i = 0 → opened = []) (hne : tokens ≠ []) :
    isBalancedFrom (if i = 0 then [] else frames opened)
      (walk block i cursor opened pending tokens).marks = true := by
  induction tokens generalizing i cursor opened pending with
  | nil => exact absurd rfl hne
  | cons token rest ih =>
    have hlength : i + 1 + rest.length = n := by
      rw [List.length_cons] at hn
      omega
    rw [walk_cons, isBalancedFrom_around_append hfirst]
    cases rest with
    | nil =>
      obtain rfl : i + 1 = n := hlength
      rw [h.step.eq_nil.1]
      rfl
    | cons next rest =>
      have hnext := ih token.stop h.step hlength (fun hi => absurd hi (by omega))
        (List.cons_ne_nil next rest)
      rwa [if_neg (by omega)] at hnext

/-! ## A sentence -/

/-- Before the first token, entities of which no two cross are as they have to be. -/
theorem ready_sort {entities : List Entity} (hspan : ∀ e ∈ entities, e.isSpanOf n = true)
    (hcross : Entity.firstCrossing? (Entity.sort entities) = none) :
    Ready 0 n [] (Entity.sort entities) where
  nests := Entity.pairwise_nests hspan hcross
  covers _ he := absurd he List.not_mem_nil
  comes e _ := Nat.zero_le e.start
  spans e he := hspan e (Entity.mem_sort.mp he)

end Nested

/-- **The elements of a sentence are its entities in the order of rendering**, counted in tokens,
where no two of them cross. Its tags are balanced, and nothing is reported. -/
theorem Renderer.elements_sentence_xml {r : Renderer} (hformat : r.format = .xml)
    {tokens : Sentence} {entities : List Entity}
    (hspans : checkSpans entities tokens.length = .ok ())
    (hcross : ∀ a ∈ entities, ∀ b ∈ entities, a.crosses b = false)
    (hlabels : ∀ e ∈ entities, IsPlain e.label) :
    ∃ events r' marks, r.sentence tokens entities = .ok (events, r') ∧
      Event.warnings events = [] ∧
      Mark.read? (Event.written events) = some marks ∧
      Mark.isBalanced marks = true ∧
      (Mark.elements tokensIn 0 marks).map Mark.Element.entity?
        = (Entity.sort entities).map some := by
  have hnone := Entity.firstCrossing?_sort_eq_none hcross
  have hready := Nested.ready_sort (checkSpans_eq_ok_iff.mp hspans) hnone
  have hlength : 0 + tokens.length = tokens.length := Nat.zero_add _
  let outcome := Nested.sentence r.block r.cursor tokens (Entity.sort entities)
  have hrender : Nested.render r.block r.cursor tokens (Entity.sort entities)
      = (Mark.events outcome.marks, outcome.cursor) := by
    rw [Nested.render, Nested.sentence, Nested.opened_walk hready hlength]
    simp [outcome, Nested.sentence]
  have hbalanced : Mark.isBalanced outcome.marks = true := by
    by_cases hne : tokens = []
    · subst hne
      rfl
    · exact Nested.isBalancedFrom_walk _ _ hready hlength (fun _ => rfl) hne
  have hread : Mark.read? (Event.written (Mark.events outcome.marks))
      = some (Mark.joined [] outcome.marks) := by
    rw [Mark.written_events]
    exact Mark.read?_flatMap_text
      (Nested.labelsAre_walk fun e he => hlabels e (Entity.mem_sort.mp he))
  refine ⟨Mark.events outcome.marks, { r with cursor := outcome.cursor }, _, ?_,
    Event.warnings_map_write _, hread, ?_, ?_⟩
  · refine (sentence_inline_eq_ok_iff (by rw [hformat]; rfl)).mpr
      ⟨hspans, [], checkCrossing_of_none hnone, ?_, ?_⟩
    · rw [hrender, List.nil_append]
    · rw [hrender]
  · rw [Mark.isBalanced_joined, hbalanced]
  · rw [Mark.elements_joined (fun _ _ => rfl)]
    exact Nested.elements_walk hready hlength

/-- So it is with entities that begin together and end together. -/
theorem Renderer.elements_sentence_xml_three :
    let r : Renderer := ⟨.xml, .reject, "a <b> c".toList, {}, 0, 0⟩
    let tokens : Sentence := [.ofForm ['a'] 0 0, .ofForm ['b'] 3 1, .ofForm ['c'] 6 2]
    let entities : List Entity := [⟨0, 3, "B"⟩, ⟨0, 2, "A"⟩, ⟨2, 1, "C"⟩]
    ∃ events r' marks, r.sentence tokens entities = .ok (events, r') ∧
      Event.warnings events = [] ∧
      Mark.read? (Event.written events) = some marks ∧
      Mark.isBalanced marks = true ∧
      (Mark.elements tokensIn 0 marks).map Mark.Element.entity?
        = [some ⟨0, 3, "B"⟩, some ⟨0, 2, "A"⟩, some ⟨2, 1, "C"⟩] := by
  intro r tokens entities
  have hsort : Entity.sort entities = [⟨0, 3, "B"⟩, ⟨0, 2, "A"⟩, ⟨2, 1, "C"⟩] := rfl
  have hlabels : ∀ e ∈ entities, IsPlain e.label := by
    simp only [IsPlain]
    decide
  have hspans : checkSpans entities tokens.length = .ok () := rfl
  have h := elements_sentence_xml (r := r) rfl hspans (by decide) hlabels
  rwa [hsort] at h

end EntityMarkup
