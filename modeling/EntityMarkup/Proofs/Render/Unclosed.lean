import EntityMarkup.Proofs.Entity.Covering
import EntityMarkup.Proofs.Render.Copying
import EntityMarkup.Proofs.Render.NestedElements

/-!
# Entities that are never closed

Markup nested by tokens closes an entity only if it is on top of the stack behind its last token.
Where entities cross, one can be covered there by another that ends later; it then stays on the
stack for good, and so does every entity below it that would have to be closed from then on. So an
entity is closed behind its last token unless it is blocked by those that come after it, at any time
of the walk (`isBlocked`).

* `opened_walk_eq`: the entities that stay open are those that are blocked.
* `stopOf_walk_eq`, `outline_walk`: an entity that is not blocked is closed behind its last token,
  and one that is blocked is not.
* `opened_sentence_ne_nil_iff`: entities are left open exactly where two of them cross.
* **`unclosed_sentence_xml`**: which entities of a sentence are left open, and what is reported.
-/

namespace EntityMarkup

open Mark (stopOf elementsOf brackets tokensIn)

namespace Nested

/-! ## What becomes of the stack -/

/-- Where the entity at a depth of the stack is closed, 0 being the innermost. -/
def stopAtDepth (i : Nat) (stack pending : List Entity) (depth : Nat) : Option Nat :=
  stack[depth]?.bind fun e => stopAt i e ((stack.take depth).reverse ++ pending)

/-- Before the token with index `i`, of `n` tokens, what is open has begun, and what is to come is
in order. Entities may cross, so nothing is known of where those on the stack end. -/
structure Underway (i n : Nat) (opened pending : List Entity) : Prop where
  begun : ∀ e ∈ opened, e.start ≤ i
  comes : ∀ e ∈ pending, i ≤ e.start
  sorted : pending.Pairwise fun a b => a.start ≤ b.start
  spans : ∀ e ∈ opened ++ pending, e.start ≤ e.last ∧ e.last < n

variable {i n cursor : Nat} {e f : Entity} {es pending opened stack : List Entity} {block : Text}
  {token : Token} {tokens rest : Sentence}

theorem Underway.begun_openAt (h : Underway i n opened pending) :
    ∀ e ∈ openAt i opened pending, e.start ≤ i := by
  intro e he
  rcases List.mem_append.mp he with he | he
  · exact Nat.le_of_eq (start_of_mem_startingAt (List.mem_reverse.mp he))
  · exact h.begun e he

/-- When the entities that begin with a token are opened, all that are still to come lie behind
it. -/
theorem Underway.lt_of_mem_drop (h : Underway i n opened pending) :
    ∀ e ∈ pending.drop (startingAt i pending).length, i < e.start ∧ i < e.last := by
  intro e he
  have hstart := lt_of_mem_drop_takeWhile h.sorted
    (fun e he => lt_of_beq_eq_false (h.comes e he)) he
  have hspan := h.spans e (List.mem_append_right _ (List.mem_of_mem_drop he))
  exact ⟨hstart, Nat.lt_of_lt_of_le hstart hspan.1⟩

theorem Underway.step (h : Underway i n opened pending) :
    Underway (i + 1) n
      ((openAt i opened pending).drop (endingAt i (openAt i opened pending)).length)
      (pending.drop (startingAt i pending).length) where
  begun e he := Nat.le_succ_of_le (h.begun_openAt e (List.mem_of_mem_drop he))
  comes e he := (h.lt_of_mem_drop e he).1
  sorted := h.sorted.sublist (List.drop_sublist _ _)
  spans := by
    intro e he
    refine h.spans e ?_
    rcases List.mem_append.mp he with he | he
    · rcases List.mem_append.mp (List.mem_of_mem_drop he) with he | he
      · exact List.mem_append_right _ ((List.takeWhile_sublist _).subset (List.mem_reverse.mp he))
      · exact List.mem_append_left _ he
    · exact List.mem_append_right _ (List.mem_of_mem_drop he)

theorem Underway.pending_eq_nil (h : Underway n n opened pending) : pending = [] := by
  refine List.eq_nil_iff_forall_not_mem.mpr fun e he => ?_
  have := h.comes e he
  have := h.spans e (List.mem_append_right _ he)
  omega

/-- Closing goes on until the entity on top of the stack does not end with the token. -/
theorem last_ne_of_head?_drop {t : Entity}
    (h : (stack.drop (endingAt i stack).length).head? = some t) : t.last ≠ i := by
  induction stack with
  | nil => cases h
  | cons e stack ih =>
    rw [endingAt, List.takeWhile_cons] at h
    split at h
    · exact ih h
    · rename_i hne
      obtain rfl := Option.some.inj h
      exact fun he => hne (beq_iff_eq.mpr he)

/-- The entities that lie above one on the stack, and this one, end with the top of the stack. -/
theorem getLast?_cons_reverse_take {d : Nat} (h : stack[d]? = some e) :
    (e :: (stack.take d).reverse).getLast? = stack.head? := by
  have htake : e :: (stack.take d).reverse = (stack.take (d + 1)).reverse := by
    rw [List.take_add_one, h]
    simp
  rw [htake, List.getLast?_reverse, List.head?_take, if_neg (Nat.succ_ne_zero d)]

section Closing

variable (hbegun : ∀ e ∈ stack, e.start ≤ i)
  (hpending : ∀ e ∈ pending, i < e.start ∧ i < e.last)

include hbegun hpending

/-- An entity on the stack is closed where it will be, once those that end with a token are. -/
theorem stopOf_closings_append_eq {rest : List Mark.Bracket}
    (hrest : ∀ depth, stopOf depth rest
      = stopAtDepth (i + 1) (stack.drop (endingAt i stack).length) pending depth) (depth : Nat) :
    stopOf depth ((List.replicate (endingAt i stack).length (i + 1)).map .closing ++ rest)
      = stopAtDepth i stack pending depth := by
  have hsplit := endingAt_append_drop i stack
  have htop : ∀ t, (stack.drop (endingAt i stack).length).head? = some t → t.last ≠ i :=
    fun _ => last_ne_of_head?_drop
  have hkept : ∀ e ∈ stack.drop (endingAt i stack).length, e.start ≤ i :=
    fun e he => hbegun e (List.mem_of_mem_drop he)
  have hending : ∀ e ∈ endingAt i stack, e.last = i := fun e he => last_of_mem_endingAt he
  rw [Mark.stopOf_closings_append, List.length_replicate, hrest]
  generalize endingAt i stack = ending at hsplit htop hkept hending ⊢
  generalize stack.drop ending.length = kept at hsplit htop hkept ⊢
  subst hsplit
  split
  · rename_i hlt
    have hlast := hending _ (List.getElem_mem hlt)
    rw [stopAtDepth, List.getElem?_append_left hlt, List.getElem?_eq_getElem hlt, Option.bind_some,
      List.take_append_of_le_length (Nat.le_of_lt hlt), stopAt,
      isBlocked_ending hlast (fun e he => hending e (List.mem_of_mem_take (List.mem_reverse.mp he)))
        fun e he => (hpending e he).1, hlast, List.getElem?_replicate, if_pos hlt]
    rfl
  · rename_i hle
    obtain ⟨d, rfl⟩ := Nat.exists_eq_add_of_le (Nat.le_of_not_lt hle)
    rw [stopAtDepth, stopAtDepth, Nat.add_sub_cancel_left, List.getElem?_append_right (by omega),
      Nat.add_sub_cancel_left, List.take_length_add_append]
    cases hget : kept[d]? with
    | none => rfl
    | some e =>
      have hclosed : ∀ f ∈ ending.reverse, f.last = i :=
        fun f hf => hending f (List.mem_reverse.mp hf)
      have habove : ∀ f ∈ (kept.take d).reverse, f.start ≤ i :=
        fun f hf => hkept f (List.mem_of_mem_take (List.mem_reverse.mp hf))
      rw [Option.bind_some, Option.bind_some, stopAt, stopAt, List.reverse_append,
        List.append_assoc, isBlocked_append_ending hclosed hpending habove
          (getLast?_cons_reverse_take hget ▸ htop)]

end Closing

/-! ## The walk -/

/-- **Where an entity is closed that is open**: behind its last token, unless it is blocked. -/
theorem stopOf_walk_eq (block : Text) (cursor : Nat) (h : Underway i n opened pending)
    (hn : i + tokens.length = n) (depth : Nat) :
    stopOf depth (brackets tokensIn i (walk block i cursor opened pending tokens).marks)
      = stopAtDepth i opened pending depth := by
  induction tokens generalizing i cursor opened pending depth with
  | nil =>
    have hspans := fun e he => (h.spans e (List.mem_append_left pending he)).2
    rw [stopAtDepth]
    cases hget : opened[depth]? with
    | none => rfl
    | some e =>
      have hlast := hspans e (List.mem_of_getElem? hget)
      rw [List.length_nil] at hn
      rw [Option.bind_some, stopAt, isBlocked_of_last_lt (by omega)]
      rfl
  | cons token rest ih =>
    have hrest := ih token.stop h.step (by rw [List.length_cons] at hn; omega)
    rw [walk_cons, brackets_around_append, Mark.stopOf_openings_append,
      stopOf_closings_append_eq h.begun_openAt h.lt_of_mem_drop hrest, List.length_map, stopAtDepth,
      stopAtDepth, openAt, List.getElem?_append_right (by simp), List.take_append,
      List.take_of_length_le (by simp), List.reverse_append, List.reverse_reverse,
      List.append_assoc, startingAt_append_drop, List.length_reverse, Nat.add_sub_cancel]

/-- What an element tells, apart from the elements inside it. -/
def outline (x : Mark.Element) : Nat × String × Option Nat :=
  (x.start, x.label, x.stop)

/-- What begins with a token becomes elements, each closed where it is planned. -/
theorem outline_openings_append {starting : List Entity} {rest : List Mark.Bracket}
    (hstart : ∀ e ∈ starting, e.start = i)
    (hstop : ∀ depth, stopOf depth rest = stopAtDepth i (starting.reverse ++ opened) pending depth)
    (hrest : (elementsOf rest).map outline = plan i pending) :
    (elementsOf ((starting.map Entity.label).map (fun label => .opening label i) ++ rest)).map
        outline = plan i (starting ++ pending) := by
  induction starting generalizing opened with
  | nil => exact hrest
  | cons e more ih =>
    obtain ⟨he, hmore⟩ := List.forall_mem_cons.mp hstart
    have hreverse : (e :: more).reverse ++ opened = more.reverse ++ e :: opened := by simp
    rw [hreverse] at hstop
    -- when `e` is opened, those of `more` are put on the stack above it
    have hend : stopOf 0 ((more.map Entity.label).map (fun label => .opening label i) ++ rest)
        = stopAt i e (more ++ pending) := by
      rw [Mark.stopOf_openings_append, hstop, stopAtDepth]
      simp
    rw [List.map_cons, List.map_cons, List.cons_append, elementsOf, List.map_cons,
      ih hmore hstop, outline, hend, List.cons_append, plan, he]

/-- **The entities still to come are elements**, each closed behind its last token unless it is
blocked. -/
theorem outline_walk (block : Text) (cursor : Nat) (h : Underway i n opened pending)
    (hn : i + tokens.length = n) :
    (elementsOf (brackets tokensIn i (walk block i cursor opened pending tokens).marks)).map outline
      = plan i pending := by
  induction tokens generalizing i cursor opened pending with
  | nil =>
    obtain rfl : i = n := hn
    rw [h.pending_eq_nil]
    rfl
  | cons token rest ih =>
    have hlength : i + 1 + rest.length = n := by
      rw [List.length_cons] at hn
      omega
    have hstop := stopOf_closings_append_eq h.begun_openAt h.lt_of_mem_drop
      (stopOf_walk_eq block token.stop h.step hlength)
    have hrest := ih token.stop h.step hlength
    rw [plan_succ h.lt_of_mem_drop] at hrest
    rw [walk_cons, brackets_around_append,
      outline_openings_append (fun e he => start_of_mem_startingAt he) hstop
        (by rw [Mark.elementsOf_closings_append, hrest]), startingAt_append_drop]

/-! ## What is left open -/

/-- **The entities that stay open are those that are blocked.** -/
theorem opened_walk_eq (block : Text) (cursor : Nat) (h : Underway i n opened pending)
    (hn : i + tokens.length = n) :
    (walk block i cursor opened pending tokens).opened.reverse
      = blocked i (opened.reverse ++ pending) := by
  induction tokens generalizing i cursor opened pending with
  | nil =>
    obtain rfl : i = n := hn
    rw [h.pending_eq_nil, List.append_nil, blocked_of_forall_last_lt]
    · rfl
    · exact fun e he => (h.spans e (List.mem_append_left _ (List.mem_reverse.mp he))).2
  | cons token rest ih =>
    have hlength : i + 1 + rest.length = n := by
      rw [List.length_cons] at hn
      omega
    rw [walk_cons]
    simp only
    rw [ih token.stop h.step hlength]
    have hsplit := endingAt_append_drop i (openAt i opened pending)
    rw [← openAt_append_drop i opened pending]
    conv => rhs; rw [← hsplit]
    rw [List.reverse_append, List.append_assoc]
    refine (blocked_append_ending ?_ h.lt_of_mem_drop ?_ ?_).symm
    · exact fun e he => last_of_mem_endingAt (List.mem_reverse.mp he)
    · exact fun e he => h.begun_openAt e (List.mem_of_mem_drop (List.mem_reverse.mp he))
    · exact fun t ht => last_ne_of_head?_drop (List.getLast?_reverse ▸ ht)

theorem count_endEntity_around (starting ending : List Entity) (isLast : Bool) :
    (around block i cursor starting ending token isLast).count .endEntity = ending.length := by
  rw [List.count_eq_countP, countP_around fun _ => rfl, Mark.countP_map_beginEntity fun _ => rfl]
  simp [List.countP_replicate]

theorem countP_beginEntity_around (starting ending : List Entity) (isLast : Bool) :
    (around block i cursor starting ending token isLast).countP Mark.endEntity.isEndOf
      = starting.length := by
  rw [countP_around fun _ => rfl, Mark.countP_map_beginEntity fun _ => rfl]
  simp [Mark.isEndOf, List.countP_replicate]

/-- The tags that begin entities are as many as those that end one and those that are left open. -/
theorem length_opened_walk (block : Text) (i cursor : Nat) (opened pending : List Entity)
    (tokens : Sentence) :
    (walk block i cursor opened pending tokens).opened.length
        + (walk block i cursor opened pending tokens).marks.count .endEntity
      = opened.length
        + (walk block i cursor opened pending tokens).marks.countP Mark.endEntity.isEndOf := by
  induction tokens generalizing i cursor opened pending with
  | nil => rfl
  | cons token rest ih =>
    have hsplit := congrArg List.length (endingAt_append_drop i (openAt i opened pending))
    have hstack : (openAt i opened pending).length
        = (startingAt i pending).length + opened.length := by simp [openAt]
    rw [List.length_append] at hsplit
    rw [walk_cons]
    simp only [List.count_append, List.countP_append, count_endEntity_around,
      countP_beginEntity_around]
    have hrest := ih (i + 1) token.stop
      ((openAt i opened pending).drop (endingAt i (openAt i opened pending)).length)
      (pending.drop (startingAt i pending).length)
    omega

theorem underway_sort (hspan : ∀ e ∈ es, e.isSpanOf n = true) :
    Underway 0 n [] (Entity.sort es) where
  begun _ he := absurd he List.not_mem_nil
  comes e _ := Nat.zero_le e.start
  sorted := (Entity.pairwise_sort es).imp Entity.start_le_of_mayPrecede
  spans e he := by
    have h := Entity.start_le_last_of_isSpanOf (hspan e (Entity.mem_sort.mp he))
    exact ⟨h.1, h.2.1⟩

/-- What is reported behind a sentence is the number of entities that are left open. -/
theorem warnings_render (block : Text) (cursor : Nat) (tokens : Sentence) (es : List Entity) :
    Event.warnings (render block cursor tokens es).1
      = if (sentence block cursor tokens es).opened = [] then []
        else [.unclosed (sentence block cursor tokens es).opened.length] := by
  rw [render, Event.warnings_append, Mark.events, Event.warnings_map_write, List.nil_append]
  simp only [List.length_eq_zero_iff]
  split <;> rfl

/-- Entities are left open exactly where two of them cross. -/
theorem opened_sentence_ne_nil_iff {block : Text} {cursor : Nat} {tokens : Sentence}
    (hspan : ∀ e ∈ es, e.isSpanOf tokens.length = true) :
    (sentence block cursor tokens (Entity.sort es)).opened ≠ []
      ↔ ∃ a ∈ es, ∃ b ∈ es, a.crosses b = true := by
  have hopened := opened_walk_eq block cursor (underway_sort hspan) (Nat.zero_add tokens.length)
  rw [List.reverse_nil, List.nil_append] at hopened
  have hsort := exists_unclosed_iff_crosses (Entity.pairwise_sort es)
    fun e he => hspan e (Entity.mem_sort.mp he)
  simp only [Entity.mem_sort] at hsort
  rw [← hsort, exists_unclosed_iff, ← hopened, ne_eq, ne_eq, List.reverse_eq_nil_iff]
  rfl

/-- The elements of a sentence are its entities in the order of rendering; those that do not end are
those of the least set. -/
theorem elements_sentence_sort (block : Text) (cursor : Nat) {tokens : Sentence}
    (hspan : ∀ e ∈ es, e.isSpanOf tokens.length = true) (k : Nat) :
    ((Mark.elements tokensIn 0 (sentence block cursor tokens (Entity.sort es)).marks)[k]?).map
        outline
      = (Entity.sort es)[k]?.map fun e =>
        (e.start, e.label, stopAt 0 e ((Entity.sort es).drop (k + 1))) := by
  rw [← List.getElem?_map, ← getElem?_plan]
  exact congrArg (·[k]?)
    (outline_walk block cursor (underway_sort hspan) (Nat.zero_add tokens.length))

end Nested

/-! ## A sentence -/

namespace Renderer

variable {r : Renderer} {tokens : Sentence} {entities : List Entity}

/-- What is written for a sentence, and what is reported about it: a crossing pair before it, and
behind it the number of entities that are left open. -/
theorem exists_sentence_xml_warn (hformat : r.format = .xml) (hcrossing : r.crossing = .warn)
    (hspans : checkSpans entities tokens.length = .ok ()) :
    ∃ events r' outcome, r.sentence tokens entities = .ok (events, r') ∧
      outcome = Nested.sentence r.block r.cursor tokens (Entity.sort entities) ∧
      Event.written events = outcome.marks.flatMap Mark.text ∧
      Event.warnings events
        = (Entity.firstCrossing? (Entity.sort entities)).toList.map
            (fun p => .crossingSpans p.1 p.2)
          ++ if outcome.opened = [] then [] else [.unclosed outcome.opened.length] := by
  have hmarkup : r.format.markup? = some Nested.render := by rw [hformat]; rfl
  refine ⟨_, _, _, sentence_inline_warn hmarkup hcrossing hspans, rfl, ?_, ?_⟩
  · rw [Event.written_append, Nested.written_render]
    cases Entity.firstCrossing? (Entity.sort entities) <;> rfl
  · rw [Event.warnings_append, Nested.warnings_render]
    cases Entity.firstCrossing? (Entity.sort entities) <;> rfl

/-- **Which entities of a sentence are left open, and what is reported.** The entities that are left
open are those of the least set, and there are some exactly if some two entities cross. That is
reported before the sentence with a crossing pair, and behind it with the number of tags that begin
an entity and are not ended. -/
theorem unclosed_sentence_xml (hformat : r.format = .xml) (hcrossing : r.crossing = .warn)
    (hspans : checkSpans entities tokens.length = .ok ()) :
    ∃ events r' marks, r.sentence tokens entities = .ok (events, r') ∧
      marks = (Nested.sentence r.block r.cursor tokens (Entity.sort entities)).marks ∧
      Event.written events = marks.flatMap Mark.text ∧
      ((∃ n, .unclosed n ∈ Event.warnings events)
        ↔ ∃ a b, .crossingSpans a b ∈ Event.warnings events) ∧
      ((∃ a b, .crossingSpans a b ∈ Event.warnings events)
        ↔ ∃ a ∈ entities, ∃ b ∈ entities, a.crosses b = true) ∧
      (∀ n, .unclosed n ∈ Event.warnings events →
        n + marks.count .endEntity = marks.countP Mark.endEntity.isEndOf) ∧
      (Mark.elements tokensIn 0 marks).map (fun x => (x.start, x.label))
        = (Entity.sort entities).map (fun e => (e.start, e.label)) ∧
      ∀ k x, (Mark.elements tokensIn 0 marks)[k]? = some x →
        (x.stop = none ↔ Nested.Unclosed (Entity.sort entities) k) := by
  have hspan := checkSpans_eq_ok_iff.mp hspans
  obtain ⟨events, r', outcome, hsentence, houtcome, hwritten, hwarnings⟩ :=
    exists_sentence_xml_warn hformat hcrossing hspans
  have hbefore : (∃ a b, .crossingSpans a b ∈ Event.warnings events)
      ↔ ∃ a ∈ entities, ∃ b ∈ entities, a.crosses b = true := by
    have hpair : (∃ a b, .crossingSpans a b ∈ Event.warnings events)
        ↔ Entity.firstCrossing? (Entity.sort entities) ≠ none := by
      rw [hwarnings]
      cases Entity.firstCrossing? (Entity.sort entities) <;> split <;> simp
    rw [hpair, ne_eq, Entity.firstCrossing?_sort_eq_none_iff]
    simp
  have hbehind : ∀ n, .unclosed n ∈ Event.warnings events
      ↔ outcome.opened ≠ [] ∧ n = outcome.opened.length := by
    intro n
    rw [hwarnings]
    split <;> simp_all
  have hcount := Nested.length_opened_walk r.block 0 r.cursor [] (Entity.sort entities) tokens
  rw [List.length_nil, Nat.zero_add, ← Nested.sentence, ← houtcome] at hcount
  have helements := Nested.elements_sentence_sort r.block r.cursor hspan
  rw [← houtcome] at helements
  refine ⟨events, r', outcome.marks, hsentence, by rw [houtcome], hwritten, ?_, hbefore, ?_, ?_, ?_⟩
  · rw [hbefore, ← Nested.opened_sentence_ne_nil_iff hspan, ← houtcome]
    constructor
    · rintro ⟨n, hn⟩
      exact ((hbehind n).mp hn).1
    · exact fun h => ⟨_, (hbehind _).mpr ⟨h, rfl⟩⟩
  · intro n hn
    rw [((hbehind n).mp hn).2]
    exact hcount
  · refine List.ext_getElem? fun k => ?_
    have hk := congrArg (Option.map fun x => (x.1, x.2.1)) (helements k)
    simpa [Nested.outline, Function.comp_def] using hk
  · intro k x hx
    have hk := helements k
    rw [hx] at hk
    obtain ⟨e, he, hout⟩ := Option.map_eq_some_iff.mp hk.symm
    have hstop : x.stop = Nested.stopAt 0 e ((Entity.sort entities).drop (k + 1)) :=
      congrArg (fun x => x.2.2) hout.symm
    rw [Nested.unclosed_iff_isBlocked he, hstop, Nested.stopAt]
    split <;> simp_all

/-- So it is where an entity lies below one of two that cross: `B` is closed, `A` is covered by it,
and `O`, which crosses none, stays open below `A`. -/
theorem unclosed_sentence_xml_buried :
    let r : Renderer := ⟨.xml, .warn, "a b c d e".toList, {}, 0, 0⟩
    let tokens : Sentence := [.ofForm ['a'] 0 0, .ofForm ['b'] 2 1, .ofForm ['c'] 4 2,
      .ofForm ['d'] 6 3, .ofForm ['e'] 8 4]
    let entities : List Entity := [⟨0, 5, "O"⟩, ⟨1, 2, "A"⟩, ⟨2, 2, "B"⟩]
    ∃ events r' marks, r.sentence tokens entities = .ok (events, r') ∧
      Event.written events = marks.flatMap Mark.text ∧
      (∃ a b, .crossingSpans a b ∈ Event.warnings events) ∧
      (∃ n, .unclosed n ∈ Event.warnings events) ∧
      ∀ k x, (Mark.elements tokensIn 0 marks)[k]? = some x → (x.stop = none ↔ k = 0 ∨ k = 1) := by
  intro r tokens entities
  have hsort : Entity.sort entities = entities := rfl
  have hspans : checkSpans entities tokens.length = .ok () := rfl
  obtain ⟨events, r', marks, hsentence, -, hwritten, hbehind, hbefore, -, -, hunclosed⟩ :=
    unclosed_sentence_xml (r := r) rfl rfl hspans
  have hcross := hbefore.mpr (by decide)
  refine ⟨events, r', marks, hsentence, hwritten, hcross, hbehind.mpr hcross, fun k x hx => ?_⟩
  rw [hunclosed k x hx, hsort]
  constructor
  · intro h
    have hk := Nested.lt_length_of_unclosed h
    have htop : ¬ Nested.Unclosed entities 2 := by
      rw [Nested.unclosed_iff_isBlocked rfl]
      decide
    have hne : k ≠ 2 := fun he => htop (he ▸ h)
    simp only [entities, List.length_cons, List.length_nil] at hk
    omega
  · have hcovered : Nested.Unclosed entities 1 :=
      .outlasted (show 1 < 2 by decide) rfl rfl (by decide) (by decide)
    rintro (rfl | rfl)
    · exact .buried (show 0 < 1 by decide) rfl rfl (by decide) hcovered
    · exact hcovered

end Renderer

end EntityMarkup
