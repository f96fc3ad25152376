import EntityMarkup.Proofs.Render.Literals
import EntityMarkup.Render.Flat
import EntityMarkup.Render.Nested

/-!
# Inline markup, one step after the other

Both inline renderers come to the same shape here: what is written at one step, followed by what is
written from there on. For markup nested by tokens a step is a token, and `Nested.around` is what
stands around it. Markup by stretches of text carries along what a pen has written; `Flat.follow`
says instead what is still to be written, given the stack and the cursor, and a step is an entity.

* **`sentence_eq_follow`**: a sentence is what follows an empty stack.
* `labelsAre_walk`, `labelsAre_sentence`: only labels of the given entities are written.
-/

namespace EntityMarkup

open Mark (LabelsAre labelsAre_append stretch)

/-- What is left of an ordered list when its front is taken away lies behind `i`, if what is not to
be taken does. -/
theorem lt_of_mem_drop_takeWhile {α : Type} {f : α → Nat} {p : α → Bool} {i : Nat} {xs : List α}
    (hsorted : xs.Pairwise fun a b => f a ≤ f b) (hp : ∀ x ∈ xs, p x = false → i < f x) {x : α}
    (hx : x ∈ xs.drop (xs.takeWhile p).length) : i < f x := by
  induction xs with
  | nil => exact absurd hx (by simp)
  | cons a xs ih =>
    obtain ⟨ha, hrest⟩ := List.pairwise_cons.mp hsorted
    obtain ⟨hpa, hpxs⟩ := List.forall_mem_cons.mp hp
    rw [List.takeWhile_cons] at hx
    split at hx
    · exact ih hrest hpxs hx
    · rename_i hstay
      have hlt : i < f a := hpa (Bool.eq_false_iff.mpr hstay)
      rcases List.mem_cons.mp hx with rfl | hx
      · exact hlt
      · exact Nat.lt_of_lt_of_le hlt (ha x hx)

theorem Mark.labelsAre_stretch (p : String → Prop) (block : Text) (a b : Nat) :
    LabelsAre p (stretch block a b) := by
  intro label h
  rw [stretch] at h
  split at h <;> simp at h

theorem Mark.countP_stretch {q : Mark → Bool} (hliteral : ∀ t, q (.literal t) = false)
    (block : Text) (a b : Nat) : (stretch block a b).countP q = 0 := by
  unfold stretch
  split <;> simp [hliteral]

/-- Tags that begin entities are counted all or not at all, where their labels do not matter. -/
theorem Mark.countP_map_beginEntity {q : Mark → Bool} {found : Bool}
    (hfound : ∀ label, q (.beginEntity label) = found) (es : List Entity) :
    (es.map fun e => Mark.beginEntity e.label).countP q = es.length * found.toNat := by
  rw [List.countP_map]
  cases found with
  | false => simp [Function.comp_def, hfound]
  | true => simp [Function.comp_def, hfound]

/-- Tags that begin the given entities write their labels only. -/
theorem Mark.labelsAre_map_beginEntity {p : String → Prop} {es : List Entity}
    (h : ∀ e ∈ es, p e.label) : LabelsAre p (es.map fun e => .beginEntity e.label) := by
  intro label hl
  obtain ⟨e, he, heq⟩ := List.mem_map.mp hl
  cases heq
  exact h e he

/-- Marks none of which begins an entity write no label. -/
theorem Mark.labelsAre_of_forall_ne {p : String → Prop} {marks : List Mark}
    (h : ∀ label, .beginEntity label ∉ marks) : LabelsAre p marks :=
  fun label hl => absurd hl (h label)

/-! ## A token and what stands around it -/

namespace Nested

/-- What is written for a token: the text before it, the tags of the entities that begin and end
with it, and its own; the tags of the sentence stand before the first token and behind the last. -/
def around (block : Text) (i cursor : Nat) (starting ending : List Entity) (token : Token)
    (isLast : Bool) : List Mark :=
  stretch block cursor token.start
    ++ (if i = 0 then [.beginSentence] else [])
    ++ starting.map (fun e => .beginEntity e.label)
    ++ [.beginToken, .literal (block.slice token.start token.stop), .endToken]
    ++ ending.map (fun _ => .endEntity)
    ++ (if isLast then [.endSentence] else [])

/-- The tags among what is written for a token. -/
theorem countP_around {q : Mark → Bool} (hliteral : ∀ t, q (.literal t) = false) (block : Text)
    (i cursor : Nat) (starting ending : List Entity) (token : Token) (isLast : Bool) :
    (around block i cursor starting ending token isLast).countP q
      = (if i = 0 then [Mark.beginSentence].countP q else 0)
        + (starting.map fun e => Mark.beginEntity e.label).countP q
        + [Mark.beginToken, .endToken].countP q
        + (ending.map fun _ => Mark.endEntity).countP q
        + (if isLast then [Mark.endSentence].countP q else 0) := by
  have htoken : [.beginToken, .literal (block.slice token.start token.stop), .endToken].countP q
      = [Mark.beginToken, .endToken].countP q := by
    simp only [List.countP_cons, hliteral, Bool.false_eq_true, if_false, Nat.add_zero]
  simp only [around, List.countP_append, Mark.countP_stretch hliteral, htoken,
    apply_ite (List.countP q), List.countP_nil, Nat.zero_add]

/-- The entities that begin with a token, of those that are still to come. -/
def startingAt (i : Nat) (pending : List Entity) : List Entity :=
  pending.takeWhile fun e => e.start == i

/-- The entities that are open at a token, the last one first. -/
def openAt (i : Nat) (opened pending : List Entity) : List Entity :=
  (startingAt i pending).reverse ++ opened

/-- The entities that are closed after a token, of those that are open. -/
def endingAt (i : Nat) (stack : List Entity) : List Entity :=
  stack.takeWhile fun e => e.last == i

variable {block : Text} {i cursor : Nat} {opened pending : List Entity} {token : Token}
  {rest : Sentence}

theorem startingAt_append_drop (i : Nat) (pending : List Entity) :
    startingAt i pending ++ pending.drop (startingAt i pending).length = pending :=
  List.prefix_iff_eq_append.mp (List.takeWhile_prefix _)

theorem endingAt_append_drop (i : Nat) (stack : List Entity) :
    endingAt i stack ++ stack.drop (endingAt i stack).length = stack :=
  List.prefix_iff_eq_append.mp (List.takeWhile_prefix _)

theorem walk_cons (block : Text) (i cursor : Nat) (opened pending : List Entity) (token : Token)
    (rest : Sentence) :
    walk block i cursor opened pending (token :: rest) =
      let stack := openAt i opened pending
      let tail := walk block (i + 1) token.stop (stack.drop (endingAt i stack).length)
        (pending.drop (startingAt i pending).length) rest
      { tail with
        marks := around block i cursor (startingAt i pending) (endingAt i stack) token rest.isEmpty
          ++ tail.marks } :=
  rfl

theorem labelsAre_around {p : String → Prop} {starting ending : List Entity} {isLast : Bool}
    (h : ∀ e ∈ starting, p e.label) :
    LabelsAre p (around block i cursor starting ending token isLast) := by
  simp only [around, labelsAre_append]
  refine ⟨⟨⟨⟨⟨Mark.labelsAre_stretch p _ _ _, ?_⟩, Mark.labelsAre_map_beginEntity h⟩, ?_⟩, ?_⟩, ?_⟩
  all_goals exact Mark.labelsAre_of_forall_ne (by grind)

theorem labelsAre_walk {p : String → Prop} {tokens : Sentence} (h : ∀ e ∈ pending, p e.label) :
    LabelsAre p (walk block i cursor opened pending tokens).marks := by
  induction tokens generalizing i cursor opened pending with
  | nil => exact Mark.labelsAre_of_forall_ne (by simp [walk])
  | cons token rest ih =>
    rw [walk_cons]
    exact labelsAre_append.mpr
      ⟨labelsAre_around fun e he => h e ((List.takeWhile_sublist _).subset he),
        ih fun e he => h e (List.mem_of_mem_drop he)⟩

end Nested

/-! ## An entity and what follows it -/

namespace Flat

/-- What is written while the entities that end at the given offsets are closed one after the
other, and how far the block is copied then. -/
def closeAll (block : Text) : (cursor : Nat) → List Nat → Pen
  | cursor, [] => ⟨cursor, []⟩
  | cursor, offset :: rest =>
    let tail := closeAll block (max cursor offset) rest
    { tail with marks := stretch block cursor offset ++ .endEntity :: tail.marks }

/-- The offsets on top of a stack that do not lie behind a given one. -/
def endingBy (offset : Nat) (stack : List Nat) : List Nat :=
  stack.takeWhile fun o => o ≤ offset

/-- The stack when an entity has been opened. -/
def stackAfter (tokens : Sentence) (stack : List Nat) (e : Entity) : List Nat :=
  stopOffset tokens e :: stack.drop (endingBy (startOffset tokens e) stack).length

/-- What is still to be written of a sentence, `stack` being the offsets at which the open entities
end. -/
def follow (block : Text) (tokens : Sentence) : (stack : List Nat) → (cursor : Nat) →
    List Entity → Pen
  | stack, cursor, [] => closeAll block cursor stack
  | stack, cursor, e :: rest =>
    let start := startOffset tokens e
    let closed := closeAll block cursor (endingBy start stack)
    let tail := follow block tokens (stackAfter tokens stack e) (max closed.cursor start) rest
    { tail with
      marks := closed.marks ++ stretch block closed.cursor start
        ++ .beginEntity e.label :: tail.marks }

variable {block : Text} {tokens : Sentence}

theorem take_length_endingBy (offset : Nat) (stack : List Nat) :
    stack.take (endingBy offset stack).length = endingBy offset stack :=
  (List.prefix_iff_eq_take.mp (List.takeWhile_prefix _)).symm

theorem le_of_mem_endingBy {offset o : Nat} {stack : List Nat} (h : o ∈ endingBy offset stack) :
    o ≤ offset :=
  of_decide_eq_true (List.all_eq_true.mp List.all_takeWhile o h)

theorem mem_stackAfter {stack : List Nat} {e : Entity} {o : Nat}
    (h : o ∈ stackAfter tokens stack e) : o = stopOffset tokens e ∨ o ∈ stack := by
  rcases List.mem_cons.mp h with h | h
  · exact Or.inl h
  · exact Or.inr (List.mem_of_mem_drop h)

/-- A pen that closes entities goes on from what it has written. -/
theorem foldl_closeAt (offsets : List Nat) (pen : Pen) :
    offsets.foldl (Pen.closeAt block) pen =
      ⟨(closeAll block pen.cursor offsets).cursor,
        pen.marks ++ (closeAll block pen.cursor offsets).marks⟩ := by
  induction offsets generalizing pen with
  | nil => simp [closeAll]
  | cons offset rest ih => simp [ih, closeAll, Pen.closeAt, Pen.copyTo, Pen.put]

theorem foldl_openEntity (es : List Entity) (stack : List Nat) (pen : Pen) :
    (es.foldl (openEntity block tokens) (stack, pen)).1.foldl (Pen.closeAt block)
        (es.foldl (openEntity block tokens) (stack, pen)).2 =
      ⟨(follow block tokens stack pen.cursor es).cursor,
        pen.marks ++ (follow block tokens stack pen.cursor es).marks⟩ := by
  induction es generalizing stack pen with
  | nil => exact foldl_closeAt stack pen
  | cons e rest ih =>
    have hopen : openEntity block tokens (stack, pen) e =
        (stackAfter tokens stack e,
          (((endingBy (startOffset tokens e) stack).foldl (Pen.closeAt block) pen).copyTo block
            (startOffset tokens e)).put (.beginEntity e.label)) := rfl
    rw [List.foldl_cons, hopen, ih, foldl_closeAt]
    simp [follow, Pen.copyTo, Pen.put]

/-- **A sentence is what follows an empty stack.** -/
theorem sentence_eq_follow (block : Text) (cursor : Nat) (tokens : Sentence) (es : List Entity) :
    sentence block cursor tokens es = follow block tokens [] cursor es :=
  foldl_openEntity es [] { cursor }

theorem labelsAre_closeAll {p : String → Prop} (cursor : Nat) (offsets : List Nat) :
    LabelsAre p (closeAll block cursor offsets).marks := by
  induction offsets generalizing cursor with
  | nil => exact Mark.labelsAre_of_forall_ne (by simp [closeAll])
  | cons offset rest ih =>
    refine labelsAre_append.mpr ⟨Mark.labelsAre_stretch p _ _ _, Mark.labelsAre_cons.mpr ⟨?_, ih _⟩⟩
    exact Mark.labelsAre_of_forall_ne (by simp)

theorem labelsAre_follow {p : String → Prop} {es : List Entity} {stack : List Nat} {cursor : Nat}
    (h : ∀ e ∈ es, p e.label) : LabelsAre p (follow block tokens stack cursor es).marks := by
  induction es generalizing stack cursor with
  | nil => exact labelsAre_closeAll cursor stack
  | cons e rest ih =>
    obtain ⟨he, hrest⟩ := List.forall_mem_cons.mp h
    have hbegin : LabelsAre p ([e].map fun e => .beginEntity e.label) :=
      Mark.labelsAre_map_beginEntity (by simpa using he)
    exact labelsAre_append.mpr ⟨labelsAre_append.mpr
      ⟨labelsAre_closeAll _ _, Mark.labelsAre_stretch p _ _ _⟩,
      Mark.labelsAre_cons.mpr ⟨hbegin, ih hrest⟩⟩

theorem labelsAre_sentence {p : String → Prop} {es : List Entity} (block : Text) (cursor : Nat)
    (tokens : Sentence) (h : ∀ e ∈ es, p e.label) :
    LabelsAre p (sentence block cursor tokens es).marks := by
  rw [sentence_eq_follow]
  exact labelsAre_follow h

end Flat

end EntityMarkup
