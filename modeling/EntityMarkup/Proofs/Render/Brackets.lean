import EntityMarkup.Proofs.Render.Reading

/-!
# Elements of markup that is put together

Markup is written piece by piece, and so are its elements found: a piece that begins entities puts
them on top of those that are open, a piece that ends entities takes them off again, and a piece
without tags of entities only moves the position.

* `brackets_openings_append`, `brackets_closings_append`: the brackets of a piece.
* `stopOf_openings_append`, `stopOf_closings_append`: where an entity ends that is open before a
  piece.
* `isBalancedFrom_begins_append`, `isBalancedFrom_ends_append`: what is open after a piece.
-/

namespace EntityMarkup.Mark

variable {measure : Mark → Nat} {position : Nat}

/-! ## Brackets -/

theorem brackets_openings_append (labels : List String) (rest : List Mark) :
    brackets measure position (labels.map .beginEntity ++ rest)
      = labels.map (fun label => .opening label position) ++ brackets measure position rest := by
  induction labels with
  | nil => rfl
  | cons label labels ih => simp [brackets, ih]

theorem brackets_closings_append (n : Nat) (rest : List Mark) :
    brackets measure position (List.replicate n .endEntity ++ rest)
      = (List.replicate n position).map .closing ++ brackets measure position rest := by
  induction n with
  | zero => rfl
  | succ n ih => simp [List.replicate_succ, brackets, ih]

/-! ## Where entities end -/

/-- What begins is put on top of what is open. -/
theorem stopOf_openings_append (depth : Nat) (labels : List String) (rest : List Bracket) :
    stopOf depth (labels.map (fun label => .opening label position) ++ rest)
      = stopOf (depth + labels.length) rest := by
  induction labels generalizing depth with
  | nil => rfl
  | cons label labels ih =>
    rw [List.map_cons, List.cons_append, stopOf, ih, List.length_cons]
    congr 1
    omega

/-- What ends is taken off from what is open, each at its position. -/
theorem stopOf_closings_append (depth : Nat) (positions : List Nat) (rest : List Bracket) :
    stopOf depth (positions.map .closing ++ rest)
      = if depth < positions.length then positions[depth]?
        else stopOf (depth - positions.length) rest := by
  induction positions generalizing depth with
  | nil => simp
  | cons p positions ih =>
    cases depth with
    | zero => simp [stopOf]
    | succ depth => simp [stopOf, ih]

theorem innerOf_closings_append (depth : Nat) (positions : List Nat) (rest : List Bracket) :
    innerOf depth (positions.map .closing ++ rest)
      = if depth < positions.length then 0 else innerOf (depth - positions.length) rest := by
  induction positions generalizing depth with
  | nil => simp
  | cons p positions ih =>
    cases depth with
    | zero => simp [innerOf]
    | succ depth => simp [innerOf, ih]

theorem elementsOf_closings_append (positions : List Nat) (rest : List Bracket) :
    elementsOf (positions.map .closing ++ rest) = elementsOf rest := by
  induction positions with
  | nil => rfl
  | cons p positions ih => exact ih

/-! ## What is open -/

theorem isBalancedFrom_stretch_append (opened : List Mark) (block : Text) (a b : Nat)
    (rest : List Mark) :
    isBalancedFrom opened (stretch block a b ++ rest) = isBalancedFrom opened rest := by
  rw [stretch]
  split
  · rw [List.singleton_append, isBalancedFrom]
  · rfl

theorem isBalancedFrom_begins_append {marks : List Mark} (h : ∀ m ∈ marks, m.isBegin = true)
    (opened rest : List Mark) :
    isBalancedFrom opened (marks ++ rest) = isBalancedFrom (marks.reverse ++ opened) rest := by
  induction marks generalizing opened with
  | nil => rfl
  | cons m marks ih =>
    obtain ⟨hm, hmarks⟩ := List.forall_mem_cons.mp h
    have hstep : isBalancedFrom opened (m :: (marks ++ rest))
        = isBalancedFrom (m :: opened) (marks ++ rest) := by
      cases m <;> simp_all [isBegin, isBalancedFrom]
    rw [List.cons_append, hstep, ih hmarks, List.reverse_cons, List.append_assoc,
      List.singleton_append]

theorem isBalancedFrom_ends_append (frames : List Mark)
    (h : ∀ m ∈ frames, endEntity.isEndOf m = true) (opened rest : List Mark) :
    isBalancedFrom (frames ++ opened) (List.replicate frames.length .endEntity ++ rest)
      = isBalancedFrom opened rest := by
  induction frames with
  | nil => rfl
  | cons m frames ih =>
    obtain ⟨hm, hframes⟩ := List.forall_mem_cons.mp h
    have hstep : ∀ xs ys, isBalancedFrom (m :: xs) (.endEntity :: ys) = isBalancedFrom xs ys := by
      intro xs ys
      simp [isBalancedFrom, isBegin, hm]
    rw [List.length_cons, List.replicate_succ, List.cons_append, List.cons_append, hstep,
      ih hframes]

end EntityMarkup.Mark
