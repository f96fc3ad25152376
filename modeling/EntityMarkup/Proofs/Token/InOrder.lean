import EntityMarkup.Proofs.Token.Tiling

/-!
# Tokens lie in order

Rendering copies a block from one token to the next, and that is right only where the tokens of a
block lie one behind the other and can be cut out of it. `Text.InOrder` says so of byte ranges, from
an offset on; `Text.reach` is the offset at which they end.

* `inOrder_append`: ranges lie in order when two parts of them do, the second behind the first.
* **`inOrder_sentences`**: the tokens of all sentences of a block lie in order, in both input
  formats.
* `length_flatten_sentences_le`: a block has no more tokens than bytes.
-/

namespace EntityMarkup

/-! ## Ranges in order -/

namespace Text

/-- Byte ranges that lie in a text one behind the other, from an offset on. None of them is empty,
and each can be cut out. -/
def InOrder (t : Text) : Nat → List (Nat × Nat) → Prop
  | _, [] => True
  | n, r :: rest => n ≤ r.1 ∧ r.1 < r.2 ∧ t.IsBoundary r.1 ∧ t.IsBoundary r.2 ∧ InOrder t r.2 rest

/-- The offset at which ranges end, or the one from which they were to lie if there are none. -/
def reach : Nat → List (Nat × Nat) → Nat
  | n, [] => n
  | _, r :: rest => reach r.2 rest

variable {t : Text} {n m : Nat} {xs ys : List (Nat × Nat)}

theorem InOrder.mono (h : t.InOrder n xs) (hle : m ≤ n) : t.InOrder m xs := by
  cases xs with
  | nil => trivial
  | cons r rest => exact ⟨hle.trans h.1, h.2⟩

theorem inOrder_append : t.InOrder n (xs ++ ys) ↔ t.InOrder n xs ∧ t.InOrder (reach n xs) ys := by
  induction xs generalizing n with
  | nil => simp [InOrder, reach]
  | cons r rest ih =>
    rw [List.cons_append, InOrder, InOrder, reach, ih]
    tauto

theorem reach_append : reach n (xs ++ ys) = reach (reach n xs) ys := by
  induction xs generalizing n with
  | nil => rfl
  | cons r rest ih => exact ih

theorem InOrder.le_reach (h : t.InOrder n xs) : n ≤ reach n xs := by
  induction xs generalizing n with
  | nil => exact le_refl n
  | cons r rest ih =>
    obtain ⟨hn, hr, -, -, hrest⟩ := h
    exact (hn.trans hr.le).trans (ih hrest)

theorem InOrder.isBoundary_reach (h : t.InOrder n xs) (hn : t.IsBoundary n) :
    t.IsBoundary (reach n xs) := by
  induction xs generalizing n with
  | nil => exact hn
  | cons r rest ih =>
    obtain ⟨-, -, -, hstop, hrest⟩ := h
    exact ih hrest hstop

/-- Ranges are not empty, so they take a byte each. -/
theorem InOrder.add_length_le_reach (h : t.InOrder n xs) : n + xs.length ≤ reach n xs := by
  induction xs generalizing n with
  | nil => exact le_refl n
  | cons r rest ih =>
    obtain ⟨hn, hr, -, -, hrest⟩ := h
    have hle := ih hrest
    rw [reach, List.length_cons]
    omega

theorem InOrder.of_mem (h : t.InOrder n xs) {r : Nat × Nat} (hr : r ∈ xs) :
    n ≤ r.1 ∧ r.1 < r.2 ∧ t.IsBoundary r.1 ∧ t.IsBoundary r.2 ∧ r.2 ≤ reach n xs := by
  induction xs generalizing n with
  | nil => exact absurd hr List.not_mem_nil
  | cons x rest ih =>
    obtain ⟨hn, hx, hstart, hstop, hrest⟩ := h
    rcases List.mem_cons.mp hr with rfl | hr
    · exact ⟨hn, hx, hstart, hstop, hrest.le_reach⟩
    · obtain ⟨hle, hr⟩ := ih hrest hr
      exact ⟨(hn.trans hx.le).trans hle, hr⟩

end Text

/-- The byte range of a token. -/
def Token.range (t : Token) : Nat × Nat :=
  (t.start, t.stop)

/-- The byte range of a piece. -/
def Placed.range (p : Placed) : Nat × Nat :=
  (p.start, p.stop)

/-! ## Both tokenizers -/

/-- Pieces that tile a text lie in order in it, whatever stands before the text. -/
theorem Text.Tiled.inOrder {gap : Char → Bool} {n : Nat} {t : Text} {ps : List Placed}
    (h : Tiled gap n t ps) (pre : Text) (hn : pre.size = n) :
    (pre ++ t).InOrder n (ps.map Placed.range) := by
  induction ps generalizing n t pre with
  | nil => trivial
  | cons p rest ih =>
    obtain ⟨before, after, rfl, -, hstart, hne, hrest⟩ := h
    have hpos : p.form.size ≠ 0 := fun h => hne (size_eq_zero_iff.mp h)
    have hsize : size (pre ++ before) = p.start := by
      rw [size_append, hn, hstart]
    have hstop : size (pre ++ before ++ p.form) = p.stop := by
      rw [size_append, hsize, Placed.stop]
    have htext : pre ++ (before ++ (p.form ++ after)) = pre ++ before ++ p.form ++ after := by
      simp only [List.append_assoc]
    rw [htext]
    refine ⟨?_, ?_, ⟨pre ++ before, p.form ++ after, List.append_assoc .., hsize⟩,
      ⟨_, after, rfl, hstop⟩, ih hrest _ hstop⟩
    · simp only [Placed.range]
      omega
    · simp only [Placed.range, Placed.stop]
      omega

theorem Running.inOrder_words (t : Text) : t.InOrder 0 ((words t).map Placed.range) :=
  (tiled_words t).inOrder [] rfl

/-- **The tokens of a block lie in order**, whatever the format of the input. -/
theorem InputFormat.inOrder_sentences (format : InputFormat) (t : Text) :
    t.InOrder 0 ((format.sentences t).flatten.map Token.range) := by
  have hrange : (format.sentences t).flatten.map Token.range
      = ((format.sentences t).flatten.map Token.piece).map Placed.range := by
    rw [List.map_map]
    refine List.map_congr_left fun token htoken => ?_
    rw [Token.range, ← stop_piece htoken]
    rfl
  rw [hrange]
  exact (format.tiled_sentences t).inOrder [] rfl

theorem Listed.inOrder_sentences (t : Text) :
    t.InOrder 0 ((sentences t).flatten.map Token.range) :=
  InputFormat.inOrder_sentences .vertical t

/-- A block has no more tokens than bytes. -/
theorem InputFormat.length_flatten_sentences_le (format : InputFormat) (t : Text) :
    (format.sentences t).flatten.length ≤ t.size := by
  have hin := format.inOrder_sentences t
  have hreach := (hin.isBoundary_reach (Text.isBoundary_zero t)).le_size
  have hle := hin.add_length_le_reach
  rw [List.length_map] at hle
  omega

end EntityMarkup
