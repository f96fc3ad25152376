import EntityMarkup.Recognizer
import Mathlib.Tactic.Common

/-!
# Labels in ascending order

The labels that a recognizer names are in the order of their characters, which is that of the bytes
they are encoded in: UTF-8 keeps the order of code points. An ascending list holds each label once
and is told by what it holds.

* `Text.utf8_lt_utf8`: the encoded forms of two texts are in the order of the texts.
* `mem_ascendingLabels`, `pairwise_ascendingLabels`: all given labels, in ascending order.
* **`eq_of_ascending`**: two ascending lists that hold the same labels are one list.
-/

namespace EntityMarkup

/-! ## The order of encoded text -/

/-- Of two numbers the smaller has the smaller quotient, or the same quotient and the smaller
remainder. -/
theorem div_lt_or_mod_lt {m n : Nat} (h : m < n) (k : Nat) :
    m / k < n / k ∨ m / k = n / k ∧ m % k < n % k := by
  rcases Nat.lt_or_eq_of_le (Nat.div_le_div_right (c := k) (Nat.le_of_lt h)) with hlt | heq
  · exact Or.inl hlt
  · have hm := Nat.div_add_mod m k
    have hn := Nat.div_add_mod n k
    rw [heq] at hm
    exact Or.inr ⟨heq, by omega⟩

/-- The encoded forms of two characters differ in a byte, and the first such byte is in the order of
the characters. -/
theorem Text.utf8EncodeChar_append_lt {c d : Char} (h : c < d) (x y : Bytes) :
    String.utf8EncodeChar c ++ x < String.utf8EncodeChar d ++ y := by
  have hlt : c.val.toNat < d.val.toNat := h
  -- in which of the groups of six bits the code points differ first
  have hlow := div_lt_or_mod_lt hlt 64
  have hmiddle : c.val.toNat / 64 < d.val.toNat / 64 → _ := fun h => div_lt_or_mod_lt h 64
  have hhigh : c.val.toNat / 4096 < d.val.toNat / 4096 → _ := fun h => div_lt_or_mod_lt h 64
  simp only [Nat.div_div_eq_div_mul, Nat.reduceMul] at hmiddle hhigh
  have hbyte : ∀ n, (n % 64 + 128) % 256 = n % 64 + 128 := by omega
  have hlead : ∀ c : Char,
      (c.val.toNat / 262144 % 8 + 240) % 256 = c.val.toNat / 262144 + 240 := by
    intro c
    have hvalid := c.valid
    unfold UInt32.isValidChar Nat.isValidChar at hvalid
    omega
  unfold String.utf8EncodeChar
  simp only
  split_ifs <;> simp only [List.cons_append, List.nil_append, List.cons_lt_cons_iff,
    UInt8.lt_iff_toNat_lt, ← UInt8.toNat_inj, UInt8.toNat_ofNat', Nat.reducePow, hlead, hbyte] <;>
    omega

theorem append_lt_append_left {α : Type} [LT α] {x y : List α} (h : x < y) (front : List α) :
    front ++ x < front ++ y := by
  induction front with
  | nil => exact h
  | cons a front ih => exact List.cons_lt_cons_iff.mpr (Or.inr ⟨rfl, ih⟩)

/-- **The encoded forms of two texts are in the order of the texts.** -/
theorem Text.utf8_lt_utf8 {t u : Text} (h : t < u) : t.utf8 < u.utf8 := by
  induction t generalizing u with
  | nil =>
    cases u with
    | nil => exact absurd h (List.lt_irrefl _)
    | cons d u =>
      obtain ⟨byte, bytes, hbytes⟩ :=
        List.exists_cons_of_ne_nil (l := utf8 (d :: u)) (by simp [utf8])
      rw [hbytes]
      exact List.nil_lt_cons byte bytes
  | cons c t ih =>
    cases u with
    | nil => exact absurd h (List.not_lt_nil _)
    | cons d u =>
      rcases List.cons_lt_cons_iff.mp h with hlt | ⟨rfl, hlt⟩
      · exact utf8EncodeChar_append_lt hlt (utf8 t) (utf8 u)
      · exact append_lt_append_left (ih hlt) (String.utf8EncodeChar c)

/-! ## Lists of labels -/

variable {label l : String} {labels labels' : List String}

theorem mem_insertLabel : l ∈ insertLabel label labels ↔ l = label ∨ l ∈ labels := by
  induction labels with
  | nil => rw [insertLabel, List.mem_singleton, or_iff_left List.not_mem_nil]
  | cons other rest ih =>
    rw [insertLabel]
    split
    · exact List.mem_cons
    · split
      · rename_i heq
        rw [heq, List.mem_cons, or_self_left]
      · rw [List.mem_cons, ih, List.mem_cons, or_left_comm]

theorem pairwise_insertLabel (h : labels.Pairwise (· < ·)) :
    (insertLabel label labels).Pairwise (· < ·) := by
  induction labels with
  | nil => exact List.pairwise_singleton _ _
  | cons other rest ih =>
    obtain ⟨hother, hrest⟩ := List.pairwise_cons.mp h
    rw [insertLabel]
    split
    · rename_i hlt
      refine List.pairwise_cons.mpr ⟨List.forall_mem_cons.mpr ⟨hlt, fun l hl => ?_⟩, h⟩
      exact String.lt_trans hlt (hother l hl)
    · split
      · exact h
      · rename_i hlt hne
        refine List.pairwise_cons.mpr ⟨fun l hl => ?_, ih hrest⟩
        rcases mem_insertLabel.mp hl with rfl | hl
        · exact Decidable.not_not.mp fun h => hne (String.le_antisymm h hlt)
        · exact hother l hl

theorem mem_ascendingLabels : l ∈ ascendingLabels labels ↔ l ∈ labels := by
  induction labels with
  | nil => rfl
  | cons label rest ih =>
    have hcons : ascendingLabels (label :: rest) = insertLabel label (ascendingLabels rest) := rfl
    rw [hcons, mem_insertLabel, ih, List.mem_cons]

theorem pairwise_ascendingLabels (labels : List String) :
    (ascendingLabels labels).Pairwise (· < ·) := by
  induction labels with
  | nil => exact List.Pairwise.nil
  | cons label rest ih => exact pairwise_insertLabel ih

/-- **Two ascending lists that hold the same labels are one list.** -/
theorem eq_of_ascending (h : labels.Pairwise (· < ·)) (h' : labels'.Pairwise (· < ·))
    (hmem : ∀ l, l ∈ labels ↔ l ∈ labels') : labels = labels' := by
  have hne : ∀ a b : String, a < b → a ≠ b := fun a b hlt heq => String.lt_irrefl b (heq ▸ hlt)
  have hnodup := h.imp fun {a b} => hne a b
  have hnodup' := h'.imp fun {a b} => hne a b
  refine List.Perm.eq_of_pairwise (fun a b _ _ hab hba => ?_) h h'
    ((List.perm_ext_iff_of_nodup hnodup hnodup').mpr hmem)
  exact absurd hba (String.lt_asymm hab)

end EntityMarkup
