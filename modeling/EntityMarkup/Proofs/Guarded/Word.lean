import EntityMarkup.Proofs.Text.Boundary
import Mathlib.Algebra.Ring.Nat

/-!
# Operations that can fail

A machine counts in words of 64 bits, indexes lists where they have elements, and cuts a text where
a character ends. It would stop at a sum that is no word, at a difference below zero, at an index
behind the end of a list, and at ends between which there is no slice. The operations here yield
nothing in these cases, as `Text.slice?` and the indexing of lists do anyway.

The other modules of this folder set beside a function `f` a function `f?` that does what `f` does,
with operations that can fail wherever a machine has them. That `f?` yields what `f` yields says
that none of them fails.

* `add?_of_lt`, `sub?_of_le`, `IsBoundary.slice?_eq`: when an operation does not fail.
* `mapM_eq_some`, `foldlM_eq_some`: when none does in a whole list.
-/

namespace EntityMarkup

namespace Word

/-- The number of words. -/
def bound : Nat :=
  2 ^ 64

/-- A sum, if it is a word. -/
def add? (a b : Nat) : Option Nat :=
  if a + b < bound then some (a + b) else none

/-- A difference, if it is not below zero. -/
def sub? (a b : Nat) : Option Nat :=
  if b ≤ a then some (a - b) else none

theorem add?_of_lt {a b : Nat} (h : a + b < bound) : add? a b = some (a + b) :=
  if_pos h

theorem sub?_of_le {a b : Nat} (h : b ≤ a) : sub? a b = some (a - b) :=
  if_pos h

end Word

theorem Text.IsBoundary.slice?_eq {t : Text} {a b : Nat} (ha : t.IsBoundary a)
    (hb : t.IsBoundary b) (hab : a ≤ b) : t.slice? a b = some (t.slice a b) := by
  obtain ⟨u, v, ht, hu, hs⟩ := ha.exists_slice hb hab
  exact slice?_eq_some_iff.mpr ⟨u, v, ht, hu, hs⟩

/-- Inside a character there is none. -/
example : Text.slice? ['é'] 0 1 = none := by decide

/-! ## Lists -/

section Lists

variable {α β : Type}

theorem mapM_eq_some {f? : α → Option β} {f : α → β} {xs : List α}
    (h : ∀ x ∈ xs, f? x = some (f x)) : xs.mapM f? = some (xs.map f) := by
  induction xs with
  | nil => rfl
  | cons x rest ih =>
    obtain ⟨hx, hrest⟩ := List.forall_mem_cons.mp h
    simp [hx, ih hrest]

/-- No step fails if the first one does not and each of them keeps what the next one needs. -/
theorem foldlM_eq_some {f? : β → α → Option β} {f : β → α → β} {P : β → Prop} {xs : List α}
    (h : ∀ b, P b → ∀ x ∈ xs, f? b x = some (f b x) ∧ P (f b x)) {b : β} (hb : P b) :
    xs.foldlM f? b = some (xs.foldl f b) ∧ P (xs.foldl f b) := by
  induction xs generalizing b with
  | nil => exact ⟨rfl, hb⟩
  | cons x rest ih =>
    obtain ⟨hx, hkept⟩ := h b hb x List.mem_cons_self
    rw [List.foldlM_cons, hx, List.foldl_cons]
    exact ih (fun b hb y hy => h b hb y (List.mem_cons_of_mem x hy)) hkept

end Lists

end EntityMarkup
