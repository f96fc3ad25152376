import EntityMarkup.Proofs.Entity.Nesting
import EntityMarkup.Proofs.Render.Sentences
import Mathlib.Data.List.NodupEquivFin

/-!
# The first crossing pair is the first

In terms of tokens, two entities cross if they share one while each covers one that the other does
not (`Interlocks`). `CrossingAt` says of two positions in a list that such entities stand there.

The search for a crossing pair goes through the entities, and looks for each of them only at those
after it that begin before it ends. Whatever the order of the list is, what it finds is a crossing
pair. In the order of rendering all entities that overlap the first one are among those it looks at.
The search is then exhaustive, and finds the pair whose first entity comes first and, of those, the
one whose second entity does.

* `crosses_iff_interlocks`: crossing, in terms of tokens.
* `exists_crossingAt_of_firstCrossing?`: what is found is a crossing pair.
* `firstCrossing?_eq_none_iff_crossingAt`, `firstCrossing?_eq_some_iff_leastCrossingAt`: what is
  found in the order of rendering.
* **`firstCrossing?_finds_least`**: all of this, and that it depends on the entities of a sentence
  alone, not on their order, whether they pass the check.
-/

namespace EntityMarkup.Entity

variable {a b c a' b' : Entity} {es : List Entity} {i j i' j' : Nat}

/-! ## Crossing, in terms of tokens -/

/-- A token is one of those of an entity. -/
def Covers (e : Entity) (i : Nat) : Prop :=
  e.start ≤ i ∧ i < e.stop

/-- Two entities share a token, and each covers one that the other does not. -/
structure Interlocks (a b : Entity) : Prop where
  shared : ∃ i, a.Covers i ∧ b.Covers i
  left : ∃ i, a.Covers i ∧ ¬ b.Covers i
  right : ∃ i, b.Covers i ∧ ¬ a.Covers i

theorem crosses_iff_interlocks : a.crosses b = true ↔ a.Interlocks b := by
  rw [crosses_iff]
  constructor
  · rintro (⟨hstart, hshared, hstop⟩ | ⟨hstart, hshared, hstop⟩)
    · exact ⟨⟨b.start, by unfold Covers; omega⟩, ⟨a.start, by unfold Covers; omega⟩,
        ⟨a.stop, by unfold Covers; omega⟩⟩
    · exact ⟨⟨a.start, by unfold Covers; omega⟩, ⟨b.stop, by unfold Covers; omega⟩,
        ⟨b.start, by unfold Covers; omega⟩⟩
  · rintro ⟨⟨i, hai, hbi⟩, ⟨j, haj, hbj⟩, ⟨k, hbk, hak⟩⟩
    unfold Covers at hai hbi haj hbj hbk hak
    omega

/-! ## Positions -/

/-- At two positions of a list, one before the other, there are entities that cross. -/
structure CrossingAt (es : List Entity) (i j : Nat) (a b : Entity) : Prop where
  lt : i < j
  first : es[i]? = some a
  second : es[j]? = some b
  interlocks : a.Interlocks b

/-- The two positions are the first ones of which that is so: no other pair has an earlier first
position, and none with the same first position an earlier second one. -/
structure LeastCrossingAt (es : List Entity) (i j : Nat) (a b : Entity) : Prop
    extends CrossingAt es i j a b where
  least : ∀ i' j' a' b', CrossingAt es i' j' a' b' → i < i' ∨ i = i' ∧ j ≤ j'

theorem crossingAt_cons_iff :
    CrossingAt (c :: es) i j a b ↔
      (i = 0 ∧ a = c ∧ ∃ k, j = k + 1 ∧ es[k]? = some b ∧ c.Interlocks b) ∨
        ∃ i' j', i = i' + 1 ∧ j = j' + 1 ∧ CrossingAt es i' j' a b := by
  constructor
  · rintro ⟨hlt, hfirst, hsecond, hinterlocks⟩
    obtain ⟨k, rfl⟩ := Nat.exists_eq_add_of_lt (Nat.zero_lt_of_lt hlt)
    rw [Nat.zero_add, List.getElem?_cons_succ] at hsecond
    cases i with
    | zero =>
      obtain rfl := Option.some.inj hfirst
      exact Or.inl ⟨rfl, rfl, k, by omega, hsecond, hinterlocks⟩
    | succ i => exact Or.inr ⟨i, k, rfl, by omega, by omega, hfirst, hsecond, hinterlocks⟩
  · rintro (⟨rfl, rfl, k, rfl, hsecond, hinterlocks⟩ | ⟨i, j, rfl, rfl, h⟩)
    · exact ⟨Nat.succ_pos k, rfl, hsecond, hinterlocks⟩
    · exact ⟨Nat.succ_lt_succ h.lt, h.first, h.second, h.interlocks⟩

theorem LeastCrossingAt.eq (h : LeastCrossingAt es i j a b) (h' : LeastCrossingAt es i' j' a' b') :
    a = a' ∧ b = b' := by
  have hle := h.least _ _ _ _ h'.toCrossingAt
  have hle' := h'.least _ _ _ _ h.toCrossingAt
  obtain rfl : i = i' := by omega
  obtain rfl : j = j' := by omega
  exact ⟨Option.some.inj (h.first.symm.trans h'.first),
    Option.some.inj (h.second.symm.trans h'.second)⟩

theorem pairwise_crosses_iff :
    (es.Pairwise fun a b => a.crosses b = false) ↔ ∀ i j a b, ¬ CrossingAt es i j a b := by
  rw [List.pairwise_iff_getElem]
  constructor
  · rintro h i j a b ⟨hlt, hfirst, hsecond, hinterlocks⟩
    obtain ⟨hi, rfl⟩ := List.getElem?_eq_some_iff.mp hfirst
    obtain ⟨hj, rfl⟩ := List.getElem?_eq_some_iff.mp hsecond
    have hcross := crosses_iff_interlocks.mpr hinterlocks
    rw [h i j hi hj hlt] at hcross
    cases hcross
  · intro h i j hi hj hlt
    refine Bool.eq_false_iff.mpr fun hcross => h i j es[i] es[j] ?_
    exact ⟨hlt, List.getElem?_eq_getElem hi, List.getElem?_eq_getElem hj,
      crosses_iff_interlocks.mp hcross⟩

/-! ## What is found -/

theorem exists_crossingAt_of_firstCrossing? (h : firstCrossing? es = some (a, b)) :
    ∃ i j, CrossingAt es i j a b := by
  obtain ⟨hsub, hcross⟩ := sublist_of_firstCrossing? h
  obtain ⟨position, hposition⟩ := List.sublist_iff_exists_orderEmbedding_getElem?_eq.mp hsub
  exact ⟨position 0, position 1, position.strictMono Nat.one_pos, (hposition 0).symm,
    (hposition 1).symm, crosses_iff_interlocks.mp hcross⟩

section Sorted

variable (h : es.Pairwise fun a b => a.mayPrecede b = true)

include h

theorem firstCrossing?_eq_none_iff_crossingAt :
    firstCrossing? es = none ↔ ∀ i j a b, ¬ CrossingAt es i j a b :=
  (firstCrossing?_eq_none_iff h).trans pairwise_crosses_iff

theorem exists_leastCrossingAt_of_firstCrossing? (hfound : firstCrossing? es = some (a, b)) :
    ∃ i j, LeastCrossingAt es i j a b := by
  induction es with
  | nil => cases hfound
  | cons outer rest ih =>
    obtain ⟨-, hrest⟩ := List.pairwise_cons.mp h
    rw [firstCrossing?_cons_of_pairwise h] at hfound
    cases hfind : rest.find? outer.crosses with
    | some inner =>
      rw [hfind] at hfound
      obtain ⟨rfl, rfl⟩ := Prod.mk.inj (Option.some.inj hfound)
      obtain ⟨hcross, k, hk, rfl, hbefore⟩ := List.find?_eq_some_iff_getElem.mp hfind
      have hat : CrossingAt (outer :: rest) 0 (k + 1) outer rest[k] :=
        crossingAt_cons_iff.mpr (Or.inl ⟨rfl, rfl, k, rfl, List.getElem?_eq_getElem hk,
          crosses_iff_interlocks.mp hcross⟩)
      refine ⟨0, k + 1, hat, fun i' j' a' b' hat' => ?_⟩
      rcases crossingAt_cons_iff.mp hat' with ⟨rfl, -, m, rfl, hm, hinterlocks⟩ | ⟨i, -, rfl, -, -⟩
      · -- what comes before the entity that was found does not cross the first one
        refine Or.inr ⟨rfl, Nat.succ_le_succ (Nat.le_of_not_lt fun hlt => ?_)⟩
        obtain ⟨hm, rfl⟩ := List.getElem?_eq_some_iff.mp hm
        have hnot := hbefore m hlt
        rw [crosses_iff_interlocks.mpr hinterlocks] at hnot
        cases hnot
      · exact Or.inl (Nat.succ_pos i)
    | none =>
      rw [hfind] at hfound
      obtain ⟨i, j, hat⟩ := ih hrest hfound
      refine ⟨i + 1, j + 1, crossingAt_cons_iff.mpr (Or.inr ⟨i, j, rfl, rfl, hat.toCrossingAt⟩),
        fun i' j' a' b' hat' => ?_⟩
      rcases crossingAt_cons_iff.mp hat' with ⟨-, -, m, -, hm, hinterlocks⟩ | ⟨m, n, rfl, rfl, hmn⟩
      · -- the first entity crosses none
        exact absurd (crosses_iff_interlocks.mpr hinterlocks)
          (List.find?_eq_none.mp hfind b' (List.mem_of_getElem? hm))
      · have hle := hat.least m n a' b' hmn
        omega

/-- In the order of rendering it is the first crossing pair that is found. -/
theorem firstCrossing?_eq_some_iff_leastCrossingAt :
    firstCrossing? es = some (a, b) ↔ ∃ i j, LeastCrossingAt es i j a b := by
  refine ⟨exists_leastCrossingAt_of_firstCrossing? h, ?_⟩
  rintro ⟨i, j, hat⟩
  cases hfound : firstCrossing? es with
  | none =>
    exact absurd hat.toCrossingAt ((firstCrossing?_eq_none_iff_crossingAt h).mp hfound i j a b)
  | some pair =>
    obtain ⟨a', b'⟩ := pair
    obtain ⟨i', j', hat'⟩ := exists_leastCrossingAt_of_firstCrossing? h hfound
    obtain ⟨rfl, rfl⟩ := hat.eq hat'
    rfl

end Sorted

/-- No order of the entities of a sentence has a crossing pair if one has none. -/
theorem firstCrossing?_sort_eq_none_iff_of_perm {es' : List Entity} (hperm : es'.Perm es) :
    firstCrossing? (sort es') = none ↔ ∀ i j a b, ¬ CrossingAt es i j a b := by
  rw [firstCrossing?_eq_none_iff (pairwise_sort es'), ← pairwise_crosses_iff]
  exact ((sort_perm es').trans hperm).pairwise_iff fun {a b} h => (crosses_comm b a).trans h

/-- **The search for a crossing pair.** In a list in any order, what is found are two entities that
cross, at positions one before the other. In the order of rendering nothing is found exactly if no
two entities cross, and what is found is the first crossing pair by its first position and then by
its second one. Whether a sentence passes the check, whatever the policy is, depends on its entities
alone: it does in any order in which they are given, or in none. -/
theorem firstCrossing?_finds_least (es : List Entity) :
    (∀ a b, firstCrossing? es = some (a, b) → ∃ i j, CrossingAt es i j a b) ∧
    ((es.Pairwise fun a b => a.renderOrder b ≠ .gt) →
      (firstCrossing? es = none ↔ ∀ i j a b, ¬ CrossingAt es i j a b) ∧
      ∀ a b, firstCrossing? es = some (a, b) ↔ ∃ i j, LeastCrossingAt es i j a b) ∧
    ∀ policy es', es'.Perm es →
      (Renderer.checkCrossing policy (sort es') = .ok [] ↔ ∀ i j a b, ¬ CrossingAt es i j a b) := by
  refine ⟨fun a b => exists_crossingAt_of_firstCrossing?, fun h => ?_, fun policy es' hperm => ?_⟩
  · have hsorted : es.Pairwise fun a b => a.mayPrecede b = true :=
      h.imp fun {a b} hab => bne_iff_ne.mpr hab
    exact ⟨firstCrossing?_eq_none_iff_crossingAt hsorted,
      fun a b => firstCrossing?_eq_some_iff_leastCrossingAt hsorted⟩
  · rw [Renderer.checkCrossing_eq_ok_nil_iff]
    exact firstCrossing?_sort_eq_none_iff_of_perm hperm

/-- Of three entities each of which crosses another, the first and the last are found, and the
second, which lies in the first, is not; nor do they pass in another order. -/
theorem firstCrossing?_finds_least_nested :
    let es : List Entity := [⟨0, 4, "A"⟩, ⟨1, 2, "B"⟩, ⟨2, 3, "C"⟩]
    (es.Pairwise fun a b => a.renderOrder b ≠ .gt) ∧
      (∃ i j, LeastCrossingAt es i j ⟨0, 4, "A"⟩ ⟨2, 3, "C"⟩) ∧
      es.reverse.Perm es ∧ Renderer.checkCrossing .warn (sort es.reverse) ≠ .ok [] := by
  intro es
  have hsorted : es.Pairwise fun a b => a.renderOrder b ≠ .gt := by decide
  obtain ⟨-, hfinds, hcheck⟩ := firstCrossing?_finds_least es
  have hleast := ((hfinds hsorted).2 ⟨0, 4, "A"⟩ ⟨2, 3, "C"⟩).mp (by decide)
  have hperm : es.reverse.Perm es := List.reverse_perm es
  refine ⟨hsorted, hleast, hperm, fun hpass => ?_⟩
  obtain ⟨i, j, hat⟩ := hleast
  exact (hcheck .warn es.reverse hperm).mp hpass i j _ _ hat.toCrossingAt

end EntityMarkup.Entity
