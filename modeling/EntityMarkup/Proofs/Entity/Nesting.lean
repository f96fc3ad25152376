import EntityMarkup.Entity.Crossing
import EntityMarkup.Entity.Order

/-!
# Entities in the order of rendering

`sort` only rearranges the entities, and puts each two of them in the order of rendering. In that
order an entity can be looked at together with the one before it: the later one begins no earlier,
and if the two do not cross it lies behind the earlier one or inside it (`Nests`).

* **`pairwise_sort`**: each two sorted entities are in the order of rendering.
* `crosses_iff`: of two crossing entities the one that begins first ends inside the other.
* `firstCrossing?_cons_of_pairwise`: in that order the search for a crossing pair loses nothing by
  looking only at entities that begin early enough.
* **`firstCrossing?_eq_none_iff`**: the search for a crossing pair misses none in sorted lists.
* `sublist_of_firstCrossing?`: what it finds is a crossing pair in any list.
* `pairwise_nests`: sorted entities of which no two cross are nested.
-/

namespace EntityMarkup.Entity

variable {a b c : Entity} {es : List Entity}

/-! ## Sorting -/

theorem mayPrecede_iff :
    a.mayPrecede b = true ↔ a.start < b.start ∨ a.start = b.start ∧ b.length ≤ a.length := by
  rw [mayPrecede, renderOrder, bne_iff_ne]
  rcases Nat.lt_trichotomy a.start b.start with h | h | h
  · rw [Nat.compare_eq_lt.mpr h]
    exact ⟨fun _ => Or.inl h, fun _ => nofun⟩
  · rw [Nat.compare_eq_eq.mpr h, Ordering.eq_then, Nat.compare_ne_gt]
    omega
  · rw [Nat.compare_eq_gt.mpr h]
    exact ⟨fun hne => absurd rfl hne, by omega⟩

theorem start_le_of_mayPrecede (h : a.mayPrecede b = true) : a.start ≤ b.start := by
  rcases mayPrecede_iff.mp h with h | h
  · exact Nat.le_of_lt h
  · exact Nat.le_of_eq h.1

theorem mayPrecede_trans (hab : a.mayPrecede b = true) (hbc : b.mayPrecede c = true) :
    a.mayPrecede c = true := by
  rw [mayPrecede_iff] at *
  omega

theorem mayPrecede_total (a b : Entity) : (a.mayPrecede b || b.mayPrecede a) = true := by
  rw [Bool.or_eq_true, mayPrecede_iff, mayPrecede_iff]
  omega

/-- It is enough to compare neighbours. -/
theorem pairwise_of_isSorted (h : isSorted es = true) :
    es.Pairwise fun a b => a.mayPrecede b = true := by
  induction es with
  | nil => exact List.Pairwise.nil
  | cons a es ih =>
    cases es with
    | nil => exact List.pairwise_singleton _ a
    | cons b es =>
      obtain ⟨hab, hrest⟩ := Bool.and_eq_true_iff.mp h
      refine List.pairwise_cons.mpr ⟨fun c hc => ?_, ih hrest⟩
      rcases List.mem_cons.mp hc with rfl | hc
      · exact hab
      · exact mayPrecede_trans hab ((List.pairwise_cons.mp (ih hrest)).1 c hc)

theorem sort_perm (es : List Entity) : (sort es).Perm es := by
  rw [sort]
  split
  · exact List.Perm.refl es
  · exact List.mergeSort_perm es mayPrecede

@[simp] theorem mem_sort : a ∈ sort es ↔ a ∈ es :=
  (sort_perm es).mem_iff

/-- **Each two sorted entities are in the order of rendering.** -/
theorem pairwise_sort (es : List Entity) :
    (sort es).Pairwise fun a b => a.mayPrecede b = true := by
  rw [sort]
  split
  · rename_i h
    exact pairwise_of_isSorted h
  · exact @List.pairwise_mergeSort Entity mayPrecede (fun _ _ _ => mayPrecede_trans)
      mayPrecede_total es

/-! ## Crossing -/

/-- Of two crossing entities the one that begins first ends inside the other. -/
theorem crosses_iff :
    a.crosses b = true ↔
      a.start < b.start ∧ b.start < a.stop ∧ a.stop < b.stop ∨
        b.start < a.start ∧ a.start < b.stop ∧ b.stop < a.stop := by
  simp only [crosses, overlaps, contains, Bool.and_eq_true, Bool.not_eq_true', Bool.or_eq_false_iff,
    Bool.and_eq_false_iff, decide_eq_true_eq, decide_eq_false_iff_not]
  omega

theorem crosses_comm (a b : Entity) : a.crosses b = b.crosses a := by
  rw [Bool.eq_iff_iff, crosses_iff, crosses_iff]
  exact or_comm

theorem crosses_self (a : Entity) : a.crosses a = false := by
  rw [Bool.eq_false_iff, ne_eq, crosses_iff]
  omega

theorem crosses_eq_false_of_stop_le (h : a.stop ≤ b.start) : a.crosses b = false := by
  simp only [crosses, overlaps, decide_eq_false (Nat.not_lt_of_le h), Bool.and_false,
    Bool.false_and]

/-- The entities that begin before another has ended come first, and none of the others crosses
it. -/
theorem find?_takeWhile_crosses (h : es.Pairwise fun a b => a.mayPrecede b = true) (a : Entity) :
    (es.takeWhile fun e => decide (e.start < a.stop)).find? a.crosses = es.find? a.crosses := by
  induction es with
  | nil => rfl
  | cons b es ih =>
    obtain ⟨hb, hes⟩ := List.pairwise_cons.mp h
    by_cases hlt : b.start < a.stop
    · rw [List.takeWhile_cons_of_pos (by simpa using hlt), List.find?_cons, List.find?_cons,
        ih hes]
    · rw [List.takeWhile_cons_of_neg (by simpa using hlt), List.find?_nil, eq_comm,
        List.find?_eq_none]
      intro e he
      have hstart : a.stop ≤ e.start := by
        rcases List.mem_cons.mp he with rfl | he
        · exact Nat.le_of_not_lt hlt
        · exact Nat.le_trans (Nat.le_of_not_lt hlt) (start_le_of_mayPrecede (hb e he))
      rw [crosses_eq_false_of_stop_le hstart]
      exact Bool.false_ne_true

/-- **In the order of rendering nothing is lost** by looking only at entities that begin early
enough. -/
theorem firstCrossing?_cons_of_pairwise
    (h : (a :: es).Pairwise fun a b => a.mayPrecede b = true) :
    firstCrossing? (a :: es) =
      match es.find? a.crosses with
      | some b => some (a, b)
      | none => firstCrossing? es := by
  have hfind := find?_takeWhile_crosses (List.pairwise_cons.mp h).2 a
  cases hcross : es.find? a.crosses with
  | none => rw [firstCrossing?, hfind, hcross]
  | some b => rw [firstCrossing?, hfind, hcross]

/-- **The search for a crossing pair misses none** in lists in the order of rendering. -/
theorem firstCrossing?_eq_none_iff (h : es.Pairwise fun a b => a.mayPrecede b = true) :
    firstCrossing? es = none ↔ es.Pairwise fun a b => a.crosses b = false := by
  induction es with
  | nil => simp [firstCrossing?]
  | cons a es ih =>
    rw [firstCrossing?_cons_of_pairwise h, List.pairwise_cons, ← ih (List.pairwise_cons.mp h).2]
    cases hfind : es.find? a.crosses with
    | none =>
      have hapart : ∀ b ∈ es, a.crosses b = false := fun b hb =>
        Bool.eq_false_iff.mpr (List.find?_eq_none.mp hfind b hb)
      exact ⟨fun hnone => ⟨hapart, hnone⟩, And.right⟩
    | some b =>
      refine ⟨nofun, fun hboth => ?_⟩
      have hcross := hboth.1 b (List.mem_of_find?_eq_some hfind)
      rw [List.find?_some hfind] at hcross
      cases hcross

theorem firstCrossing?_sort_eq_none (h : ∀ a ∈ es, ∀ b ∈ es, a.crosses b = false) :
    firstCrossing? (sort es) = none :=
  (firstCrossing?_eq_none_iff (pairwise_sort es)).mpr
    (List.pairwise_of_forall_mem_list fun a ha b hb => h a (mem_sort.mp ha) b (mem_sort.mp hb))

theorem firstCrossing?_sort_eq_none_iff :
    firstCrossing? (sort es) = none ↔ ∀ a ∈ es, ∀ b ∈ es, a.crosses b = false := by
  refine ⟨fun h a ha b hb => ?_, firstCrossing?_sort_eq_none⟩
  have hpairwise := (firstCrossing?_eq_none_iff (pairwise_sort es)).mp h
  have hflip : (sort es).Pairwise (flip fun a b => a.crosses b = false) :=
    hpairwise.imp fun {a b} hab => (crosses_comm b a).trans hab
  exact hpairwise.forall_of_forall_of_flip (fun a _ => crosses_self a) hflip
    (mem_sort.mpr ha) (mem_sort.mpr hb)

/-- What is found are two entities of the list that cross, one behind the other, whatever the order
of the list is. -/
theorem sublist_of_firstCrossing? (h : firstCrossing? es = some (a, b)) :
    [a, b].Sublist es ∧ a.crosses b = true := by
  induction es with
  | nil => cases h
  | cons outer rest ih =>
    rw [firstCrossing?] at h
    split at h
    · rename_i inner hfind
      obtain ⟨rfl, rfl⟩ := Prod.mk.inj (Option.some.inj h)
      have hmem := (List.takeWhile_sublist _).subset (List.mem_of_find?_eq_some hfind)
      exact ⟨(List.singleton_sublist.mpr hmem).cons_cons _, List.find?_some hfind⟩
    · obtain ⟨hsub, hcross⟩ := ih h
      exact ⟨hsub.cons outer, hcross⟩

theorem crosses_of_firstCrossing? (h : firstCrossing? es = some (a, b)) :
    a ∈ es ∧ b ∈ es ∧ a.crosses b = true := by
  obtain ⟨hsub, hcross⟩ := sublist_of_firstCrossing? h
  exact ⟨hsub.subset List.mem_cons_self,
    hsub.subset (List.mem_cons_of_mem _ List.mem_cons_self), hcross⟩

/-! ## Nesting -/

/-- The second entity begins no earlier than the first, and lies behind it or inside it. -/
def Nests (a b : Entity) : Prop :=
  a.start ≤ b.start ∧ (a.last < b.start ∨ b.last ≤ a.last)

theorem isSpanOf_iff {n : Nat} :
    a.isSpanOf n = true ↔ a.length ≠ 0 ∧ a.start + a.length ≤ n := by
  rw [isSpanOf, Bool.and_eq_true, bne_iff_ne, decide_eq_true_iff, stop]

theorem isSpanOf_eq_false_iff {n : Nat} :
    a.isSpanOf n = false ↔ a.length = 0 ∨ n < a.start + a.length := by
  rw [isSpanOf, Bool.and_eq_false_iff, bne_eq_false_iff_eq, decide_eq_false_iff_not, Nat.not_le,
    stop]

theorem start_le_last_of_isSpanOf {n : Nat} (h : a.isSpanOf n = true) :
    a.start ≤ a.last ∧ a.last < n ∧ a.last + 1 = a.stop := by
  rw [isSpanOf_iff] at h
  rw [stop, last]
  omega

theorem nests_of_mayPrecede {n : Nat} (hspan : ∀ e ∈ [a, b], e.isSpanOf n = true)
    (hab : a.mayPrecede b = true) (hcross : a.crosses b = false) : Nests a b := by
  have ha := start_le_last_of_isSpanOf (hspan a (by simp))
  have hb := start_le_last_of_isSpanOf (hspan b (by simp))
  refine ⟨start_le_of_mayPrecede hab, ?_⟩
  rw [mayPrecede_iff] at hab
  simp only [crosses, overlaps, contains, Bool.and_eq_false_iff, Bool.not_eq_eq_eq_not,
    Bool.not_false, Bool.or_eq_true, Bool.and_eq_true, decide_eq_true_eq,
    decide_eq_false_iff_not] at hcross
  simp only [stop, last] at *
  omega

/-- Sorted entities of which no two cross are nested. -/
theorem pairwise_nests {n : Nat} (hspan : ∀ e ∈ es, e.isSpanOf n = true)
    (hcross : firstCrossing? (sort es) = none) : (sort es).Pairwise Nests := by
  have hsorted := pairwise_sort es
  have hapart := (firstCrossing?_eq_none_iff hsorted).mp hcross
  refine (hsorted.and hapart).imp_of_mem ?_
  intro a b ha hb h
  refine nests_of_mayPrecede (n := n) (fun e he => ?_) h.1 h.2
  rcases List.mem_cons.mp he with rfl | he
  · exact hspan _ (mem_sort.mp ha)
  · rw [List.mem_singleton.mp he]
    exact hspan _ (mem_sort.mp hb)

end EntityMarkup.Entity
