import EntityMarkup.Proofs.Entity.Nesting

/-!
# Sorting is stable

`sort` leaves entities of one span in the order in which they were given. In the order of rendering
the spans themselves are ascending, so that a sorted list is determined by the entities it has of
each span. It does not matter then in which order entities of different spans were given
(`Rearranged`), and in particular not whether a list was in order already and was left alone.

* `filter_sort`: sorting moves no entity past one that may stand on either side of it.
* `filter_span_sort`: of each span there are the same entities before sorting and after it.
* `eq_of_filter_span`: a list in the order of rendering is determined by what it has of each span.
* **`sort_eq_of_rearranged`**: lists that are rearrangements of each other are sorted alike.
* `isSorted_iff_pairwise`: comparing neighbours tells whether each two entities are in order.
* **`sort_stable`**: sorting gives the one stable arrangement, whether it has anything to do or not.
-/

namespace EntityMarkup.Entity

variable {a b : Entity} {es es' xs ys : List Entity}

/-! ## Entities of one span -/

/-- Sorting moves no entity past another one, where both orders of the two are allowed. -/
theorem filter_sort {p : Entity → Bool}
    (hp : ∀ a b, p a = true → p b = true → a.mayPrecede b = true) (es : List Entity) :
    (sort es).filter p = es.filter p := by
  rw [sort]
  split
  · rfl
  · have hsorted : (es.filter p).Pairwise fun a b => a.mayPrecede b = true :=
      List.pairwise_of_forall_mem_list fun a ha b hb =>
        hp a b (List.mem_filter.mp ha).2 (List.mem_filter.mp hb).2
    have hsub : (es.filter p).Sublist (es.mergeSort mayPrecede) :=
      @List.sublist_mergeSort Entity mayPrecede es (fun _ _ _ => mayPrecede_trans)
        mayPrecede_total _ hsorted List.filter_sublist
    have hfilter := hsub.filter p
    simp only [List.filter_filter, Bool.and_self] at hfilter
    refine (hfilter.eq_of_length ?_).symm
    exact ((List.mergeSort_perm es mayPrecede).filter p).length_eq.symm

/-- The range of the tokens of an entity. -/
def span (e : Entity) : Nat × Nat :=
  (e.start, e.stop)

theorem span_eq_iff : a.span = b.span ↔ a.start = b.start ∧ a.length = b.length := by
  rw [span, span, Prod.mk.injEq, stop, stop]
  omega

theorem mayPrecede_of_span_eq (h : a.span = b.span) : a.mayPrecede b = true := by
  obtain ⟨hstart, hlength⟩ := span_eq_iff.mp h
  exact mayPrecede_iff.mpr (Or.inr ⟨hstart, Nat.le_of_eq hlength.symm⟩)

theorem span_eq_of_mayPrecede (hab : a.mayPrecede b = true) (hba : b.mayPrecede a = true) :
    a.span = b.span := by
  rw [mayPrecede_iff] at hab hba
  rw [span_eq_iff]
  omega

/-- Of each span there are the same entities before sorting and after it, in the same order. -/
theorem filter_span_sort (s : Nat × Nat) (es : List Entity) :
    (sort es).filter (fun e => e.span == s) = es.filter fun e => e.span == s :=
  filter_sort (fun _ _ ha hb => mayPrecede_of_span_eq ((eq_of_beq ha).trans (eq_of_beq hb).symm)) es

/-- The first entity of a span is the same one before sorting and after it. -/
theorem find?_span_sort (s : Nat × Nat) (es : List Entity) :
    (sort es).find? (fun e => e.span == s) = es.find? fun e => e.span == s := by
  rw [← List.head?_filter, ← List.head?_filter, filter_span_sort]

/-! ## Lists in the order of rendering -/

section Spans

variable (h : ∀ e : Entity,
  xs.filter (fun x => x.span == e.span) = ys.filter fun x => x.span == e.span)

include h

theorem mem_of_filter_span (ha : a ∈ xs) : a ∈ ys := by
  have hfilter : a ∈ xs.filter fun x => x.span == a.span :=
    List.mem_filter.mpr ⟨ha, beq_self_eq_true _⟩
  rw [h a] at hfilter
  exact (List.mem_filter.mp hfilter).1

/-- **A list in the order of rendering is determined by the entities it has of each span.** -/
theorem eq_of_filter_span (hxs : xs.Pairwise fun a b => a.mayPrecede b = true)
    (hys : ys.Pairwise fun a b => a.mayPrecede b = true) : xs = ys := by
  induction xs generalizing ys with
  | nil =>
    cases ys with
    | nil => rfl
    | cons b ys =>
      exact absurd (mem_of_filter_span (fun e => (h e).symm) List.mem_cons_self) List.not_mem_nil
  | cons a xs ih =>
    cases ys with
    | nil => exact absurd (mem_of_filter_span h List.mem_cons_self) List.not_mem_nil
    | cons b ys =>
      obtain ⟨ha, hxs'⟩ := List.pairwise_cons.mp hxs
      obtain ⟨hb, hys'⟩ := List.pairwise_cons.mp hys
      -- each of the two first entities may precede the other one
      have hspan : b.span = a.span := by
        have hmem : a ∈ b :: ys := mem_of_filter_span h List.mem_cons_self
        have hmem' : b ∈ a :: xs :=
          mem_of_filter_span (fun e => (h e).symm) List.mem_cons_self
        rcases List.mem_cons.mp hmem with heq | hmem
        · rw [heq]
        · rcases List.mem_cons.mp hmem' with heq | hmem'
          · rw [heq]
          · exact span_eq_of_mayPrecede (hb a hmem) (ha b hmem')
      have hfirst := h a
      rw [List.filter_cons, List.filter_cons, if_pos (beq_self_eq_true _),
        if_pos (beq_iff_eq.mpr hspan)] at hfirst
      obtain ⟨rfl, -⟩ := List.cons.inj hfirst
      refine congrArg (a :: ·) (ih (fun e => ?_) hxs' hys')
      have hrest := h e
      rw [List.filter_cons, List.filter_cons] at hrest
      split at hrest
      · exact (List.cons.inj hrest).2
      · exact hrest

end Spans

/-! ## Rearranged lists -/

/-- One list is a permutation of another, and entities that begin with the same token and have the
same length come in the same order in both. -/
structure Rearranged (es es' : List Entity) : Prop where
  perm : es'.Perm es
  same_order : ∀ start length,
    es'.filter (fun e => e.start == start && e.length == length)
      = es.filter fun e => e.start == start && e.length == length

/-- Neighbours that begin with different tokens or have different lengths can be exchanged. -/
theorem rearranged_swap (h : a.span ≠ b.span) (es : List Entity) :
    Rearranged (a :: b :: es) (b :: a :: es) := by
  refine ⟨List.Perm.swap a b es, fun start length => ?_⟩
  simp only [List.filter_cons, Bool.and_eq_true, beq_iff_eq]
  by_cases ha : a.start = start ∧ a.length = length
  · have hb : ¬ (b.start = start ∧ b.length = length) := fun hb =>
      h (span_eq_iff.mpr ⟨ha.1.trans hb.1.symm, ha.2.trans hb.2.symm⟩)
    rw [if_pos ha, if_neg hb, if_pos ha, if_neg hb]
  · rw [if_neg ha, if_neg ha]

theorem beq_span (e : Entity) (start length : Nat) :
    (e.span == (start, start + length)) = (e.start == start && e.length == length) := by
  rw [Bool.eq_iff_iff, Bool.and_eq_true, beq_iff_eq, beq_iff_eq, beq_iff_eq]
  exact span_eq_iff (b := ⟨start, length, ""⟩)

/-- **Rearranged lists are sorted alike**, whether one of them was in order before or not. -/
theorem sort_eq_of_rearranged (h : Rearranged es es') : sort es' = sort es := by
  refine eq_of_filter_span (fun a => ?_) (pairwise_sort es') (pairwise_sort es)
  have horder := h.same_order a.start a.length
  simp only [← beq_span] at horder
  rw [filter_span_sort, filter_span_sort]
  exact horder

theorem rearranged_sort (es : List Entity) : Rearranged es (sort es) := by
  refine ⟨sort_perm es, fun start length => ?_⟩
  simp only [← beq_span]
  exact filter_span_sort (start, start + length) es

/-! ## Lists that are left alone -/

theorem isSorted_iff_pairwise :
    isSorted es = true ↔ es.Pairwise fun a b => a.mayPrecede b = true := by
  refine ⟨pairwise_of_isSorted, fun h => ?_⟩
  fun_induction isSorted es with
  | case1 => rfl
  | case2 => rfl
  | case3 a b rest ih =>
    obtain ⟨ha, hrest⟩ := List.pairwise_cons.mp h
    exact Bool.and_eq_true_iff.mpr ⟨ha b List.mem_cons_self, ih hrest⟩

theorem sort_of_pairwise (h : es.Pairwise fun a b => a.mayPrecede b = true) : sort es = es :=
  if_pos (isSorted_iff_pairwise.mpr h)

/-- Where `sort` leaves a list alone, sorting it would not have changed it. -/
theorem sort_eq_mergeSort (es : List Entity) : sort es = es.mergeSort mayPrecede := by
  rw [sort]
  split
  · rename_i h
    exact (List.mergeSort_of_pairwise (pairwise_of_isSorted h)).symm
  · rfl

/-! ## The stable arrangement -/

/-- Two entities that stand one before the other as they are rendered: the first one begins earlier,
or both begin together and it is at least as long. -/
def InOrder (a b : Entity) : Prop :=
  a.start < b.start ∨ a.start = b.start ∧ b.length ≤ a.length

theorem pairwise_inOrder_iff :
    es.Pairwise InOrder ↔ es.Pairwise fun a b => a.mayPrecede b = true :=
  ⟨List.Pairwise.imp mayPrecede_iff.mpr, List.Pairwise.imp mayPrecede_iff.mp⟩

/-- A list of the same entities as another one, each two of them in order, and those of one span in
the order that they have in the other list. -/
structure IsStableSort (es sorted : List Entity) : Prop where
  rearranged : Rearranged es sorted
  inOrder : sorted.Pairwise InOrder

theorem isStableSort_sort (es : List Entity) : IsStableSort es (sort es) :=
  ⟨rearranged_sort es, pairwise_inOrder_iff.mpr (pairwise_sort es)⟩

/-- There is no other such list than the one that `sort` gives. -/
theorem IsStableSort.eq_sort (h : IsStableSort es ys) : ys = sort es := by
  rw [← sort_eq_of_rearranged h.rearranged, sort_of_pairwise (pairwise_inOrder_iff.mp h.inOrder)]

/-- **Sorting is stable, and its shortcut is faithful.** What `sort` gives is a permutation of the
entities, each two of them in the order of rendering, and those of one span in the order in which
they were given; no other list is. Comparing neighbours finds exactly the lists that are in this
order already, which are the ones that the merge sort would not change. So on all lists `sort` and
the merge sort give the same, and sorting a second time changes nothing. -/
theorem sort_stable (es : List Entity) :
    IsStableSort es (sort es) ∧ (∀ ys, IsStableSort es ys → ys = sort es) ∧
      (isSorted es = true ↔ es.Pairwise InOrder) ∧
      (isSorted es = true ↔ es.mergeSort mayPrecede = es) ∧
      sort es = es.mergeSort mayPrecede ∧ sort (sort es) = sort es := by
  refine ⟨isStableSort_sort es, fun _ => IsStableSort.eq_sort,
    isSorted_iff_pairwise.trans pairwise_inOrder_iff.symm, ⟨fun h => ?_, fun h => ?_⟩,
    sort_eq_mergeSort es, sort_of_pairwise (pairwise_sort es)⟩
  · exact List.mergeSort_of_pairwise (pairwise_of_isSorted h)
  · rw [isSorted_iff_pairwise, ← h, ← sort_eq_mergeSort]
    exact pairwise_sort es

/-- Of two entities that begin together the longer comes first, and two of one span stay in the
order in which they were given. -/
example : sort [⟨1, 2, "LOC"⟩, ⟨0, 1, "PER"⟩, ⟨1, 2, "ORG"⟩, ⟨0, 3, "ORG"⟩]
    = [⟨0, 3, "ORG"⟩, ⟨0, 1, "PER"⟩, ⟨1, 2, "LOC"⟩, ⟨1, 2, "ORG"⟩] := by
  cbv

end EntityMarkup.Entity
