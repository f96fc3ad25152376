import EntityMarkup.Proofs.Entity.Sorting

/-!
# The outermost entities

Formats that show no nesting keep some of the entities only. `outermostFrom` goes once through
entities in the order of rendering and keeps each one that begins where the last one kept has ended.
What it keeps lies apart, so that each token is in one of the entities at most.

* `pairwise_outermost`: the entities that are kept lie one behind the other.
* **`find?_span_of_mem_outermost`**: of entities that have one span the first that was given is
  kept.
* `exists_contains_of_mem`: where no two entities cross, each lies in one that is kept.
* **`exists_mem_outermost_iff`**: there the spans that are kept are those contained in no larger
  one.
-/

namespace EntityMarkup.Entity

variable {a b e k : Entity} {es : List Entity} {n : Nat}

/-! ## The selection -/

/-- Of entities in the order of rendering, those that begin where the last one kept has ended. The
number is where that is. -/
def outermostFrom (n : Nat) : List Entity → List Entity
  | [] => []
  | e :: rest => if n ≤ e.start then e :: outermostFrom e.stop rest else outermostFrom n rest

/-- The outermost of entities. -/
def outermost (entities : List Entity) : List Entity :=
  outermostFrom 0 (sort entities)

theorem outermostFrom_cons_of_le (h : n ≤ e.start) (rest : List Entity) :
    outermostFrom n (e :: rest) = e :: outermostFrom e.stop rest :=
  if_pos h

theorem outermostFrom_cons_of_lt (h : e.start < n) (rest : List Entity) :
    outermostFrom n (e :: rest) = outermostFrom n rest :=
  if_neg (Nat.not_le_of_lt h)

theorem outermostFrom_append_of_lt {early : List Entity} (h : ∀ e ∈ early, e.start < n)
    (rest : List Entity) : outermostFrom n (early ++ rest) = outermostFrom n rest := by
  induction early with
  | nil => rfl
  | cons e early ih =>
    obtain ⟨he, hearly⟩ := List.forall_mem_cons.mp h
    rw [List.cons_append, outermostFrom_cons_of_lt he, ih hearly]

theorem outermostFrom_sublist (n : Nat) (es : List Entity) :
    (outermostFrom n es).Sublist es := by
  induction es generalizing n with
  | nil => exact List.Sublist.refl _
  | cons e rest ih =>
    rw [outermostFrom]
    split
    · exact (ih e.stop).cons_cons e
    · exact (ih n).cons e

theorem mem_of_mem_outermost (h : k ∈ outermost es) : k ∈ es :=
  mem_sort.mp ((outermostFrom_sublist 0 (sort es)).subset h)

theorem le_start_of_mem_outermostFrom (h : k ∈ outermostFrom n es) : n ≤ k.start := by
  induction es generalizing n with
  | nil => exact absurd h List.not_mem_nil
  | cons e rest ih =>
    rw [outermostFrom] at h
    split at h
    · rename_i hn
      rcases List.mem_cons.mp h with rfl | h
      · exact hn
      · have hstop := ih h
        rw [stop] at hstop
        omega
    · exact ih h

theorem pairwise_outermostFrom (n : Nat) (es : List Entity) :
    (outermostFrom n es).Pairwise fun a b => a.stop ≤ b.start := by
  induction es generalizing n with
  | nil => exact List.Pairwise.nil
  | cons e rest ih =>
    rw [outermostFrom]
    split
    · exact List.pairwise_cons.mpr ⟨fun _ => le_start_of_mem_outermostFrom, ih e.stop⟩
    · exact ih n

theorem pairwise_outermost (es : List Entity) :
    (outermost es).Pairwise fun a b => a.stop ≤ b.start :=
  pairwise_outermostFrom 0 (sort es)

/-- Two kept entities that have a token in common are one. -/
theorem eq_of_mem_outermost {i : Nat} (ha : a ∈ outermost es) (hb : b ∈ outermost es)
    (hai : a.start ≤ i ∧ i < a.stop) (hbi : b.start ≤ i ∧ i < b.stop) : a = b := by
  have hpairwise := pairwise_outermost es
  refine List.Pairwise.forall_of_forall_of_flip
    (R := fun a b => a.start ≤ i ∧ i < a.stop → b.start ≤ i ∧ i < b.stop → a = b)
    (fun _ _ _ _ => rfl) (hpairwise.imp ?_) (hpairwise.imp ?_) ha hb hai hbi
  · intro a b hapart _ _
    omega
  · intro a b hapart _ _
    omega

/-! ## Of each span the first -/

theorem find?_span_of_mem_outermostFrom (hlength : ∀ e ∈ es, e.length ≠ 0)
    (h : k ∈ outermostFrom n es) : es.find? (fun e => e.span == k.span) = some k := by
  induction es generalizing n with
  | nil => exact absurd h List.not_mem_nil
  | cons e rest ih =>
    obtain ⟨he, hrest⟩ := List.forall_mem_cons.mp hlength
    -- what is kept of the rest begins behind the beginning of `e`
    have hskip : ∀ {m}, e.start < m → k ∈ outermostFrom m rest →
        (e :: rest).find? (fun e => e.span == k.span) = some k := by
      intro m hm hk
      have hstart := Nat.lt_of_lt_of_le hm (le_start_of_mem_outermostFrom hk)
      rw [List.find?_cons_of_neg, ih hrest hk]
      rw [beq_iff_eq, span_eq_iff]
      omega
    rcases Nat.lt_or_ge e.start n with hn | hn
    · rw [outermostFrom_cons_of_lt hn] at h
      exact hskip hn h
    · rw [outermostFrom_cons_of_le hn] at h
      rcases List.mem_cons.mp h with rfl | h
      · rw [List.find?_cons_of_pos]
        exact beq_self_eq_true _
      · exact hskip (by rw [stop]; omega) h

/-- **Of entities that have one span the first that was given is kept**, if any. -/
theorem find?_span_of_mem_outermost (hlength : ∀ e ∈ es, e.length ≠ 0) (h : k ∈ outermost es) :
    es.find? (fun e => e.span == k.span) = some k := by
  rw [← find?_span_sort]
  exact find?_span_of_mem_outermostFrom (fun e he => hlength e (mem_sort.mp he)) h

theorem nodup_span_outermost (hlength : ∀ e ∈ es, e.length ≠ 0) :
    ((outermost es).map span).Nodup := by
  refine List.pairwise_map.mpr ((pairwise_outermost es).imp_of_mem ?_)
  intro a b ha _ hab hspan
  have hpos := hlength a (mem_of_mem_outermost ha)
  have hstart := (span_eq_iff.mp hspan).1
  rw [stop] at hab
  omega

/-! ## Without crossings -/

theorem contains_iff : a.contains b = true ↔ a.start ≤ b.start ∧ b.stop ≤ a.stop := by
  rw [contains, Bool.and_eq_true, decide_eq_true_iff, decide_eq_true_iff]

/-- Of two entities in the order of rendering that do not cross, the second lies behind the first or
in it. -/
theorem contains_of_mayPrecede (hab : a.mayPrecede b = true) (hcross : a.crosses b = false)
    (hlt : b.start < a.stop) : a.contains b = true := by
  rw [mayPrecede_iff] at hab
  rw [Bool.eq_false_iff, ne_eq, crosses_iff] at hcross
  rw [contains_iff]
  simp only [stop] at *
  omega

/-- Where no two entities cross, each lies in one that is kept. -/
theorem exists_contains_of_mem (hsorted : es.Pairwise fun a b => a.mayPrecede b = true)
    (hcross : es.Pairwise fun a b => a.crosses b = false) (he : e ∈ es) (hn : n ≤ e.start) :
    ∃ k ∈ outermostFrom n es, k.contains e = true := by
  induction es generalizing n with
  | nil => exact absurd he List.not_mem_nil
  | cons a rest ih =>
    obtain ⟨ha, hsorted⟩ := List.pairwise_cons.mp hsorted
    obtain ⟨hacross, hcross⟩ := List.pairwise_cons.mp hcross
    rcases List.mem_cons.mp he with rfl | he
    · rw [outermostFrom_cons_of_le hn]
      exact ⟨e, List.mem_cons_self, by simp [contains]⟩
    · rcases Nat.lt_or_ge a.start n with hstart | hstart
      · rw [outermostFrom_cons_of_lt hstart]
        exact ih hsorted hcross he hn
      · rw [outermostFrom_cons_of_le hstart]
        rcases Nat.lt_or_ge e.start a.stop with hlt | hge
        · exact ⟨a, List.mem_cons_self, contains_of_mayPrecede (ha e he) (hacross e he) hlt⟩
        · obtain ⟨k, hk, hcontains⟩ := ih hsorted hcross he hge
          exact ⟨k, List.mem_cons_of_mem a hk, hcontains⟩

/-- **Where no two entities cross, the spans that are kept are those contained in no larger
one.** -/
theorem exists_mem_outermost_iff (hlength : ∀ e ∈ es, e.length ≠ 0)
    (hcross : ∀ a ∈ es, ∀ b ∈ es, a.crosses b = false) (he : e ∈ es) :
    (∃ k ∈ outermost es, k.span = e.span) ↔ ∀ f ∈ es, f.contains e = true → f.span = e.span := by
  have hkept : ∀ {f}, f ∈ es → ∃ k ∈ outermost es, k.contains f = true := fun hf =>
    exists_contains_of_mem (pairwise_sort es)
      (List.pairwise_of_forall_mem_list fun a ha b hb =>
        hcross a (mem_sort.mp ha) b (mem_sort.mp hb))
      (mem_sort.mpr hf) (Nat.zero_le _)
  constructor
  · rintro ⟨k, hk, hspan⟩ f hf hcontains
    obtain ⟨k', hk', hcontains'⟩ := hkept hf
    rw [contains_iff] at hcontains hcontains'
    have hpos := hlength e he
    obtain ⟨hstart, hstop⟩ := Prod.mk.inj hspan
    -- both kept entities hold the first token of `e`
    have heq : k' = k := by
      refine eq_of_mem_outermost hk' hk (i := e.start) ?_ ?_ <;>
        simp only [stop] at * <;> omega
    rw [← hspan, span_eq_iff]
    rw [heq] at hcontains'
    simp only [stop] at *
    omega
  · intro hmax
    obtain ⟨k, hk, hcontains⟩ := hkept he
    exact ⟨k, hk, hmax k (mem_of_mem_outermost hk) hcontains⟩

end EntityMarkup.Entity
