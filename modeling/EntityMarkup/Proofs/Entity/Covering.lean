import EntityMarkup.Proofs.Entity.Nesting

/-!
# Entities that are covered where they end

Where entities cross, one can be covered behind its last token by another that ends later. If that
keeps the one below from being closed, as it does on a stack, it also keeps open whatever lies below
that and would have to be closed afterwards. `Unclosed` says which entities are never closed then,
as the least set.

In the order of rendering, the entities that come after another are those above it on the stack and
those still to come. So whether an entity is closed can be told from the entities after it, and
`isBlocked` does so at any time, `i` being the index of the next token.

* `isBlocked_append_ending`, `blocked_append_ending`: closing what ends with a token leaves the same
  entities blocked.
* `unclosed_iff_isBlocked`: before the first token the entities that are blocked are those of the
  least set.
* **`exists_unclosed_iff_crosses`**: there are such entities exactly where two entities cross.
-/

namespace EntityMarkup.Nested

/-! ## Which entities are never closed -/

/-- The positions, in a list in the order of rendering, of the entities that are never closed. They
are the least set to which an entity belongs if a later one begins before it has ended, and either
ends behind it or belongs to the set. -/
inductive Unclosed (es : List Entity) : Nat → Prop
  | outlasted {k j : Nat} {e f : Entity} : k < j → es[k]? = some e → es[j]? = some f →
      f.start ≤ e.last → e.last < f.last → Unclosed es k
  | buried {k j : Nat} {e f : Entity} : k < j → es[k]? = some e → es[j]? = some f →
      f.start ≤ e.last → Unclosed es j → Unclosed es k

/-- Whether an entity will not be closed any more before the token with index `i`, the entities in
the list being those after it: its last token has gone by, or that holds, or will hold, of an entity
that covers it there. -/
def isBlocked (i : Nat) (e : Entity) : List Entity → Bool
  | [] => e.last < i
  | f :: later =>
    isBlocked i e later || f.start ≤ e.last && (e.last < f.last || isBlocked i f later)

variable {i n : Nat} {e f : Entity} {es xs ys pending : List Entity}

theorem isBlocked_cons :
    isBlocked i e (f :: es) = true ↔ isBlocked i e es = true ∨
      f.start ≤ e.last ∧ (e.last < f.last ∨ isBlocked i f es = true) := by
  simp [isBlocked]

/-- An entity whose last token has gone by is not closed any more. -/
theorem isBlocked_of_last_lt (h : e.last < i) (later : List Entity) :
    isBlocked i e later = true := by
  induction later with
  | nil => exact decide_eq_true h
  | cons f later ih => exact isBlocked_cons.mpr (Or.inl ih)

/-- An entity is blocked by any later one that covers its last token and stays there. -/
theorem isBlocked_append_cons (hstart : f.start ≤ e.last)
    (hstay : e.last < f.last ∨ isBlocked i f es = true) (xs : List Entity) :
    isBlocked i e (xs ++ f :: es) = true := by
  induction xs with
  | nil => exact isBlocked_cons.mpr (Or.inr ⟨hstart, hstay⟩)
  | cons x xs ih => exact isBlocked_cons.mpr (Or.inl ih)

theorem isBlocked_eq_false_of_lt_start (he : i ≤ e.last) (h : ∀ f ∈ es, e.last < f.start) :
    isBlocked i e es = false := by
  induction es with
  | nil => exact decide_eq_false (Nat.not_lt_of_le he)
  | cons f es ih =>
    obtain ⟨hf, hes⟩ := List.forall_mem_cons.mp h
    rw [isBlocked, ih hes, decide_eq_false (Nat.not_le_of_lt hf)]
    rfl

/-! ## A token goes by -/

/-- An entity that ends with a token is not blocked by others that end with it, nor by those that
begin behind it. -/
theorem isBlocked_ending (he : e.last = i) (hys : ∀ f ∈ ys, f.last = i)
    (hpending : ∀ f ∈ pending, i < f.start) : isBlocked i e (ys ++ pending) = false := by
  induction ys generalizing e with
  | nil =>
    exact isBlocked_eq_false_of_lt_start (Nat.le_of_eq he.symm) fun f hf => he ▸ hpending f hf
  | cons f ys ih =>
    obtain ⟨hf, hys⟩ := List.forall_mem_cons.mp hys
    have hlast : ¬ e.last < f.last := by omega
    rw [List.cons_append, isBlocked, ih he hys, ih hf hys, decide_eq_false hlast]
    simp

theorem isBlocked_succ (he : e.last ≠ i) (hpending : ∀ f ∈ pending, i < f.last) :
    isBlocked (i + 1) e pending = isBlocked i e pending := by
  induction pending generalizing e with
  | nil =>
    rw [isBlocked, isBlocked, decide_eq_decide]
    omega
  | cons f pending ih =>
    obtain ⟨hf, hpending⟩ := List.forall_mem_cons.mp hpending
    rw [isBlocked, isBlocked, ih he hpending, ih (Nat.ne_of_gt hf) hpending]

/-- An entity that ends with a token stays on the stack if the one on top of it does not end
there. -/
theorem isBlocked_of_getLast? {t : Entity} (he : e.last = i) (htop : xs.getLast? = some t)
    (ht : t.start ≤ i) (hne : t.last ≠ i) (later : List Entity) :
    isBlocked i e (xs ++ later) = true := by
  obtain ⟨below, rfl⟩ := List.getLast?_eq_some_iff.mp htop
  rw [List.append_assoc, List.singleton_append]
  refine isBlocked_append_cons (he ▸ ht) ?_ below
  rcases Nat.lt_or_gt_of_ne hne with hlt | hlt
  · exact Or.inr (isBlocked_of_last_lt hlt later)
  · exact Or.inl (he ▸ hlt)

section Passing

variable (hys : ∀ f ∈ ys, f.last = i) (hpending : ∀ f ∈ pending, i < f.start ∧ i < f.last)

include hys hpending

theorem isBlocked_ending_append (he : e.last ≠ i) :
    isBlocked i e (ys ++ pending) = isBlocked (i + 1) e pending := by
  induction ys with
  | nil => exact (isBlocked_succ he fun f hf => (hpending f hf).2).symm
  | cons f ys ih =>
    obtain ⟨hf, hys⟩ := List.forall_mem_cons.mp hys
    rw [List.cons_append, isBlocked, ih hys,
      isBlocked_ending hf hys fun f hf => (hpending f hf).1, Bool.or_false, hf]
    by_cases hlt : e.last < i
    · rw [isBlocked_of_last_lt (Nat.lt_succ_of_lt hlt), Bool.true_or]
    · rw [decide_eq_false hlt, Bool.and_false, Bool.or_false]

/-- **Closing what ends with a token leaves the same entities blocked**, `xs` being what stays on
the stack above an entity and `ys` what is closed. -/
theorem isBlocked_append_ending (hxs : ∀ f ∈ xs, f.start ≤ i)
    (htop : ∀ t, (e :: xs).getLast? = some t → t.last ≠ i) :
    isBlocked i e (xs ++ (ys ++ pending)) = isBlocked (i + 1) e (xs ++ pending) := by
  induction xs generalizing e with
  | nil => exact isBlocked_ending_append hys hpending (htop e rfl)
  | cons f xs ih =>
    rw [List.getLast?_cons_cons] at htop
    by_cases he : e.last = i
    · -- the entity has missed its end, because what covers it does not end with the token
      have ht := List.getLast?_eq_some_getLast (List.cons_ne_nil f xs)
      rw [isBlocked_of_getLast? he ht (hxs _ (List.mem_of_getLast? ht)) (htop _ ht),
        isBlocked_of_last_lt (by omega)]
    · have hxs := (List.forall_mem_cons.mp hxs).2
      have hbelow : ∀ t, (e :: xs).getLast? = some t → t.last ≠ i := by
        cases xs with
        | nil =>
          rintro t ht
          obtain rfl := Option.some.inj ht
          exact he
        | cons g xs => exact htop
      rw [List.cons_append, List.cons_append, isBlocked, isBlocked, ih hxs hbelow, ih hxs htop]

end Passing

/-! ## All that come after one another -/

/-- The entities that are never closed. -/
def blocked (i : Nat) : List Entity → List Entity
  | [] => []
  | e :: later => if isBlocked i e later then e :: blocked i later else blocked i later

theorem blocked_succ (hpending : ∀ f ∈ pending, i < f.start ∧ i < f.last) :
    blocked (i + 1) pending = blocked i pending := by
  induction pending with
  | nil => rfl
  | cons e pending ih =>
    obtain ⟨he, hpending⟩ := List.forall_mem_cons.mp hpending
    rw [blocked, blocked, isBlocked_succ (Nat.ne_of_gt he.2) fun f hf => (hpending f hf).2,
      ih hpending]

theorem blocked_ending_append (hys : ∀ f ∈ ys, f.last = i)
    (hpending : ∀ f ∈ pending, i < f.start) : blocked i (ys ++ pending) = blocked i pending := by
  induction ys with
  | nil => rfl
  | cons e ys ih =>
    obtain ⟨he, hys⟩ := List.forall_mem_cons.mp hys
    rw [List.cons_append, blocked, isBlocked_ending he hys hpending]
    exact ih hys

/-- Closing what ends with a token, `ys`, closes no entity that is blocked. -/
theorem blocked_append_ending (hys : ∀ f ∈ ys, f.last = i)
    (hpending : ∀ f ∈ pending, i < f.start ∧ i < f.last) (hxs : ∀ f ∈ xs, f.start ≤ i)
    (htop : ∀ t, xs.getLast? = some t → t.last ≠ i) :
    blocked i (xs ++ (ys ++ pending)) = blocked (i + 1) (xs ++ pending) := by
  induction xs with
  | nil =>
    rw [List.nil_append, List.nil_append, blocked_succ hpending]
    exact blocked_ending_append hys fun f hf => (hpending f hf).1
  | cons e xs ih =>
    obtain ⟨-, hrest⟩ := List.forall_mem_cons.mp hxs
    have htop' : ∀ t, xs.getLast? = some t → t.last ≠ i := by
      cases xs with
      | nil => nofun
      | cons f xs => exact htop
    rw [List.cons_append, List.cons_append, blocked, blocked,
      isBlocked_append_ending hys hpending hrest htop, ih hrest htop']

theorem blocked_of_forall_last_lt (h : ∀ e ∈ es, e.last < i) : blocked i es = es := by
  induction es with
  | nil => rfl
  | cons e es ih =>
    obtain ⟨he, hes⟩ := List.forall_mem_cons.mp h
    rw [blocked, isBlocked_of_last_lt he, ih hes]
    rfl

/-- Where an entity is closed, those in the list being the entities after it. -/
def stopAt (i : Nat) (e : Entity) (later : List Entity) : Option Nat :=
  if isBlocked i e later then none else some (e.last + 1)

/-- Where entities begin that are still to come, and where they are closed. -/
def plan (i : Nat) : List Entity → List (Nat × String × Option Nat)
  | [] => []
  | e :: later => (e.start, e.label, stopAt i e later) :: plan i later

theorem plan_succ (hpending : ∀ f ∈ pending, i < f.start ∧ i < f.last) :
    plan (i + 1) pending = plan i pending := by
  induction pending with
  | nil => rfl
  | cons e pending ih =>
    obtain ⟨he, hpending⟩ := List.forall_mem_cons.mp hpending
    rw [plan, plan, stopAt, stopAt,
      isBlocked_succ (Nat.ne_of_gt he.2) fun f hf => (hpending f hf).2, ih hpending]

theorem getElem?_plan (k : Nat) :
    (plan i es)[k]? = es[k]?.map fun e => (e.start, e.label, stopAt i e (es.drop (k + 1))) := by
  induction es generalizing k with
  | nil => rfl
  | cons e es ih =>
    cases k with
    | zero => rfl
    | succ k => exact ih k

/-! ## The least set -/

theorem drop_eq_cons {α : Type} {xs : List α} {j : Nat} {x : α} (h : xs[j]? = some x) :
    xs.drop j = x :: xs.drop (j + 1) := by
  obtain ⟨hj, rfl⟩ := List.getElem?_eq_some_iff.mp h
  exact List.drop_eq_getElem_cons hj

/-- What comes after an entity holds every later one, with what comes after that. -/
theorem exists_drop_eq {k j : Nat} (hkj : k < j) (hf : es[j]? = some f) :
    ∃ xs, es.drop (k + 1) = xs ++ f :: es.drop (j + 1) := by
  obtain ⟨d, rfl⟩ := Nat.exists_eq_add_of_lt hkj
  have hsplit := List.take_append_drop d (es.drop (k + 1))
  rw [List.drop_drop, Nat.add_right_comm, drop_eq_cons hf] at hsplit
  exact ⟨_, hsplit.symm⟩

theorem unclosed_of_isBlocked {k m : Nat} (hk : k < m) (he : es[k]? = some e)
    (h : isBlocked 0 e (es.drop m) = true) : Unclosed es k := by
  induction hlater : es.drop m generalizing k m e with
  | nil =>
    rw [hlater] at h
    exact absurd (of_decide_eq_true h) (Nat.not_lt_zero _)
  | cons f later ih =>
    rw [hlater] at h
    have hf : es[m]? = some f := by
      rw [← List.head?_drop, hlater]
      rfl
    have hnext : es.drop (m + 1) = later := by
      rw [← List.tail_drop, hlater]
      rfl
    rcases isBlocked_cons.mp h with h | ⟨hstart, hlast | h⟩
    · exact ih (Nat.lt_succ_of_lt hk) he (hnext ▸ h) hnext
    · exact .outlasted hk he hf hstart hlast
    · exact .buried hk he hf hstart (ih (Nat.lt_succ_self m) hf (hnext ▸ h) hnext)

/-- At the beginning of a sentence, the entities that are blocked are those of the least set. -/
theorem unclosed_iff_isBlocked {k : Nat} (he : es[k]? = some e) :
    Unclosed es k ↔ isBlocked 0 e (es.drop (k + 1)) = true := by
  refine ⟨fun h => ?_, unclosed_of_isBlocked (Nat.lt_succ_self k) he⟩
  induction h generalizing e with
  | outlasted hkj he' hf hstart hlast =>
    obtain rfl := Option.some.inj (he.symm.trans he')
    obtain ⟨xs, hxs⟩ := exists_drop_eq hkj hf
    rw [hxs]
    exact isBlocked_append_cons hstart (Or.inl hlast) xs
  | buried hkj he' hf hstart _ ih =>
    obtain rfl := Option.some.inj (he.symm.trans he')
    obtain ⟨xs, hxs⟩ := exists_drop_eq hkj hf
    rw [hxs]
    exact isBlocked_append_cons hstart (Or.inr (ih hf)) xs

theorem lt_length_of_unclosed {k : Nat} (h : Unclosed es k) : k < es.length := by
  cases h with
  | outlasted _ he => exact (List.getElem?_eq_some_iff.mp he).1
  | buried _ he => exact (List.getElem?_eq_some_iff.mp he).1

theorem mem_blocked_iff :
    e ∈ blocked i es ↔ ∃ k, es[k]? = some e ∧ isBlocked i e (es.drop (k + 1)) = true := by
  induction es with
  | nil => simp [blocked]
  | cons f es ih =>
    have hcons : (∃ k, (f :: es)[k]? = some e ∧ isBlocked i e ((f :: es).drop (k + 1)) = true)
        ↔ (f = e ∧ isBlocked i e es = true)
          ∨ ∃ k, es[k]? = some e ∧ isBlocked i e (es.drop (k + 1)) = true := by
      constructor
      · rintro ⟨k, he, hblocked⟩
        cases k with
        | zero => exact Or.inl ⟨Option.some.inj he, hblocked⟩
        | succ k => exact Or.inr ⟨k, he, hblocked⟩
      · rintro (⟨rfl, hblocked⟩ | ⟨k, he, hblocked⟩)
        · exact ⟨0, rfl, hblocked⟩
        · exact ⟨k + 1, he, hblocked⟩
    rw [hcons, ← ih, blocked]
    split
    · rename_i hf
      rw [List.mem_cons]
      refine or_congr_left ⟨?_, fun h => h.1.symm⟩
      rintro rfl
      exact ⟨rfl, hf⟩
    · rename_i hf
      refine ⟨Or.inr, fun h => h.resolve_left ?_⟩
      rintro ⟨rfl, h⟩
      exact hf h

theorem exists_unclosed_iff : (∃ k, Unclosed es k) ↔ blocked 0 es ≠ [] := by
  constructor
  · rintro ⟨k, hk⟩
    have he := List.getElem?_eq_getElem (lt_length_of_unclosed hk)
    exact List.ne_nil_of_mem (mem_blocked_iff.mpr ⟨k, he, (unclosed_iff_isBlocked he).mp hk⟩)
  · intro h
    obtain ⟨e, he⟩ := List.exists_mem_of_ne_nil _ h
    obtain ⟨k, hget, hblocked⟩ := mem_blocked_iff.mp he
    exact ⟨k, (unclosed_iff_isBlocked hget).mpr hblocked⟩

section Sorted

variable (hsorted : es.Pairwise fun a b => a.mayPrecede b = true)
  (hspan : ∀ e ∈ es, e.isSpanOf n = true)

include hsorted hspan

/-- In the order of rendering, two entities cross exactly if the later one begins before the earlier
one has ended and ends behind it. -/
theorem crosses_iff_of_lt {k j : Nat} (hkj : k < j) (he : es[k]? = some e) (hf : es[j]? = some f) :
    e.crosses f = true ↔ f.start ≤ e.last ∧ e.last < f.last := by
  obtain ⟨hk, rfl⟩ := List.getElem?_eq_some_iff.mp he
  obtain ⟨hj, rfl⟩ := List.getElem?_eq_some_iff.mp hf
  have horder := Entity.mayPrecede_iff.mp (List.pairwise_iff_getElem.mp hsorted k j hk hj hkj)
  have hk' := Entity.start_le_last_of_isSpanOf (hspan _ (List.getElem_mem hk))
  have hj' := Entity.start_le_last_of_isSpanOf (hspan _ (List.getElem_mem hj))
  rw [Entity.crosses_iff]
  simp only [Entity.stop, Entity.last] at *
  omega

/-- **There are entities that are never closed exactly where two entities cross.** -/
theorem exists_unclosed_iff_crosses :
    (∃ k, Unclosed es k) ↔ ∃ a ∈ es, ∃ b ∈ es, a.crosses b = true := by
  constructor
  · rintro ⟨k, hk⟩
    induction hk with
    | outlasted hkj he hf hstart hlast =>
      exact ⟨_, List.mem_of_getElem? he, _, List.mem_of_getElem? hf,
        (crosses_iff_of_lt hsorted hspan hkj he hf).mpr ⟨hstart, hlast⟩⟩
    | buried _ _ _ _ _ ih => exact ih
  · rintro ⟨a, ha, b, hb, hcross⟩
    obtain ⟨k, hk⟩ := List.mem_iff_getElem?.mp ha
    obtain ⟨j, hj⟩ := List.mem_iff_getElem?.mp hb
    rcases Nat.lt_trichotomy k j with hlt | rfl | hlt
    · obtain ⟨hstart, hlast⟩ := (crosses_iff_of_lt hsorted hspan hlt hk hj).mp hcross
      exact ⟨k, .outlasted hlt hk hj hstart hlast⟩
    · obtain rfl := Option.some.inj (hk.symm.trans hj)
      rw [Entity.crosses_self] at hcross
      cases hcross
    · rw [Entity.crosses_comm] at hcross
      obtain ⟨hstart, hlast⟩ := (crosses_iff_of_lt hsorted hspan hlt hj hk).mp hcross
      exact ⟨j, .outlasted hlt hj hk hstart hlast⟩

end Sorted

end EntityMarkup.Nested
