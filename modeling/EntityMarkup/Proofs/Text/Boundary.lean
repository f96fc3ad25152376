import EntityMarkup.Text

/-!
# Boundaries between characters

`IsBoundary t n` says that the offset `n` does not lie inside a character of `t` or behind its end.
Between boundaries `Text.slice` never has to give up: slices have the size their ends promise, and
slices that follow one another can be put together. Everything the inline renderers copy is cut at
boundaries, so a proof about copying needs nothing of the text but these lemmas.

* **`slice_append_slice`**: consecutive slices, put together, are the slice from the first start to
  the last stop.
* `size_slice`, `slice_zero_size`: how long a slice is, and that the whole text is one.
* `slice_isPrefix`: a slice from the beginning is a prefix.
-/

namespace EntityMarkup.Text

/-- An offset at which the text can be cut. -/
def IsBoundary (t : Text) (n : Nat) : Prop :=
  ∃ u v, t = u ++ v ∧ u.size = n

variable {t : Text} {a b c : Nat}

theorem isBoundary_zero (t : Text) : t.IsBoundary 0 :=
  ⟨[], t, rfl, rfl⟩

theorem isBoundary_size (t : Text) : t.IsBoundary t.size :=
  ⟨t, [], (List.append_nil t).symm, rfl⟩

theorem IsBoundary.le_size (h : t.IsBoundary a) : a ≤ t.size := by
  obtain ⟨u, v, rfl, rfl⟩ := h
  rw [size_append]
  exact Nat.le_add_right _ _

theorem IsBoundary.max (ha : t.IsBoundary a) (hb : t.IsBoundary b) : t.IsBoundary (max a b) := by
  rcases Nat.le_total a b with h | h
  · rwa [Nat.max_eq_right h]
  · rwa [Nat.max_eq_left h]

/-- Of two prefixes of a text the one that is no longer is a prefix of the other. -/
theorem exists_append_of_size_le {u v u' v' : Text} (h : u ++ v = u' ++ v')
    (hle : u.size ≤ u'.size) : ∃ m, u' = u ++ m ∧ v = m ++ v' := by
  rcases List.append_eq_append_iff.mp h with ⟨m, hu, hv⟩ | ⟨m, hu, hv⟩
  · exact ⟨m, hu, hv⟩
  · have hm : m = [] := by
      rw [← size_eq_zero_iff]
      rw [hu, size_append] at hle
      omega
    subst hm
    exact ⟨[], by simpa using hu.symm, by simpa using hv.symm⟩

/-! ## Slices between boundaries -/

/-- A slice between boundaries is what stands between the parts that end and begin there. -/
theorem slice_eq_of_append {u m v : Text} : (u ++ m ++ v).slice u.size (u.size + m.size) = m := by
  rw [slice, slice?_eq_some_iff.mpr ⟨u, v, rfl, rfl, rfl⟩]
  rfl

theorem IsBoundary.exists_slice (ha : t.IsBoundary a) (hb : t.IsBoundary b) (hab : a ≤ b) :
    ∃ u v, t = u ++ t.slice a b ++ v ∧ u.size = a ∧ u.size + (t.slice a b).size = b := by
  obtain ⟨u, v, rfl, rfl⟩ := ha
  obtain ⟨u', v', h, rfl⟩ := hb
  obtain ⟨m, rfl, rfl⟩ := exists_append_of_size_le h hab
  rw [← List.append_assoc, size_append, slice_eq_of_append]
  exact ⟨u, v', rfl, rfl, rfl⟩

theorem size_slice (ha : t.IsBoundary a) (hb : t.IsBoundary b) (hab : a ≤ b) :
    (t.slice a b).size = b - a := by
  obtain ⟨u, v, -, hu, hs⟩ := ha.exists_slice hb hab
  omega

@[simp] theorem slice_self (t : Text) (a : Nat) : t.slice a a = [] := by
  rw [slice, slice?, if_pos (Nat.le_refl a), Nat.sub_self]
  cases t.drop? a <;> simp

theorem slice_eq_nil_of_le (h : b ≤ a) : t.slice a b = [] := by
  rcases Nat.eq_or_lt_of_le h with rfl | hlt
  · exact slice_self t b
  · rw [slice, slice?, if_neg (Nat.not_le_of_lt hlt)]
    rfl

/-- **Consecutive slices, put together, are one slice.** -/
theorem slice_append_slice (ha : t.IsBoundary a) (hb : t.IsBoundary b) (hc : t.IsBoundary c)
    (hab : a ≤ b) (hbc : b ≤ c) : t.slice a b ++ t.slice b c = t.slice a c := by
  obtain ⟨u, v, ht, hu, hs⟩ := ha.exists_slice hb hab
  obtain ⟨u', v', ht', hu', hs'⟩ := hb.exists_slice hc hbc
  -- both cuts at `b` are the same cut
  have hcut : u ++ t.slice a b = u' ∧ v = t.slice b c ++ v' := by
    rw [List.append_assoc] at ht'
    obtain ⟨m, hm, hv⟩ := exists_append_of_size_le (ht.symm.trans ht') (by rw [size_append]; omega)
    have : m = [] := by
      have hsize := congrArg size hm
      rw [← size_eq_zero_iff]
      rw [size_append, size_append] at hsize
      omega
    subst this
    exact ⟨by simpa using hm.symm, by simpa using hv⟩
  have hslice : t = u ++ (t.slice a b ++ t.slice b c) ++ v' := by
    rw [← List.append_assoc, hcut.1, ← ht']
  have hstop : c = u.size + (t.slice a b ++ t.slice b c).size := by
    rw [size_append]
    omega
  calc t.slice a b ++ t.slice b c
      = (u ++ (t.slice a b ++ t.slice b c) ++ v').slice u.size
          (u.size + (t.slice a b ++ t.slice b c).size) := slice_eq_of_append.symm
    _ = t.slice a c := by rw [← hslice, ← hstop, hu]

@[simp] theorem slice_zero_size (t : Text) : t.slice 0 t.size = t := by
  have h := slice_eq_of_append (u := []) (m := t) (v := [])
  simpa using h

theorem slice_isPrefix (ha : t.IsBoundary a) : t.slice 0 a <+: t := by
  obtain ⟨u, v, ht, hu, -⟩ := (isBoundary_zero t).exists_slice ha (Nat.zero_le a)
  rw [size_eq_zero_iff] at hu
  subst hu
  exact ⟨v, ht.symm⟩

end EntityMarkup.Text
