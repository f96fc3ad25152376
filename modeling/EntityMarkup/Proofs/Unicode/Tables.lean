import EntityMarkup.Unicode.Blank
import EntityMarkup.Unicode.Case
import EntityMarkup.Unicode.WordClass

/-!
# Properties of the tables

The characters that the rules for word boundaries call spaces are white space. Lower-casing makes a
text longer by one character for each capital dotted I, and by no other.

* `Runs.mem_of_find?`: what is looked up in a table stands in it.
* `isBlank_of_ofChar_eq_space`: spaces are white space.
* `length_toLower`: how long a text is in lower case.
-/

namespace EntityMarkup.Unicode

/-! ## Looking a character up -/

namespace Runs

variable {runs : Runs} {n low high : Nat} {r : Run}

theorem mem_of_search (h : runs.search n low high = some r) : r ∈ runs := by
  fun_induction search runs n low high with
  | case1 => cases h
  | case2 low high _ _ _ _ ih => exact ih h
  | case3 low high _ _ _ _ ih => exact ih h
  | case4 => exact Array.mem_of_getElem? h

theorem mem_of_find? (h : runs.find? n = some r) : r ∈ runs ∧ r.has n = true := by
  obtain ⟨hsearch, hhas⟩ := Option.filter_eq_some_iff.mp h
  exact ⟨mem_of_search hsearch, hhas⟩

end Runs

theorem Run.le_of_has {r : Run} {n : Nat} (h : r.has n = true) : r.first ≤ n ∧ n ≤ r.last := by
  simp only [has, Bool.and_eq_true, decide_eq_true_eq] at h
  exact h.1

/-! ## The class of spaces -/

namespace WordClass

theorem ofAscii_eq_space {c : Char} (h : ofAscii c = .space) : c = ' ' := by
  unfold ofAscii at h
  split at h
  · cases h
  · split at h
    · cases h
    · split at h <;> cases h
      rename_i hcode
      exact Char.ext (UInt32.toNat.inj hcode)

theorem exists_blankRange {r : Run} (hr : r ∈ spaceRuns) :
    ∃ b ∈ blankRanges, b.1 ≤ r.first ∧ r.last ≤ b.2 := by
  have hall : (spaceRuns.all fun r => decide (∃ b ∈ blankRanges, b.1 ≤ r.first ∧ r.last ≤ b.2)) =
      true := by decide +kernel
  exact of_decide_eq_true (Array.all_eq_true_iff_forall_mem.mp hall r hr)

theorem isBlank_of_mem_spaceRuns {c : Char} (h : spaceRuns.contains c = true) :
    isBlank c = true := by
  obtain ⟨r, hr⟩ := Option.isSome_iff_exists.mp h
  obtain ⟨hmem, hhas⟩ := Runs.mem_of_find? hr
  obtain ⟨hfirst, hlast⟩ := Run.le_of_has hhas
  obtain ⟨b, hb, hbfirst, hblast⟩ := exists_blankRange hmem
  refine List.any_eq_true.mpr ⟨b, hb, ?_⟩
  rw [Bool.and_eq_true, decide_eq_true_eq, decide_eq_true_eq]
  exact ⟨Nat.le_trans hbfirst hfirst, Nat.le_trans hlast hblast⟩

/-- Only one table is that of spaces. -/
theorem eq_spaceRuns_of_mem_tables {entry : WordClass × Runs} (hmem : entry ∈ tables)
    (hclass : entry.1 = .space) : entry.2 = spaceRuns := by
  have hother : ∀ other ∈ tables, other.1 = .space → other = (.space, spaceRuns) := by
    unfold tables
    simp
  rw [hother entry hmem hclass]

/-- **Spaces are white space.** -/
theorem isBlank_of_ofChar_eq_space {c : Char} (h : ofChar c = .space) : isBlank c = true := by
  unfold ofChar at h
  split at h
  · rw [ofAscii_eq_space h]
    decide
  · split at h
    · cases h
    · split at h
      · cases h
      · split at h
        · cases h
        · cases hentry : tables.find? fun entry => entry.2.contains c with
          | none => rw [hentry] at h; cases h
          | some entry =>
            rw [hentry] at h
            have hcontains := List.find?_some hentry
            rw [eq_spaceRuns_of_mem_tables (List.mem_of_find?_eq_some hentry) h] at hcontains
            exact isBlank_of_mem_spaceRuns hcontains

end WordClass

/-! ## Lower case -/

theorem length_lowerChar (c : Char) :
    (lowerChar c).length = 1 + if c = '\u0130' then 1 else 0 := by
  unfold lowerChar
  split
  · rename_i hascii
    rw [if_neg]
    · rfl
    · rintro rfl
      exact absurd hascii (by decide)
  · split <;> rfl

theorem length_toLowerFrom (before t : Text) :
    (toLowerFrom before t).length = t.length + t.count '\u0130' := by
  induction t generalizing before with
  | nil => rfl
  | cons c rest ih =>
    have hchar : (if c = '\u03a3' then
        if reachesCased before && !reachesCased rest then ['\u03c2'] else ['\u03c3']
        else lowerChar c).length = 1 + if c = '\u0130' then 1 else 0 := by
      split
      · rename_i hc
        subst hc
        split <;> rfl
      · exact length_lowerChar c
    simp only [toLowerFrom, List.length_append, hchar, ih, List.length_cons, List.count_cons,
      beq_iff_eq]
    omega

/-- **A text gets longer in lower case by its capital dotted I's.** -/
theorem length_toLower (t : Text) : (toLower t).length = t.length + t.count '\u0130' :=
  length_toLowerFrom [] t

end EntityMarkup.Unicode
