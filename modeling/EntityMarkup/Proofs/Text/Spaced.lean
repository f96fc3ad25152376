import EntityMarkup.Proofs.Unicode.Tables
import EntityMarkup.Text.Segment

/-!
# Word boundaries around a space

Before a space there is a word boundary, unless white space precedes it, and where it is does not
matter to the boundaries before it: an open segment that is not one of spaces ends at a space as it
does at the end of the text. Behind a space there is one as well, unless a character follows that is
attached to it.

* `Segment.reach_append_space`: an open segment does not see what is behind a space.
* **`segments_append_space`**: the segments of a text without white space and of what a space
  begins.
* `segments_space_cons`, `exists_segments_space_cons`: the segment that begins with a space.
-/

namespace EntityMarkup.Text

open Unicode

namespace Segment

variable {state s : State} {afterJoiner interrupted : Bool} {k : WordClass} {t : Text} {n : Nat}

/-! ## What leads to what -/

theorem ne_spaces_of_next (hstate : state ≠ .spaces)
    (h : state.next interrupted k = .join s ∨ state.next interrupted k = .hold s) :
    s ≠ .spaces := by
  rintro rfl
  rcases h with h | h <;> cases interrupted <;> cases state <;> cases k <;>
    first
      | exact hstate rfl
      | cases h

theorem next_space (hstate : state ≠ .spaces) :
    state.next interrupted .space = if state.isWaiting then .fail else .stop := by
  cases state <;>
    first
      | exact absurd rfl hstate
      | rfl

theorem isWaiting_of_next_fail (h : state.next interrupted k = .fail) :
    state.isWaiting = true := by
  cases interrupted <;> cases state <;> cases k <;> cases h <;> rfl

theorem isWaiting_of_next_join (h : state.next interrupted k = .join s) :
    s.isWaiting = false := by
  cases interrupted <;> cases state <;> cases k <;> cases h <;> rfl

/-! ## Open segments -/

theorem reach_le_length (h : reach state afterJoiner interrupted t = some n) : n ≤ t.length := by
  induction t generalizing state afterJoiner interrupted n with
  | nil =>
    rw [reach] at h
    split at h <;> cases h
    exact Nat.le_refl 0
  | cons c rest ih =>
    have hjoins : ∀ {state afterJoiner interrupted},
        (reach state afterJoiner interrupted rest).map (· + 1) = some n →
          n ≤ (c :: rest).length := by
      intro _ _ _ h
      obtain ⟨m, hm, rfl⟩ := Option.map_eq_some_iff.mp h
      exact Nat.succ_le_succ (ih hm)
    rw [reach] at h
    split at h
    · exact hjoins h
    · split at h
      · exact hjoins h
      · split at h
        · exact hjoins h
        · rename_i s _
          cases hrest : reach s false interrupted rest with
          | none =>
            rw [hrest] at h
            cases h
            exact Nat.zero_le _
          | some m =>
            rw [hrest] at h
            cases h
            exact Nat.succ_le_succ (ih hrest)
        · cases h
          exact Nat.zero_le _
        · cases h

/-- Only a segment that waits for a character can lack it. -/
theorem isWaiting_of_reach_eq_none (h : reach state afterJoiner interrupted t = none) :
    state.isWaiting = true := by
  induction t generalizing state afterJoiner interrupted with
  | nil =>
    rw [reach] at h
    split at h
    · assumption
    · cases h
  | cons c rest ih =>
    rw [reach] at h
    split at h
    · exact ih (Option.map_eq_none_iff.mp h)
    · split at h
      · cases ih (Option.map_eq_none_iff.mp h)
      · split at h
        · rename_i hnext
          have hwaiting := ih (Option.map_eq_none_iff.mp h)
          rw [isWaiting_of_next_join hnext] at hwaiting
          cases hwaiting
        · cases h
        · cases h
        · rename_i hnext
          exact isWaiting_of_next_fail hnext

/-- **An open segment does not see what is behind a space**, unless it is one of spaces itself. -/
theorem reach_append_space (hstate : state ≠ .spaces) (rest : Text) :
    reach state afterJoiner interrupted (t ++ ' ' :: rest) =
      reach state afterJoiner interrupted t := by
  have hspace : WordClass.ofChar ' ' = .space := by decide
  induction t generalizing state afterJoiner interrupted with
  | nil =>
    rw [List.nil_append, reach, reach]
    cases hwaiting : state.isWaiting <;>
      simp [hspace, WordClass.isAttached, isPictograph, next_space hstate, hwaiting]
  | cons c more ih =>
    rw [List.cons_append, reach, reach]
    split
    · rw [ih hstate]
    · split
      · have hclosed : State.closed ≠ .spaces := nofun
        rw [ih hclosed]
      · split
        · rename_i hnext
          rw [ih (ne_spaces_of_next hstate (Or.inl hnext))]
        · rename_i hnext
          rw [ih (ne_spaces_of_next hstate (Or.inr hnext))]
        · rfl
        · rfl

/-! ## Extents -/

theorem extent_le_length (c : Char) (rest : Text) : extent c rest ≤ rest.length := by
  have hreach : ∀ r : Option Nat, (∀ n, r = some n → n ≤ rest.length) → r.getD 0 ≤ rest.length := by
    intro r hr
    cases r with
    | none => exact Nat.zero_le _
    | some n => exact hr n rfl
  unfold extent
  split
  · split
    · rename_i hhead
      obtain ⟨tail, rfl⟩ := List.head?_eq_some_iff.mp hhead
      exact Nat.succ_le_succ (Nat.zero_le _)
    · exact Nat.zero_le _
  · exact Nat.zero_le _
  · exact Nat.zero_le _
  · exact hreach _ fun _ => reach_le_length

/-- A segment that begins with a character other than a space does not see what is behind one. -/
theorem extent_append_space {c : Char} (hc : WordClass.ofChar c ≠ .space) (t rest : Text) :
    extent c (t ++ ' ' :: rest) = extent c t := by
  have hstate : State.ofClass (WordClass.ofChar c) ≠ .spaces := by
    intro h
    unfold State.ofClass at h
    split at h <;> simp_all
  unfold extent
  split
  · cases t <;> rfl
  · rfl
  · rfl
  · rw [reach_append_space hstate]

end Segment

/-! ## Segments -/

/-- **A text without white space has the segments it has by itself** where a space is behind it. -/
theorem segments_append_space {t : Text} (ht : ∀ c ∈ t, isBlank c = false) (rest : Text) :
    segments (t ++ ' ' :: rest) = segments t ++ segments (' ' :: rest) := by
  fun_induction segments t with
  | case1 => rfl
  | case2 c more ih =>
    obtain ⟨hc, hmore⟩ := List.forall_mem_cons.mp ht
    have hclass : WordClass.ofChar c ≠ .space := by
      intro hclass
      rw [WordClass.isBlank_of_ofChar_eq_space hclass] at hc
      cases hc
    have hle := Segment.extent_le_length c more
    rw [List.cons_append, segments, Segment.extent_append_space hclass,
      List.take_append_of_le_length hle, List.drop_append_of_le_length hle,
      ih fun d hd => hmore d (List.mem_of_mem_drop hd), List.cons_append]

/-- A space stands alone before a character that is neither attached to it nor a space. -/
theorem segments_space_cons {c : Char} (hc : isBlank c = false)
    (hattached : (WordClass.ofChar c).isAttached = false) (rest : Text) :
    segments (' ' :: c :: rest) = [' '] :: segments (c :: rest) := by
  have hspace : WordClass.ofChar ' ' = .space := by decide
  have hclass : WordClass.ofChar c ≠ .space := by
    intro hclass
    rw [WordClass.isBlank_of_ofChar_eq_space hclass] at hc
    cases hc
  have hstop : Segment.State.spaces.next false (WordClass.ofChar c) = .stop := by
    revert hclass
    cases WordClass.ofChar c <;> simp [Segment.State.next]
  have hextent : Segment.extent ' ' (c :: rest) = 0 := by
    simp [Segment.extent, hspace, Segment.State.ofClass, Segment.reach, hattached, hstop]
  rw [segments, hextent, List.take_zero, List.drop_zero]

/-- A character that is attached to a space is in one segment with it. -/
theorem exists_segments_space_cons {c : Char} (hattached : (WordClass.ofChar c).isAttached = true)
    (rest : Text) : ∃ more others, segments (' ' :: c :: rest) = (' ' :: c :: more) :: others := by
  have hspace : WordClass.ofChar ' ' = .space := by decide
  obtain ⟨n, hn⟩ : ∃ n,
      Segment.reach .spaces (WordClass.ofChar c == .joiner) true rest = some n := by
    refine Option.ne_none_iff_exists'.mp fun hnone => ?_
    cases Segment.isWaiting_of_reach_eq_none hnone
  have hextent : Segment.extent ' ' (c :: rest) = n + 1 := by
    simp [Segment.extent, hspace, Segment.State.ofClass, Segment.reach, hattached, hn]
  rw [segments, hextent, List.take_succ_cons]
  exact ⟨_, _, rfl⟩

end EntityMarkup.Text
