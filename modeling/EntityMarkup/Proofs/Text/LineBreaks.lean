import EntityMarkup.Text.Segment
import EntityMarkup.Unicode.Blank

/-!
# Word boundaries around line breaks

There is a word boundary before and behind every carriage return and every line feed, but for one
between a carriage return and the line feed that follows it (WB3 to WB3b of UAX #29). So a segment
that holds one of them holds nothing else, and no other token of a text does.

* `WordClass.ofChar_eq_carriageReturn`: the class of carriage returns has no other character.
* `Segment.unbroken_reach`: an open segment does not go on at a line break.
* **`isBlankLine_or_unbroken`**: a segment is a line break, or holds none.
-/

namespace EntityMarkup

namespace Unicode.WordClass

theorem ofChar_eq_carriageReturn {c : Char} (h : ofChar c = .carriageReturn) : c = '\r' := by
  unfold ofChar at h
  split at h
  · unfold ofAscii at h
    split at h
    · cases h
    · split at h
      · cases h
      · split at h <;> cases h
        rename_i hcode
        exact Char.ext (UInt32.toNat.inj hcode)
  · split at h
    · cases h
    · split at h
      · cases h
      · split at h
        · cases h
        · -- none of the classes that have a table is that of carriage returns
          cases hentry : tables.find? fun entry => entry.2.contains c with
          | none => rw [hentry] at h; cases h
          | some entry =>
            rw [hentry] at h
            have hclass : entry.1 ∈ tables.map Prod.fst :=
              List.mem_map_of_mem (List.mem_of_find?_eq_some hentry)
            have hentryClass : entry.1 = .carriageReturn := h
            rw [hentryClass] at hclass
            exact absurd hclass (by simp [tables])

end Unicode.WordClass

namespace Text

open Unicode

/-- A text without carriage returns and line feeds. -/
def Unbroken (t : Text) : Prop :=
  ∀ c ∈ t, c ≠ '\n' ∧ c ≠ '\r'

namespace Segment

/-- No segment admits a line break. -/
theorem next_of_break {k : WordClass} (hk : k = .lineFeed ∨ k = .carriageReturn) (state : State)
    (interrupted : Bool) :
    state.next interrupted k = .stop ∨ state.next interrupted k = .fail := by
  rcases hk with rfl | rfl
  · cases state <;> simp [State.next, State.afterWord]
  · cases state <;> simp [State.next, State.afterWord]

theorem class_of_break {c : Char} (hc : c = '\n' ∨ c = '\r') :
    WordClass.ofChar c = .lineFeed ∨ WordClass.ofChar c = .carriageReturn := by
  rcases hc with rfl | rfl
  · exact Or.inl (by decide)
  · exact Or.inr (by decide)

/-- **An open segment does not go on at a line break.** -/
theorem unbroken_reach {state : State} {afterJoiner interrupted : Bool} {t : Text} {n : Nat}
    (h : reach state afterJoiner interrupted t = some n) : Unbroken (t.take n) := by
  induction t generalizing state afterJoiner interrupted n with
  | nil => simp [Unbroken]
  | cons c rest ih =>
    have hjoins : ∀ {m}, (c ≠ '\n' ∧ c ≠ '\r') → Unbroken (rest.take m) →
        Unbroken ((c :: rest).take (m + 1)) := by
      intro m hc hrest
      exact List.forall_mem_cons.mpr ⟨hc, hrest⟩
    unfold reach at h
    simp only at h
    by_cases hbreak : c = '\n' ∨ c = '\r'
    · have hclass := class_of_break hbreak
      have hattached : (WordClass.ofChar c).isAttached = false := by
        rcases hclass with hk | hk <;> rw [hk] <;> rfl
      have hpictograph : isPictograph c = false := by
        rcases hbreak with rfl | rfl <;> rfl
      rw [hattached, hpictograph] at h
      simp only [Bool.false_eq_true, if_false, Bool.and_false] at h
      rcases next_of_break hclass state interrupted with hnext | hnext
      · rw [hnext] at h
        obtain rfl := Option.some.inj h
        simp [Unbroken]
      · rw [hnext] at h
        cases h
    · have hc : c ≠ '\n' ∧ c ≠ '\r' := not_or.mp hbreak
      split at h
      · obtain ⟨m, hm, rfl⟩ := Option.map_eq_some_iff.mp h
        exact hjoins hc (ih hm)
      · split at h
        · obtain ⟨m, hm, rfl⟩ := Option.map_eq_some_iff.mp h
          exact hjoins hc (ih hm)
        · split at h
          · obtain ⟨m, hm, rfl⟩ := Option.map_eq_some_iff.mp h
            exact hjoins hc (ih hm)
          · rename_i s _
            obtain rfl := Option.some.inj h
            cases hreach : reach s false interrupted rest with
            | none => simp [Unbroken]
            | some m => exact hjoins hc (ih hreach)
          · obtain rfl := Option.some.inj h
            simp [Unbroken]
          · cases h

end Segment

/-- The segment that begins with a character is a line break, or holds none. -/
theorem isBlankLine_or_unbroken_extent (c : Char) (rest : Text) :
    isBlankLine (c :: rest.take (Segment.extent c rest)) = true ∨
      Unbroken (c :: rest.take (Segment.extent c rest)) := by
  by_cases hbreak : c = '\n' ∨ c = '\r'
  · left
    unfold Segment.extent
    rcases hbreak with rfl | rfl
    · have hclass : WordClass.ofChar '\n' = .lineFeed := by decide
      rw [hclass]
      rfl
    · have hclass : WordClass.ofChar '\r' = .carriageReturn := by decide
      rw [hclass]
      simp only
      split
      · rename_i hhead
        obtain ⟨tail, rfl⟩ := List.head?_eq_some_iff.mp hhead
        rfl
      · rfl
  · right
    have hc : c ≠ '\n' ∧ c ≠ '\r' := not_or.mp hbreak
    refine List.forall_mem_cons.mpr ⟨hc, ?_⟩
    unfold Segment.extent
    split
    · rename_i hclass
      exact absurd (WordClass.ofChar_eq_carriageReturn hclass) hc.2
    · exact nofun
    · exact nofun
    · cases hreach : Segment.reach (.ofClass (WordClass.ofChar c)) (WordClass.ofChar c == .joiner)
          false rest with
      | none => exact nofun
      | some n => exact Segment.unbroken_reach hreach

/-- **A segment is a line break, or holds none.** -/
theorem isBlankLine_or_unbroken {t s : Text} (h : s ∈ t.segments) :
    s.isBlankLine = true ∨ Unbroken s := by
  fun_induction segments t with
  | case1 => cases h
  | case2 c rest ih =>
    rcases List.mem_cons.mp h with rfl | h
    · exact isBlankLine_or_unbroken_extent c rest
    · exact ih h

theorem isAllBlank_of_isBlankLine {t : Text} (h : t.isBlankLine = true) : t.isAllBlank = true := by
  refine List.all_eq_true.mpr fun c hc => ?_
  have hbreak : c = '\n' ∨ c = '\r' := by simpa using List.all_eq_true.mp h c hc
  rcases hbreak with rfl | rfl <;> decide

end Text

end EntityMarkup
