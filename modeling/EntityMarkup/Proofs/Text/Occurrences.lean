import EntityMarkup.Text

/-!
# Occurrences of a pattern

How often a pattern occurs in a text cannot be told from the parts of the text: it can also occur
across a cut. `Adds` says of a text that it does not do so at its end, whatever follows, and is kept
when texts are put together. That is so of a pattern of one character, and of a pattern that begins
with a character which stands at the beginning of a text only, once its place there is looked at.

* `adds_of_not_mem`, `adds_cons`: texts that do not hold the first character of the pattern, or only
  at their beginning.
* `adds_count`: a pattern of one character.
-/

namespace EntityMarkup.Text

/-- How often a pattern that is not empty occurs in a text. -/
def occurrences (pattern : Text) : Text → Nat
  | [] => 0
  | c :: rest => (if pattern.isPrefixOf (c :: rest) then 1 else 0) + occurrences pattern rest

/-- A text adds so many occurrences of a pattern to whatever follows it. -/
def Adds (pattern t : Text) (n : Nat) : Prop :=
  ∀ rest, occurrences pattern (t ++ rest) = n + occurrences pattern rest

namespace Adds

variable {pattern t u : Text} {m n : Nat}

theorem nil (pattern : Text) : Adds pattern [] 0 := by
  intro rest
  rw [List.nil_append, Nat.zero_add]

theorem append (ht : Adds pattern t m) (hu : Adds pattern u n) : Adds pattern (t ++ u) (m + n) := by
  intro rest
  rw [List.append_assoc, ht, hu, Nat.add_assoc]

theorem occurrences_eq (h : Adds pattern t n) : occurrences pattern t = n := by
  have hnil := h []
  rwa [List.append_nil] at hnil

end Adds

/-- A text without the first character of a pattern adds no occurrence. -/
theorem adds_of_not_mem {c : Char} {t : Text} (h : c ∉ t) (pattern : Text) :
    Adds (c :: pattern) t 0 := by
  intro rest
  induction t with
  | nil => rw [List.nil_append, Nat.zero_add]
  | cons d t ih =>
    have hne : c ≠ d := fun e => h (e ▸ List.mem_cons_self)
    have ht : c ∉ t := fun hmem => h (List.mem_cons_of_mem d hmem)
    have hfirst : (c :: pattern).isPrefixOf (d :: (t ++ rest)) = false := by
      simp [List.isPrefixOf, hne]
    rw [List.cons_append, occurrences, hfirst, ih ht]
    simp

/-- A text that holds the first character of a pattern at its beginning only adds an occurrence if
the pattern stands there. -/
theorem adds_cons {c : Char} {pattern t : Text} {found : Bool} (h : c ∉ t)
    (hfound : ∀ rest, (c :: pattern).isPrefixOf (c :: t ++ rest) = found) :
    Adds (c :: pattern) (c :: t) found.toNat := by
  intro rest
  rw [List.cons_append, occurrences, ← List.cons_append, hfound, adds_of_not_mem h pattern rest]
  cases found <;> simp

theorem adds_count (c : Char) (t : Text) : Adds [c] t (t.count c) := by
  intro rest
  induction t with
  | nil => rw [List.nil_append, List.count_nil, Nat.zero_add]
  | cons d t ih =>
    rw [List.cons_append, occurrences, ih, List.count_cons]
    by_cases hd : c = d
    · rw [if_pos (by simp [List.isPrefixOf, hd]), if_pos (by simp [hd])]
      omega
    · rw [if_neg (by simp [List.isPrefixOf, hd]), if_neg (by simp [Ne.symm hd])]
      omega

theorem occurrences_singleton (c : Char) (t : Text) : occurrences [c] t = t.count c :=
  (adds_count c t).occurrences_eq

end EntityMarkup.Text
