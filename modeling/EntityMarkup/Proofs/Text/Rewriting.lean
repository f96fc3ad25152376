import EntityMarkup.Text.Escape

/-!
# Rewriting a text in one pass

`rewriteAll rules` goes through a text once, from left to right. Where the left side of a rule
stands, its right side is written instead; every other character is copied. What was written is
never looked at again.

Reading references back is such a pass (`restore`), and so is leaving certain tags out. The four
replacements of `unescape` follow one another, but no replacement can complete a reference or
destroy one, so that together they are the one pass:

* **`unescape_eq_restore`**: reading references back one kind after another is reading them back in
  one pass.
* **`unescape_escape`**: escaped text reads back.
-/

namespace EntityMarkup.Text

/-- The text in which the left side of each rule is replaced by its right side. -/
def rewriteAll (rules : List (Text × Text)) : Text → Text
  | [] => []
  | c :: rest =>
    match rules.find? fun rule => rule.1.isPrefixOf (c :: rest) with
    | some rule => rule.2 ++ rewriteAll rules (rest.drop (rule.1.length - 1))
    | none => c :: rewriteAll rules rest
termination_by t => t.length

section Steps

variable {rules : List (Text × Text)}

@[simp] theorem rewriteAll_nil (rules : List (Text × Text)) : rewriteAll rules [] = [] := by
  rw [rewriteAll]

theorem rewriteAll_cons {c : Char} {rest : Text}
    (h : rules.find? (fun rule => rule.1.isPrefixOf (c :: rest)) = none) :
    rewriteAll rules (c :: rest) = c :: rewriteAll rules rest := by
  rw [rewriteAll, h]

theorem rewriteAll_append {left right rest : Text} (hne : left ≠ [])
    (h : rules.find? (fun rule => rule.1.isPrefixOf (left ++ rest)) = some (left, right)) :
    rewriteAll rules (left ++ rest) = right ++ rewriteAll rules rest := by
  obtain ⟨c, left, rfl⟩ := List.exists_cons_of_ne_nil hne
  rw [List.cons_append] at h ⊢
  rw [rewriteAll, h]
  simp

/-- A text in which no rule can begin is copied. -/
theorem rewriteAll_copy {t rest : Text}
    (h : ∀ c ∈ t, ∀ rule ∈ rules, ∃ d left, rule.1 = d :: left ∧ d ≠ c) :
    rewriteAll rules (t ++ rest) = t ++ rewriteAll rules rest := by
  induction t with
  | nil => rfl
  | cons c t ih =>
    have hnone : rules.find? (fun rule => rule.1.isPrefixOf (c :: (t ++ rest))) = none := by
      rw [List.find?_eq_none]
      intro rule hrule
      obtain ⟨d, left, hleft, hne⟩ := h c List.mem_cons_self rule hrule
      simp [hleft, List.isPrefixOf, hne]
    rw [List.cons_append, rewriteAll_cons hnone,
      ih fun c hc => h c (List.mem_cons_of_mem _ hc), List.cons_append]

end Steps

/-! ## References -/

/-- The text in which the references of certain characters are read back in one pass. -/
def restore (chars : List Char) : Text → Text :=
  rewriteAll (chars.map fun c => (escapeChar c, [c]))

/-- A reference is an ampersand and a name, and the name holds no special character. -/
theorem exists_name {c : Char} (h : c ∈ unescapeOrder) :
    ∃ name, escapeChar c = '&' :: name ∧ ∀ x ∈ name, x ∉ unescapeOrder := by
  have hall : ∀ c ∈ unescapeOrder, escapeChar c = '&' :: (escapeChar c).tail ∧
      ∀ x ∈ (escapeChar c).tail, x ∉ unescapeOrder := by
    simp [unescapeOrder, escapeChar, reference?]
  exact ⟨_, hall c h⟩

/-- Every special character is read back, and no other. -/
theorem escapeChar_of_not_mem {c : Char} (h : c ∉ unescapeOrder) : escapeChar c = [c] := by
  simp only [unescapeOrder, List.mem_cons, List.not_mem_nil, or_false, not_or] at h
  obtain ⟨hquote, hgt, hlt, hamp⟩ := h
  simp [escapeChar, reference?]

theorem restore_cons (chars : List Char) (d : Char) (rest : Text) :
    restore chars (d :: rest) =
      match chars.find? fun c => (escapeChar c).isPrefixOf (d :: rest) with
      | some c => c :: restore chars (rest.drop ((escapeChar c).length - 1))
      | none => d :: restore chars rest := by
  rw [restore, rewriteAll, List.find?_map, Function.comp_def]
  cases chars.find? fun c => (escapeChar c).isPrefixOf (d :: rest) with
  | none => rfl
  | some c => rfl

@[simp] theorem restore_nil (chars : List Char) : restore chars [] = [] :=
  rewriteAll_nil _

section Restoring

variable {chars : List Char} (hchars : ∀ c ∈ chars, c ∈ unescapeOrder)

include hchars

theorem eq_amp_of_find? {c d : Char} {rest : Text}
    (h : chars.find? (fun c => (escapeChar c).isPrefixOf (d :: rest)) = some c) :
    c ∈ chars ∧ d = '&' := by
  have hc := List.mem_of_find?_eq_some h
  obtain ⟨name, hname, -⟩ := exists_name (hchars c hc)
  have hp := List.find?_some h
  rw [hname, List.isPrefixOf, Bool.and_eq_true, beq_iff_eq] at hp
  exact ⟨hc, hp.1.symm⟩

/-- The name of a reference is not changed by reading references. -/
theorem restore_name_append {name rest : Text} (hname : ∀ x ∈ name, x ∉ unescapeOrder) :
    restore chars (name ++ rest) = name ++ restore chars rest := by
  apply rewriteAll_copy
  intro x hx rule hrule
  obtain ⟨c, hc, rfl⟩ := List.mem_map.mp hrule
  obtain ⟨left, hleft, -⟩ := exists_name (hchars c hc)
  refine ⟨'&', left, hleft, ?_⟩
  rintro rfl
  exact hname _ hx (by decide)

/-- Reading references neither completes nor destroys a name. -/
theorem isPrefixOf_restore {name : Text} (hname : ∀ x ∈ name, x ∉ unescapeOrder) (t : Text) :
    name.isPrefixOf (restore chars t) = name.isPrefixOf t := by
  induction name generalizing t with
  | nil => simp
  | cons x name ih =>
    have hx := hname x List.mem_cons_self
    cases t with
    | nil => simp
    | cons d rest =>
      rw [restore_cons]
      cases h : chars.find? fun c => (escapeChar c).isPrefixOf (d :: rest) with
      | none =>
        simp only [List.isPrefixOf]
        rw [ih (fun y hy => hname y (List.mem_cons_of_mem _ hy))]
      | some c =>
        obtain ⟨hc, rfl⟩ := eq_amp_of_find? hchars h
        have hne : x ≠ c := fun e => hx (e ▸ hchars c hc)
        have hne' : x ≠ '&' := fun e => hx (e ▸ by decide)
        simp only [List.isPrefixOf, beq_false_of_ne hne, beq_false_of_ne hne', Bool.false_and]

/-- **One more kind of reference** can be read after the others or together with them, as long as
the ampersand has not been restored yet. -/
theorem replaceAll_restore {c : Char} (hc : c ∈ unescapeOrder) (hamp : '&' ∉ chars) (t : Text) :
    replaceAll (escapeChar c) c (restore chars t) = restore (chars ++ [c]) t := by
  obtain ⟨name, hname, hplain⟩ := exists_name hc
  induction h : t.length using Nat.strongRecOn generalizing t with
  | _ n ih =>
    cases t with
    | nil => simp [replaceAll]
    | cons d rest =>
      rw [restore_cons, restore_cons, List.find?_append]
      cases hfind : chars.find? fun c => (escapeChar c).isPrefixOf (d :: rest) with
      | some c' =>
        -- what was restored is no ampersand, so no reference begins with it
        have hne : '&' ≠ c' := fun e => hamp (e ▸ (eq_amp_of_find? hchars hfind).1)
        rw [Option.some_or, replaceAll, if_neg (by simp [hname, List.isPrefixOf, hne])]
        simp only
        rw [ih _ (by simp only [List.length_drop, List.length_cons] at h ⊢; omega) _ rfl]
      | none =>
        have hprefix : (escapeChar c).isPrefixOf (d :: restore chars rest)
            = (escapeChar c).isPrefixOf (d :: rest) := by
          rw [hname, List.isPrefixOf, List.isPrefixOf, isPrefixOf_restore hchars hplain]
        rw [Option.none_or, replaceAll, hprefix]
        by_cases hp : (escapeChar c).isPrefixOf (d :: rest) = true
        · have hrest : name <+: rest := by
            rw [hname, List.isPrefixOf, Bool.and_eq_true] at hp
            exact List.isPrefixOf_iff_prefix.mp hp.2
          obtain ⟨after, rfl⟩ := hrest
          rw [if_pos hp, List.find?_singleton, if_pos hp]
          simp only [hname, List.length_cons, Nat.add_sub_cancel, List.drop_left,
            restore_name_append hchars hplain]
          have hshorter : (List.length after) < n := by
            simp only [List.length_append, List.length_cons] at h
            omega
          rw [← hname, ih _ hshorter _ rfl]
        · rw [if_neg hp, List.find?_singleton, if_neg hp]
          simp only
          rw [ih _ (by simp only [List.length_cons] at h; omega) _ rfl]

end Restoring

/-- **Reading references back one kind after another is one pass.** -/
theorem unescape_eq_restore (t : Text) : t.unescape = restore unescapeOrder t := by
  have hnone : restore [] t = t := by
    have h : rewriteAll [] (t ++ []) = t ++ rewriteAll [] [] := rewriteAll_copy (by simp)
    rwa [List.append_nil, rewriteAll_nil, List.append_nil] at h
  calc t.unescape
      = replaceAll (escapeChar '&') '&' (replaceAll (escapeChar '<') '<'
          (replaceAll (escapeChar '>') '>' (replaceAll (escapeChar '"') '"' (restore [] t)))) := by
        rw [hnone]
        rfl
    _ = restore unescapeOrder t := by
        rw [replaceAll_restore (by simp) (by decide) (by decide),
          replaceAll_restore (by simp [unescapeOrder]) (by decide) (by decide),
          replaceAll_restore (by simp [unescapeOrder]) (by decide) (by decide),
          replaceAll_restore (by simp [unescapeOrder]) (by decide) (by decide)]
        rfl

/-! ## Escaped text -/

/-- An escaped character is read back as that character. -/
theorem restore_escapeChar_append (c : Char) (rest : Text) :
    restore unescapeOrder (escapeChar c ++ rest) = c :: restore unescapeOrder rest := by
  by_cases h : c ∈ unescapeOrder
  · have hfind : unescapeOrder.find? (fun d => (escapeChar d).isPrefixOf (escapeChar c ++ rest))
        = some c := by
      simp only [unescapeOrder, List.mem_cons, List.not_mem_nil, or_false] at h
      rcases h with rfl | rfl | rfl | rfl <;>
        simp [unescapeOrder, escapeChar, reference?, List.isPrefixOf]
    obtain ⟨name, hname, -⟩ := exists_name h
    rw [hname, List.cons_append] at hfind ⊢
    rw [restore_cons, hfind]
    simp [hname]
  · rw [escapeChar_of_not_mem h]
    exact restore_name_append (fun _ hx => hx) (by simpa using h)

theorem restore_escape (t : Text) : restore unescapeOrder t.escape = t := by
  induction t with
  | nil => simp
  | cons c t ih => rw [escape, List.flatMap_cons, restore_escapeChar_append, ← escape, ih]

/-- **Escaped text reads back.** -/
@[simp] theorem unescape_escape (t : Text) : t.escape.unescape = t := by
  rw [unescape_eq_restore, restore_escape]

/-- Of the special characters only the ampersand stands in references. -/
theorem not_mem_escapeChar {c : Char} (hc : c ∈ unescapeOrder) (hamp : c ≠ '&') (d : Char) :
    c ∉ escapeChar d := by
  by_cases hd : d ∈ unescapeOrder
  · obtain ⟨name, hname, hplain⟩ := exists_name hd
    rw [hname, List.mem_cons, not_or]
    exact ⟨hamp, fun hmem => hplain c hmem hc⟩
  · rw [escapeChar_of_not_mem hd, List.mem_singleton]
    exact fun heq => hd (heq ▸ hc)

theorem not_mem_escape {c : Char} (hc : c = '<' ∨ c = '>') (t : Text) : c ∉ t.escape := by
  have hspecial : c ∈ unescapeOrder ∧ c ≠ '&' := by rcases hc with rfl | rfl <;> decide
  rw [escape, List.mem_flatMap]
  rintro ⟨d, -, hd⟩
  exact not_mem_escapeChar hspecial.1 hspecial.2 d hd

end EntityMarkup.Text
