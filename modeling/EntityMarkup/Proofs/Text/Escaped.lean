import EntityMarkup.Proofs.Text.Rewriting

/-!
# Escaped text

Escaped text holds no `<`, no `>` and no quotation mark, and every ampersand in it begins one of the
four references (`IsEscaped`). That is all there is to it: such a text is made of references and of
characters that stand for themselves, so that it is what its characters are escaped as once it has
been read back.

Other text can be read back as well. `readReferences` says in one pass what that comes to: each
reference becomes its character, every other character is copied, and what was written is not looked
at again. It makes no difference whether ampersands stand alone, or whether the character that a
reference becomes could complete another one.

* `isEscaped_escape`: escaping gives escaped text.
* `IsEscaped.exists_append`: escaped text begins with one character, escaped.
* `IsEscaped.escape_unescape`: escaped text is what it reads back as, escaped.
* **`unescape_eq_readReferences`**: reading back is one pass, on any text.
-/

namespace EntityMarkup.Text

/-! ## What escaped text looks like -/

/-- The references that are written in place of special characters. -/
def references : List Text :=
  [['&', 'a', 'm', 'p', ';'], ['&', 'l', 't', ';'], ['&', 'g', 't', ';'],
    ['&', 'q', 'u', 'o', 't', ';']]

/-- Nothing in a text has to be escaped but the ampersands, and these begin references. -/
structure IsEscaped (u : Text) : Prop where
  lt_not_mem : '<' ∉ u
  gt_not_mem : '>' ∉ u
  quote_not_mem : '"' ∉ u
  reference_of_amp : ∀ rest, '&' :: rest <:+ u → ∃ reference ∈ references, reference <+: '&' :: rest

variable {u : Text}

theorem mem_references_iff {reference : Text} :
    reference ∈ references ↔ ∃ c ∈ unescapeOrder, escapeChar c = reference := by
  have hreferences : references.reverse = unescapeOrder.map escapeChar := by decide
  rw [← List.mem_reverse, hreferences, List.mem_map]

theorem IsEscaped.not_mem_of_ne (h : u.IsEscaped) {c : Char} (hc : c ∈ u) (hamp : c ≠ '&') :
    c ∉ unescapeOrder := by
  simp only [unescapeOrder, List.mem_cons, List.not_mem_nil, or_false, not_or]
  refine ⟨?_, ?_, ?_, hamp⟩
  · rintro rfl
    exact h.quote_not_mem hc
  · rintro rfl
    exact h.gt_not_mem hc
  · rintro rfl
    exact h.lt_not_mem hc

theorem IsEscaped.of_append {t : Text} (h : IsEscaped (t ++ u)) : u.IsEscaped where
  lt_not_mem hmem := h.lt_not_mem (List.mem_append_right t hmem)
  gt_not_mem hmem := h.gt_not_mem (List.mem_append_right t hmem)
  quote_not_mem hmem := h.quote_not_mem (List.mem_append_right t hmem)
  reference_of_amp rest hrest := h.reference_of_amp rest (hrest.trans (List.suffix_append t u))

/-- Escaped text that does not end begins with one character, escaped. -/
theorem IsEscaped.exists_append {d : Char} (h : IsEscaped (d :: u)) :
    ∃ c after, d :: u = escapeChar c ++ after := by
  by_cases hd : d = '&'
  · subst hd
    obtain ⟨reference, hreference, after, hafter⟩ := h.reference_of_amp u (List.suffix_refl _)
    obtain ⟨c, -, rfl⟩ := mem_references_iff.mp hreference
    exact ⟨c, after, hafter.symm⟩
  · exact ⟨d, u, by rw [escapeChar_of_not_mem (h.not_mem_of_ne List.mem_cons_self hd)]; rfl⟩

/-! ## What escaping gives -/

/-- No ampersand is found where there is none. -/
theorem suffix_of_suffix_append {name rest : Text} (hname : '&' ∉ name)
    (h : '&' :: rest <:+ name ++ u) : '&' :: rest <:+ u := by
  induction name with
  | nil => exact h
  | cons x name ih =>
    rw [List.mem_cons, not_or] at hname
    rcases List.suffix_cons_iff.mp h with heq | h
    · exact absurd (List.cons.inj heq).1 hname.1
    · exact ih hname.2 h

/-- Escaped text goes on as such behind any character, escaped. -/
theorem IsEscaped.append (h : u.IsEscaped) (c : Char) : IsEscaped (escapeChar c ++ u) where
  lt_not_mem := by
    rw [List.mem_append, not_or]
    exact ⟨not_mem_escapeChar (by decide) (by decide) c, h.lt_not_mem⟩
  gt_not_mem := by
    rw [List.mem_append, not_or]
    exact ⟨not_mem_escapeChar (by decide) (by decide) c, h.gt_not_mem⟩
  quote_not_mem := by
    rw [List.mem_append, not_or]
    exact ⟨not_mem_escapeChar (by decide) (by decide) c, h.quote_not_mem⟩
  reference_of_amp rest hrest := by
    by_cases hc : c ∈ unescapeOrder
    · -- the only ampersand of a reference is its first character
      obtain ⟨name, hname, hplain⟩ := exists_name hc
      have hamp : '&' ∉ name := fun hmem => hplain '&' hmem (by decide)
      rw [hname, List.cons_append] at hrest
      rcases List.suffix_cons_iff.mp hrest with heq | hrest
      · rw [heq, ← List.cons_append, ← hname]
        exact ⟨escapeChar c, mem_references_iff.mpr ⟨c, hc, rfl⟩, List.prefix_append _ u⟩
      · exact h.reference_of_amp rest (suffix_of_suffix_append hamp hrest)
    · rw [escapeChar_of_not_mem hc] at hrest
      have hamp : '&' ∉ [c] := fun hmem => hc (List.mem_singleton.mp hmem ▸ by decide)
      exact h.reference_of_amp rest (suffix_of_suffix_append hamp hrest)

/-- **Escaping gives escaped text.** -/
theorem isEscaped_escape (t : Text) : t.escape.IsEscaped := by
  induction t with
  | nil => exact ⟨nofun, nofun, nofun, fun rest h => nomatch List.suffix_nil.mp h⟩
  | cons c t ih =>
    rw [escape, List.flatMap_cons]
    exact ih.append c

/-! ## Reading back -/

/-- An escaped character is read back in front of any text. -/
theorem unescape_escapeChar_append (c : Char) (u : Text) :
    unescape (escapeChar c ++ u) = c :: u.unescape := by
  rw [unescape_eq_restore, restore_escapeChar_append, ← unescape_eq_restore]

/-- A character with which no reference begins is copied. -/
theorem unescape_cons {d : Char} (h : ∀ reference ∈ references, ¬ reference <+: d :: u) :
    unescape (d :: u) = d :: u.unescape := by
  have hnone : unescapeOrder.find? (fun c => (escapeChar c).isPrefixOf (d :: u)) = none := by
    rw [List.find?_eq_none]
    intro c hc hprefix
    exact h _ (mem_references_iff.mpr ⟨c, hc, rfl⟩) (List.isPrefixOf_iff_prefix.mp hprefix)
  rw [unescape_eq_restore, restore_cons, hnone, ← unescape_eq_restore]

/-- **Escaped text is what it reads back as, escaped.** -/
theorem IsEscaped.escape_unescape (h : u.IsEscaped) : u.unescape.escape = u := by
  induction hlength : u.length using Nat.strongRecOn generalizing u with
  | _ n ih =>
    cases u with
    | nil => rw [unescape_eq_restore, restore_nil, escape_nil]
    | cons d u =>
      obtain ⟨c, after, hsplit⟩ := h.exists_append
      have hshorter : after.length < n := by
        have hlt : 0 < (escapeChar c).length := by
          by_cases hc : c ∈ unescapeOrder
          · obtain ⟨name, hname, -⟩ := exists_name hc
            rw [hname]
            exact Nat.succ_pos _
          · rw [escapeChar_of_not_mem hc]
            exact Nat.one_pos
        rw [← hlength, hsplit, List.length_append]
        omega
      rw [hsplit] at h ⊢
      rw [unescape_escapeChar_append, escape, List.flatMap_cons, ← escape,
        ih after.length hshorter h.of_append rfl]

/-! ## One pass -/

/-- A text in which every reference is replaced by its character, read once from left to right. -/
def readReferences : Text → Text
  | '&' :: 'a' :: 'm' :: 'p' :: ';' :: rest => '&' :: readReferences rest
  | '&' :: 'l' :: 't' :: ';' :: rest => '<' :: readReferences rest
  | '&' :: 'g' :: 't' :: ';' :: rest => '>' :: readReferences rest
  | '&' :: 'q' :: 'u' :: 'o' :: 't' :: ';' :: rest => '"' :: readReferences rest
  | c :: rest => c :: readReferences rest
  | [] => []

/-- **Reading back is one pass**, on any text: the four replacements that follow one another neither
complete a reference nor break one, and what a reference was replaced by is not read again. -/
theorem unescape_eq_readReferences (u : Text) : u.unescape = u.readReferences := by
  fun_induction readReferences u with
  | case1 rest ih => exact (unescape_escapeChar_append '&' rest).trans (by rw [ih])
  | case2 rest ih => exact (unescape_escapeChar_append '<' rest).trans (by rw [ih])
  | case3 rest ih => exact (unescape_escapeChar_append '>' rest).trans (by rw [ih])
  | case4 rest ih => exact (unescape_escapeChar_append '"' rest).trans (by rw [ih])
  | case5 c rest hamp hlt hgt hquote ih =>
    rw [unescape_cons, ih]
    intro reference hreference hprefix
    obtain ⟨after, hafter⟩ := hprefix
    simp only [references, List.mem_cons, List.not_mem_nil, or_false] at hreference
    rcases hreference with rfl | rfl | rfl | rfl
    · obtain ⟨rfl, rfl⟩ := List.cons.inj hafter
      exact hamp after rfl rfl
    · obtain ⟨rfl, rfl⟩ := List.cons.inj hafter
      exact hlt after rfl rfl
    · obtain ⟨rfl, rfl⟩ := List.cons.inj hafter
      exact hgt after rfl rfl
    · obtain ⟨rfl, rfl⟩ := List.cons.inj hafter
      exact hquote after rfl rfl
  | case6 => rw [unescape_eq_restore, restore_nil]

end EntityMarkup.Text
