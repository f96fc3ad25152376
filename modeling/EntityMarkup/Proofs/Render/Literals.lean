import EntityMarkup.Proofs.Text.Rewriting
import EntityMarkup.Render.Mark

/-!
# The text in inline markup

`Mark.literals` is the text that marks copy. It can be had from what the marks write, because text
is escaped and a `<` therefore always begins a tag: leaving the tags out gives the escaped text.
A label is written as it is, so this needs labels that do not end their own tags.

In the same way some of the tags can be left out, by the text they are written as.

* **`stripTags_flatMap_text`**: what stands outside the tags of marks is their text, escaped.
* `unescape_stripTags_flatMap_text`: their text can be read back.
* **`deleteTokenTags_flatMap_text_append`**: deleting what tags of sentences and tokens are written
  as deletes those tags.
-/

namespace EntityMarkup.Mark

/-! ## How marks are written -/

@[simp] theorem text_literal (t : Text) : text (.literal t) = t.escape := rfl

@[simp] theorem text_beginSentence :
    text .beginSentence = ['<', 's', 'e', 'n', 't', 'e', 'n', 'c', 'e', '>'] := rfl

@[simp] theorem text_endSentence :
    text .endSentence = ['<', '/', 's', 'e', 'n', 't', 'e', 'n', 'c', 'e', '>'] := rfl

@[simp] theorem text_beginToken : text .beginToken = ['<', 't', 'o', 'k', 'e', 'n', '>'] := rfl

@[simp] theorem text_endToken : text .endToken = ['<', '/', 't', 'o', 'k', 'e', 'n', '>'] := rfl

@[simp] theorem text_beginEntity (label : String) :
    text (.beginEntity label)
      = ['<', 'n', 'e', ' ', 't', 'y', 'p', 'e', '=', '"'] ++ label.toList ++ ['"', '>'] := rfl

@[simp] theorem text_endEntity : text .endEntity = ['<', '/', 'n', 'e', '>'] := rfl

/-! ## Text and labels of marks -/

/-- The text a mark copies; a tag copies none. -/
def copied : Mark → Text
  | .literal t => t
  | _ => []

/-- The text that marks copy. -/
def literals (marks : List Mark) : Text :=
  marks.flatMap copied

/-- Every label that marks write has a property. -/
def LabelsAre (p : String → Prop) (marks : List Mark) : Prop :=
  ∀ label, .beginEntity label ∈ marks → p label

@[simp] theorem literals_append (xs ys : List Mark) :
    literals (xs ++ ys) = literals xs ++ literals ys := by
  simp [literals]

variable {p : String → Prop} {xs ys : List Mark}

theorem labelsAre_append : LabelsAre p (xs ++ ys) ↔ LabelsAre p xs ∧ LabelsAre p ys := by
  constructor
  · intro h
    exact ⟨fun label hl => h label (List.mem_append_left _ hl),
      fun label hl => h label (List.mem_append_right _ hl)⟩
  · rintro ⟨hx, hy⟩ label hl
    rcases List.mem_append.mp hl with hl | hl
    · exact hx label hl
    · exact hy label hl

theorem LabelsAre.imp {q : String → Prop} (h : LabelsAre p xs) (hpq : ∀ label, p label → q label) :
    LabelsAre q xs :=
  fun label hl => hpq label (h label hl)

theorem labelsAre_cons {m : Mark} :
    LabelsAre p (m :: xs) ↔ LabelsAre p [m] ∧ LabelsAre p xs := by
  rw [← labelsAre_append, List.singleton_append]

/-! ## Leaving out all tags -/

end EntityMarkup.Mark

namespace EntityMarkup.Text

/-- Inside a tag everything is left out up to its end. -/
theorem stripTagsFrom_true_append {t : Text} (h : '>' ∉ t) (rest : Text) :
    stripTagsFrom true (t ++ '>' :: rest) = stripTagsFrom false rest := by
  induction t with
  | nil => simp [stripTagsFrom]
  | cons c t ih =>
    have hc : c ≠ '>' := fun e => h (e ▸ List.mem_cons_self)
    have ht := ih fun hmem => h (List.mem_cons_of_mem _ hmem)
    rw [List.cons_append, stripTagsFrom]
    split
    · exact ht
    · rw [if_pos rfl, bne_iff_ne.mpr hc, ht]

/-- Outside tags everything is kept up to the next one. -/
theorem stripTagsFrom_false_append {t : Text} (h : '<' ∉ t) (rest : Text) :
    stripTagsFrom false (t ++ rest) = t ++ stripTagsFrom false rest := by
  induction t with
  | nil => rfl
  | cons c t ih =>
    have hc : c ≠ '<' := fun e => h (e ▸ List.mem_cons_self)
    have ht := ih fun hmem => h (List.mem_cons_of_mem _ hmem)
    rw [List.cons_append, stripTagsFrom, if_neg hc, if_neg Bool.false_ne_true, ht]
    rfl

end EntityMarkup.Text

namespace EntityMarkup.Mark

open Text

/-- A label that does not end the tag it stands in. -/
def KeepsTag (label : String) : Prop :=
  '>' ∉ label.toList

/-- A mark is a stretch of text, or it is written as a tag. -/
theorem text_eq_tag {m : Mark} (hm : ∀ t, m ≠ .literal t) (hlabel : LabelsAre KeepsTag [m]) :
    ∃ tag, m.text = '<' :: tag ++ ['>'] ∧ '>' ∉ tag ∧ m.copied = [] := by
  cases m with
  | literal t => exact absurd rfl (hm t)
  | beginSentence => exact ⟨['s', 'e', 'n', 't', 'e', 'n', 'c', 'e'], rfl, by decide, rfl⟩
  | endSentence => exact ⟨['/', 's', 'e', 'n', 't', 'e', 'n', 'c', 'e'], rfl, by decide, rfl⟩
  | beginToken => exact ⟨['t', 'o', 'k', 'e', 'n'], rfl, by decide, rfl⟩
  | endToken => exact ⟨['/', 't', 'o', 'k', 'e', 'n'], rfl, by decide, rfl⟩
  | endEntity => exact ⟨['/', 'n', 'e'], rfl, by decide, rfl⟩
  | beginEntity label =>
    have h : '>' ∉ label.toList := hlabel label List.mem_cons_self
    exact ⟨['n', 'e', ' ', 't', 'y', 'p', 'e', '=', '"'] ++ label.toList ++ ['"'], by simp,
      by simp [h], rfl⟩

theorem stripTagsFrom_text_append {m : Mark} (hlabel : LabelsAre KeepsTag [m]) (rest : Text) :
    stripTagsFrom false (m.text ++ rest) = m.copied.escape ++ stripTagsFrom false rest := by
  by_cases hm : ∃ t, m = .literal t
  · obtain ⟨t, rfl⟩ := hm
    exact stripTagsFrom_false_append (not_mem_escape (Or.inl rfl) t) rest
  · obtain ⟨tag, htext, htag, hliteral⟩ := text_eq_tag (fun t e => hm ⟨t, e⟩) hlabel
    rw [htext, hliteral, List.cons_append, List.cons_append, List.append_assoc, stripTagsFrom,
      if_pos rfl, List.singleton_append, stripTagsFrom_true_append htag]
    rfl

/-- **What stands outside the tags of marks is their text, escaped.** -/
theorem stripTags_flatMap_text {marks : List Mark} (hlabels : LabelsAre KeepsTag marks) :
    stripTags (marks.flatMap text) = (literals marks).escape := by
  induction marks with
  | nil => rfl
  | cons m marks ih =>
    obtain ⟨hm, hrest⟩ := labelsAre_cons.mp hlabels
    have hliterals : literals (m :: marks) = m.copied ++ literals marks := rfl
    rw [List.flatMap_cons, stripTags, stripTagsFrom_text_append hm, ← stripTags, ih hrest,
      hliterals, escape_append]

/-- The text of marks can be read back from what they write. -/
theorem unescape_stripTags_flatMap_text {marks : List Mark} (hlabels : LabelsAre KeepsTag marks) :
    unescape (stripTags (marks.flatMap text)) = literals marks := by
  rw [stripTags_flatMap_text hlabels]
  exact unescape_escape _

/-! ## Leaving out some tags -/

/-- The marks that are written in both inline formats. -/
def isShared : Mark → Bool
  | .literal _ => true
  | .beginEntity _ => true
  | .endEntity => true
  | _ => false

/-- The marks that only markup nested by tokens has. -/
def tokenMarks : List Mark :=
  [.beginSentence, .endSentence, .beginToken, .endToken]

/-- A text with every tag of a sentence or a token deleted. -/
def deleteTokenTags : Text → Text :=
  rewriteAll (tokenMarks.map fun m => (m.text, []))

/-- A label that begins no tag. -/
def OpensNoTag (label : String) : Prop :=
  '<' ∉ label.toList

theorem deleteTokenTags_append {t : Text} (h : '<' ∉ t) (rest : Text) :
    deleteTokenTags (t ++ rest) = t ++ deleteTokenTags rest := by
  apply rewriteAll_copy
  intro c hc rule hrule
  have hlt : ∀ rule ∈ tokenMarks.map fun m => (m.text, ([] : Text)),
      rule.1 = '<' :: rule.1.tail := by decide
  exact ⟨'<', _, hlt rule hrule, fun e => h (e ▸ hc)⟩

theorem deleteTokenTags_tokenMark_append {m : Mark} (hm : m.isShared = false) (rest : Text) :
    deleteTokenTags (m.text ++ rest) = deleteTokenTags rest := by
  have hfind : (tokenMarks.map fun m => (m.text, ([] : Text))).find?
      (fun rule => rule.1.isPrefixOf (m.text ++ rest)) = some (m.text, []) := by
    cases m <;> simp_all [tokenMarks, isShared, List.isPrefixOf]
  have hne : m.text ≠ [] := by
    cases m <;> simp_all [isShared]
  exact rewriteAll_append hne hfind

theorem deleteTokenTags_shared_append {m : Mark} (hm : m.isShared = true)
    (hlabel : LabelsAre OpensNoTag [m]) (rest : Text) :
    deleteTokenTags (m.text ++ rest) = m.text ++ deleteTokenTags rest := by
  -- every pattern begins with `<`, so only the first character of a tag could begin one
  have hkeep : ∀ tag : Text, (tokenMarks.map fun m => (m.text, ([] : Text))).find?
      (fun rule => rule.1.isPrefixOf ('<' :: (tag ++ rest))) = none → '<' ∉ tag →
      deleteTokenTags ('<' :: tag ++ rest) = '<' :: tag ++ deleteTokenTags rest := by
    intro tag hnone htag
    rw [deleteTokenTags, List.cons_append, rewriteAll_cons hnone, ← deleteTokenTags,
      deleteTokenTags_append htag, List.cons_append]
  cases m with
  | literal t => exact deleteTokenTags_append (not_mem_escape (Or.inl rfl) t) rest
  | endEntity =>
    exact hkeep ['/', 'n', 'e', '>'] (by simp [tokenMarks, List.isPrefixOf]) (by decide)
  | beginEntity label =>
    have h : '<' ∉ label.toList := hlabel label List.mem_cons_self
    exact hkeep (['n', 'e', ' ', 't', 'y', 'p', 'e', '=', '"'] ++ label.toList ++ ['"', '>'])
      (by simp [tokenMarks, List.isPrefixOf]) (by simp [h])
  | beginSentence => exact absurd hm (by decide)
  | endSentence => exact absurd hm (by decide)
  | beginToken => exact absurd hm (by decide)
  | endToken => exact absurd hm (by decide)

/-- **Deleting what tags of sentences and tokens are written as deletes those tags**, and nothing
else. -/
theorem deleteTokenTags_flatMap_text_append {marks : List Mark}
    (hlabels : LabelsAre OpensNoTag marks) (rest : Text) :
    deleteTokenTags (marks.flatMap text ++ rest)
      = (marks.filter isShared).flatMap text ++ deleteTokenTags rest := by
  induction marks with
  | nil => rfl
  | cons m marks ih =>
    obtain ⟨hm, hrest⟩ := labelsAre_cons.mp hlabels
    rw [List.flatMap_cons, List.append_assoc, List.filter_cons]
    split
    · rename_i hshared
      rw [deleteTokenTags_shared_append hshared hm, ih hrest, List.flatMap_cons, List.append_assoc]
    · rename_i hshared
      rw [deleteTokenTags_tokenMark_append (by simpa using hshared), ih hrest]

end EntityMarkup.Mark
