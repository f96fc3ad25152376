import EntityMarkup.Proofs.Render.Unclosed
import EntityMarkup.Proofs.Text.Occurrences

/-!
# Tags and lines, counted

What a sentence adds to the tags or to the lines of the output is told by its tokens and entities.
In inline formats a `<` always begins a tag, since text is escaped, so that what tags are written as
occurs as often as there are tags. The other formats write lines, and nothing in a line holds a line
feed if no label and no form does.

* `Mark.adds_flatMap_text`: what a tag is written as occurs as often as the tag.
* `Nested.countP_sentence`, `Flat.countP_sentence`: the tags of a sentence.
* `Listing.count_render`, `Outermost.count_render`: the lines of a sentence.
-/

namespace EntityMarkup

open Mark (LabelsAre OpensNoTag stretch)
open Text (Adds adds_of_not_mem adds_cons adds_count not_mem_escape)

/-! ## Tags -/

namespace Mark

/-- What is looked for to count tags: all of a tag, or the beginning of one that has a label. -/
def tagPatterns : List Text :=
  [text .beginSentence, text .endSentence, text .beginToken, text .endToken, text .endEntity,
    ['<', 'n', 'e', ' ']]

/-- Whether a pattern occurs where a mark is written. -/
def shows (pattern : Text) (m : Mark) : Bool :=
  pattern.isPrefixOf m.text

/-- Patterns are told apart before a tag ends, whatever follows it. -/
theorem isPrefixOf_text_append {pattern : Text} (hpattern : pattern ∈ tagPatterns) {m : Mark}
    (hm : ∀ t, m ≠ .literal t) (rest : Text) :
    pattern.isPrefixOf (m.text ++ rest) = shows pattern m := by
  simp only [tagPatterns, List.mem_cons, List.not_mem_nil, or_false] at hpattern
  rcases hpattern with rfl | rfl | rfl | rfl | rfl | rfl <;>
    cases m <;> simp_all [shows, List.isPrefixOf]

theorem shows_literal {pattern : Text} (hpattern : pattern ∈ tagPatterns) (t : Text) :
    shows pattern (.literal t) = false := by
  have hlt : ∀ pattern ∈ tagPatterns, pattern = '<' :: pattern.tail := by decide
  rw [shows, text_literal, hlt pattern hpattern]
  cases hescape : t.escape with
  | nil => rfl
  | cons c rest =>
    have hc : c ≠ '<' := by
      rintro rfl
      exact not_mem_escape (Or.inl rfl) t (hescape ▸ List.mem_cons_self)
    simp [List.isPrefixOf, Ne.symm hc]

theorem adds_text {pattern : Text} (hpattern : pattern ∈ tagPatterns) {m : Mark}
    (hlabel : LabelsAre OpensNoTag [m]) : Adds pattern m.text (shows pattern m).toNat := by
  have hlt : ∀ pattern ∈ tagPatterns, pattern = '<' :: pattern.tail := by decide
  have htag : ∀ tag : Text, m.text = '<' :: tag → '<' ∉ tag → (∀ t, m ≠ .literal t) →
      Adds pattern m.text (shows pattern m).toNat := by
    intro tag htext htag hm
    have happend := isPrefixOf_text_append hpattern hm
    rw [htext] at happend ⊢
    rw [hlt pattern hpattern] at happend ⊢
    exact adds_cons htag happend
  cases m with
  | literal t =>
    rw [shows_literal hpattern, hlt pattern hpattern]
    exact adds_of_not_mem (not_mem_escape (Or.inl rfl) t) _
  | beginEntity label =>
    have h : '<' ∉ label.toList := hlabel label List.mem_cons_self
    exact htag (['n', 'e', ' ', 't', 'y', 'p', 'e', '=', '"'] ++ label.toList ++ ['"', '>']) rfl
      (by simp [h]) nofun
  | beginSentence => exact htag _ rfl (by decide) nofun
  | endSentence => exact htag _ rfl (by decide) nofun
  | beginToken => exact htag _ rfl (by decide) nofun
  | endToken => exact htag _ rfl (by decide) nofun
  | endEntity => exact htag _ rfl (by decide) nofun

/-- **What a tag is written as occurs as often as the tag.** -/
theorem adds_flatMap_text {pattern : Text} (hpattern : pattern ∈ tagPatterns) {marks : List Mark}
    (hlabels : LabelsAre OpensNoTag marks) :
    Adds pattern (marks.flatMap text) (marks.countP (shows pattern)) := by
  induction marks with
  | nil => exact .nil pattern
  | cons m marks ih =>
    obtain ⟨hm, hrest⟩ := labelsAre_cons.mp hlabels
    rw [List.flatMap_cons, List.countP_cons, Nat.add_comm]
    have hadds := (adds_text hpattern hm).append (ih hrest)
    cases hshows : shows pattern m
    · rwa [hshows] at hadds
    · rwa [hshows] at hadds

end Mark

/-! ## The tags of a sentence -/

section Tags

variable {q : Mark → Bool} {block : Text} {i n cursor : Nat} {opened pending es : List Entity}
  {tokens : Sentence}

/-- From some token on: tags of entities stand before every entity that is still to come, tags of
tokens around every token, and those of the sentence before the first and behind the last. -/
theorem Nested.countP_walk (hliteral : ∀ t, q (.literal t) = false) (hend : q .endEntity = false)
    (h : Underway i n opened pending) (hn : i + tokens.length = n) :
    (walk block i cursor opened pending tokens).marks.countP q
      = (if i = 0 ∧ tokens ≠ [] then [Mark.beginSentence].countP q else 0)
        + tokens.length * [Mark.beginToken, .endToken].countP q
        + (pending.map fun e => Mark.beginEntity e.label).countP q
        + (if tokens = [] then 0 else [Mark.endSentence].countP q) := by
  induction tokens generalizing i cursor opened pending with
  | nil =>
    obtain rfl : i = n := hn
    rw [h.pending_eq_nil]
    simp [walk]
  | cons token rest ih =>
    have hlength : i + 1 + rest.length = n := by
      rw [List.length_cons] at hn
      omega
    have hends : ∀ ending : List Entity, (ending.map fun _ => Mark.endEntity).countP q = 0 := by
      simp [hend]
    have hbegins := congrArg (fun es => (es.map fun e => Mark.beginEntity e.label).countP q)
      (startingAt_append_drop i pending)
    simp only [List.map_append, List.countP_append] at hbegins
    have hsplit : (token :: rest).length * [Mark.beginToken, .endToken].countP q
        = rest.length * [Mark.beginToken, .endToken].countP q
          + [Mark.beginToken, .endToken].countP q := by
      rw [List.length_cons, Nat.succ_mul]
    rw [walk_cons]
    simp only [List.countP_append, countP_around hliteral, hends, ih h.step hlength, hsplit,
      ← hbegins]
    cases rest with
    | nil =>
      simp
      omega
    | cons next rest =>
      simp
      omega

/-- **The tags of a sentence in markup nested by tokens.** -/
theorem Nested.countP_sentence (hliteral : ∀ t, q (.literal t) = false)
    (hend : q .endEntity = false) (hspan : ∀ e ∈ es, e.isSpanOf tokens.length = true)
    (hne : tokens ≠ []) :
    (sentence block cursor tokens (Entity.sort es)).marks.countP q
      = [Mark.beginSentence, .endSentence].countP q
        + tokens.length * [Mark.beginToken, .endToken].countP q
        + ((Entity.sort es).map fun e => Mark.beginEntity e.label).countP q := by
  have hwalk : (walk block 0 cursor [] (Entity.sort es) tokens).marks.countP q = _ :=
    countP_walk hliteral hend (underway_sort hspan) (Nat.zero_add tokens.length)
  have htags : [Mark.beginSentence, .endSentence].countP q
      = [Mark.beginSentence].countP q + [Mark.endSentence].countP q := by
    rw [← List.singleton_append, List.countP_append]
  rw [sentence, hwalk, htags, if_pos ⟨rfl, hne⟩, if_neg hne]
  omega

theorem Flat.countP_closeAll (hliteral : ∀ t, q (.literal t) = false) (offsets : List Nat) :
    (closeAll block cursor offsets).marks.countP q
      = offsets.length * [Mark.endEntity].countP q := by
  induction offsets generalizing cursor with
  | nil => simp [closeAll]
  | cons offset rest ih =>
    rw [closeAll, List.countP_append, Mark.countP_stretch hliteral, ← List.singleton_append,
      List.countP_append, ih, List.length_cons, Nat.succ_mul]
    omega

theorem Flat.countP_follow (hliteral : ∀ t, q (.literal t) = false) (stack : List Nat) :
    (follow block tokens stack cursor es).marks.countP q
      = (es.map fun e => Mark.beginEntity e.label).countP q
        + (stack.length + es.length) * [Mark.endEntity].countP q := by
  induction es generalizing stack cursor with
  | nil => exact (countP_closeAll hliteral stack).trans (by simp)
  | cons e rest ih =>
    have hsplit : (endingBy (startOffset tokens e) stack).length
        + (stack.drop (endingBy (startOffset tokens e) stack).length).length = stack.length := by
      have hle : (endingBy (startOffset tokens e) stack).length ≤ stack.length :=
        (List.takeWhile_sublist _).length_le
      rw [List.length_drop]
      omega
    have hbegin : ∀ ms, (.beginEntity e.label :: ms).countP q
        = [Mark.beginEntity e.label].countP q + ms.countP q := by
      intro ms
      rw [← List.singleton_append, List.countP_append]
    rw [follow, List.countP_append, List.countP_append, countP_closeAll hliteral,
      Mark.countP_stretch hliteral, List.map_cons,
      hbegin (rest.map fun e => Mark.beginEntity e.label), hbegin (follow ..).marks, ih, stackAfter,
      List.length_cons, List.length_cons, ← hsplit]
    simp only [Nat.add_mul, Nat.one_mul]
    omega

/-- **The tags of a sentence in markup by stretches of text.** -/
theorem Flat.countP_sentence (hliteral : ∀ t, q (.literal t) = false) :
    (sentence block cursor tokens es).marks.countP q
      = (es.map fun e => Mark.beginEntity e.label).countP q
        + es.length * [Mark.endEntity].countP q := by
  rw [sentence_eq_follow, countP_follow hliteral, List.length_nil, Nat.zero_add]

end Tags

/-! ## The lines of a sentence -/

theorem lineFeed_not_mem_toString (n : Nat) : '\n' ∉ (toString n).toList := by
  intro hmem
  have hdigits : (toString n).toList = Nat.toDigits 10 n := by simp
  rw [hdigits] at hmem
  have hdigit := Nat.isDigit_of_mem_toDigits (by decide) (by decide) hmem
  revert hdigit
  decide

theorem not_mem_intercalate {c : Char} {separator : Text} {texts : List Text}
    (hseparator : c ∉ separator) (htexts : ∀ t ∈ texts, c ∉ t) :
    c ∉ List.intercalate separator texts := by
  induction texts with
  | nil => simp
  | cons t rest ih =>
    obtain ⟨ht, hrest⟩ := List.forall_mem_cons.mp htexts
    cases rest with
    | nil => simpa using ht
    | cons u rest =>
      rw [List.intercalate_cons_cons]
      simp only [List.mem_append, not_or]
      exact ⟨⟨ht, hseparator⟩, ih hrest⟩

/-- Texts that each hold a character once hold it as often as there are texts. -/
theorem count_flatMap_of_one {α : Type} {c : Char} {f : α → Text} {xs : List α}
    (h : ∀ x ∈ xs, (f x).count c = 1) : (xs.flatMap f).count c = xs.length := by
  induction xs with
  | nil => rfl
  | cons x rest ih =>
    obtain ⟨hx, hrest⟩ := List.forall_mem_cons.mp h
    rw [List.flatMap_cons, List.count_append, hx, ih hrest, List.length_cons, Nat.add_comm]

theorem Listing.count_row {first : Nat} {tokens : Sentence} {e : Entity}
    (hlabel : '\n' ∉ e.label.toList) (hforms : ∀ t ∈ tokens, '\n' ∉ t.form) :
    (row first tokens e).text.count '\n' = 1 := by
  have hnumbers : '\n' ∉ List.intercalate [',', ' ']
      ((row first tokens e).numbers.map fun n => (toString n).toList) := by
    refine not_mem_intercalate (by decide) fun t ht => ?_
    obtain ⟨n, -, rfl⟩ := List.mem_map.mp ht
    exact lineFeed_not_mem_toString n
  have hcovered : '\n' ∉ (row first tokens e).forms.flatten := by
    intro hmem
    obtain ⟨form, hform, hmem⟩ := List.mem_flatten.mp hmem
    obtain ⟨t, ht, rfl⟩ := List.mem_map.mp hform
    exact hforms t (List.mem_of_mem_drop (List.mem_of_mem_take ht)) hmem
  have hlabel' : '\n' ∉ (row first tokens e).label.toList := hlabel
  simp only [Row.text, List.count_append, List.count_eq_zero.mpr hnumbers,
    List.count_eq_zero.mpr hcovered, List.count_eq_zero.mpr hlabel']
  rfl

/-- **The listing of a sentence has a line for each entity.** -/
theorem Listing.count_render {first : Nat} {tokens : Sentence} {es : List Entity}
    (hlabels : ∀ e ∈ es, '\n' ∉ e.label.toList) (hforms : ∀ t ∈ tokens, '\n' ∉ t.form) :
    (Event.written (render first tokens es)).count '\n' = es.length := by
  rw [render, Event.written_map]
  exact count_flatMap_of_one fun e he => count_row (hlabels e he) hforms

namespace Outermost

theorem length_tags (i : Nat) (current : Option Open) (pending : List Entity) (count : Nat) :
    (tags i current pending count).length = count := by
  induction count generalizing i current pending with
  | zero => rfl
  | succ count ih =>
    unfold tags
    cases current with
    | some o => exact congrArg Nat.succ (ih _ _ _)
    | none =>
      simp only
      split <;> exact congrArg Nat.succ (ih _ _ _)

/-- Tags have the labels of the entities. -/
theorem lineFeed_not_mem_tag {i count : Nat} {current : Option Open} {pending : List Entity}
    (hcurrent : ∀ o ∈ current, '\n' ∉ o.label.toList)
    (hpending : ∀ e ∈ pending, '\n' ∉ e.label.toList) :
    ∀ tag ∈ tags i current pending count, '\n' ∉ tag.text := by
  have hadvance : ∀ o : Open, '\n' ∉ o.label.toList → ∀ o' ∈ o.advance, '\n' ∉ o'.label.toList := by
    intro o ho o' ho'
    unfold Open.advance at ho'
    split at ho'
    · cases ho'
      exact ho
    · cases ho'
  induction count generalizing i current pending with
  | zero => exact nofun
  | succ count ih =>
    have hlater : ∀ n, ∀ e ∈ pending.drop n, '\n' ∉ e.label.toList :=
      fun n e he => hpending e (List.mem_of_mem_drop he)
    unfold tags
    cases current with
    | some o =>
      have ho := hcurrent o rfl
      exact List.forall_mem_cons.mpr ⟨by simp [Tag.text, ho], ih (hadvance o ho) (hlater _)⟩
    | none =>
      simp only
      split
      · rename_i e he
        have he := hpending e ((List.takeWhile_sublist _).subset (List.mem_of_find?_eq_some he))
        exact List.forall_mem_cons.mpr
          ⟨by simp [Tag.text, he], ih (hadvance ⟨e.label, e.length⟩ he) (hlater _)⟩
      · exact List.forall_mem_cons.mpr ⟨by simp [Tag.text], ih (by simp) (hlater _)⟩

/-- **A tagged sentence has a line for each token, and one behind them.** -/
theorem count_render {tokens : Sentence} {es : List Entity}
    (hlabels : ∀ e ∈ es, '\n' ∉ e.label.toList) (hforms : ∀ t ∈ tokens, '\n' ∉ t.form) :
    (Event.written (render tokens es)).count '\n' = tokens.length + 1 := by
  have hrow : ∀ r ∈ tokens.forms.zip (tags 0 none es tokens.length),
      (row r.1 r.2).count '\n' = 1 := by
    intro r hr
    obtain ⟨hform, htag⟩ := List.of_mem_zip hr
    obtain ⟨t, ht, hform⟩ := List.mem_map.mp hform
    have hform : '\n' ∉ r.1 := hform ▸ hforms t ht
    have htag := lineFeed_not_mem_tag (by simp) hlabels r.2 htag
    simp only [row, List.count_append, List.count_eq_zero.mpr hform, List.count_eq_zero.mpr htag]
    rfl
  rw [render, Event.written_append, Event.written_map, List.count_append,
    count_flatMap_of_one hrow, List.length_zip, length_tags, Sentence.forms, List.length_map,
    Nat.min_self]
  rfl

end Outermost

end EntityMarkup
