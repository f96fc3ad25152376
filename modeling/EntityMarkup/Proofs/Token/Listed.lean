import EntityMarkup.Proofs.Text.Lines
import EntityMarkup.Proofs.Token.Pieces

/-!
# The tokens of listed text are its lines

In listed text the tokens of all sentences, in order, are the lines that are not blank, each without
its line end and at the offset of its line.

* `map_forms_sentences`: the forms of the sentences, from the lines of the text.
* **`getElem?_sentences_of_lines`**: where blank lines come after all others, the `k`-th token is
  the `k`-th line.
* `map_forms_sentences_of_lines`, `length_sentences_le_one`: and there these lines are one sentence.
-/

namespace EntityMarkup

namespace Placed

theorem ofPieces_append (n : Nat) (xs ys : List Text) :
    ofPieces n (xs ++ ys) = ofPieces n xs ++ ofPieces (n + Text.size xs.flatten) ys := by
  induction xs generalizing n with
  | nil => rfl
  | cons x xs ih =>
    rw [List.cons_append, ofPieces, ofPieces, ih, List.flatten_cons, Text.size_append,
      Nat.add_assoc, List.cons_append]

theorem getElem?_ofPieces (n : Nat) (pieces : List Text) (k : Nat) :
    (ofPieces n pieces)[k]?
      = pieces[k]?.map fun piece => ⟨n + Text.size (pieces.take k).flatten, piece⟩ := by
  induction pieces generalizing n k with
  | nil => rfl
  | cons piece rest ih =>
    cases k with
    | zero => rfl
    | succ k =>
      rw [ofPieces, List.getElem?_cons_succ, ih, List.getElem?_cons_succ, List.take_succ_cons,
        List.flatten_cons, Text.size_append, Nat.add_assoc]

/-- The same piece, further behind. -/
def shift (k : Nat) (p : Placed) : Placed :=
  ⟨p.start + k, p.form⟩

theorem ofPieces_add (n k : Nat) (pieces : List Text) :
    ofPieces (n + k) pieces = (ofPieces n pieces).map (shift k) := by
  induction pieces generalizing n with
  | nil => rfl
  | cons piece rest ih =>
    rw [ofPieces, ofPieces, List.map_cons, ← ih, Nat.add_right_comm]
    rfl

theorem map_form_map_shift (k : Nat) (ps : List Placed) :
    (ps.map (shift k)).map form = ps.map form := by
  rw [List.map_map]
  rfl

end Placed

namespace Listed

theorem splitOnP_map {α β : Type} (f : α → β) (p : β → Bool) (xs : List α) :
    (xs.map f).splitOnP p = (xs.splitOnP fun x => p (f x)).map (List.map f) := by
  induction xs with
  | nil => rfl
  | cons x xs ih =>
    rw [List.map_cons, List.splitOnP_cons_eq_if_modifyHead, List.splitOnP_cons_eq_if_modifyHead, ih]
    obtain ⟨group, groups, hgroup⟩ :=
      List.exists_cons_of_ne_nil (List.splitOnP_ne_nil (fun x => p (f x)) xs)
    split <;> simp [hgroup]

/-- A list that is cut at its end only is one group. -/
theorem filter_splitOnP_append {α : Type} {p : α → Bool} {xs ys : List α}
    (hxs : ∀ x ∈ xs, p x = false) (hys : ∀ y ∈ ys, p y = true) (hne : xs ≠ []) :
    ((xs ++ ys).splitOnP p).filter (!·.isEmpty) = [xs] := by
  have hfirst : [xs].filter (!·.isEmpty) = [xs] := by simp [hne]
  cases ys with
  | nil => rw [List.append_nil, List.splitOnP_eq_singleton hxs, hfirst]
  | cons y ys =>
    obtain ⟨hy, hys⟩ := List.forall_mem_cons.mp hys
    have hflat : (ys.splitOnP p).flatten = [] := by
      rw [flatten_splitOnP, List.filter_eq_nil_iff]
      exact fun y hy => by simp [hys y hy]
    have hrest : (ys.splitOnP p).filter (!·.isEmpty) = [] := by
      rw [List.filter_eq_nil_iff]
      exact fun group hgroup => by simp [List.flatten_eq_nil_iff.mp hflat group hgroup]
    rw [List.splitOnP_append_cons xs ys hy, List.splitOnP_eq_singleton hxs, List.filter_append,
      hfirst, hrest, List.append_nil]

/-- The sentences of listed text hold the contents of its lines between those without any. -/
theorem map_forms_sentences (t : Text) :
    (sentences t).map Sentence.forms
      = ((t.lines.map Text.trimLineEnd).splitOnP List.isEmpty).filter (!·.isEmpty) := by
  have hcontents : (contents t).map Placed.form = t.lines.map Text.trimLineEnd := by
    rw [contents, List.map_map, ← Placed.map_form_ofPieces 0 t.lines, List.map_map]
    simp [Function.comp_def]
  have hforms : ∀ pieces, Sentence.forms (Placed.sentence pieces) = pieces.map Placed.form := by
    intro pieces
    rw [← congrArg (List.map Placed.form) (Placed.map_piece_sentence pieces), List.map_map]
    rfl
  rw [← hcontents, splitOnP_map, List.filter_map, sentences, List.map_map]
  simp [Function.comp_def, hforms]

/-- A line without its line end. -/
def content (p : Placed) : Placed :=
  { p with form := p.form.trimLineEnd }

/-- Of lines that are all blank no content is left, and of lines none of which is, all. -/
theorem filter_map_content (n : Nat) {ls : List Text} {blank : Bool}
    (h : ∀ line ∈ ls, line.isBlankLine = blank) :
    ((Placed.ofPieces n ls).map content).filter (fun p => !p.form.isEmpty)
      = if blank then [] else (Placed.ofPieces n ls).map content := by
  induction ls generalizing n with
  | nil => cases blank <;> rfl
  | cons line rest ih =>
    obtain ⟨hline, hrest⟩ := List.forall_mem_cons.mp h
    have hempty : (content ⟨n, line⟩).form.isEmpty = blank := by
      rw [← hline, Bool.eq_iff_iff, List.isEmpty_iff]
      exact Text.trimLineEnd_eq_nil_iff
    rw [Placed.ofPieces, List.map_cons, List.filter_cons, hempty, ih _ hrest]
    cases blank <;> rfl

section Lines

variable {body ending : List Text} (hlines : Text.AreLines (body ++ ending))
  (hbody : ∀ line ∈ body, line.isBlankLine = false)
  (hending : ∀ line ∈ ending, line.isBlankLine = true)

include hlines hbody hending

/-- The tokens of listed text whose blank lines come after all others are these others. -/
theorem map_piece_sentences_of_lines :
    (sentences (body ++ ending).flatten).flatten.map Token.piece
      = (Placed.ofPieces 0 body).map content := by
  have hcontents : contents (body ++ ending).flatten
      = (Placed.ofPieces 0 body).map content
        ++ (Placed.ofPieces (Text.size body.flatten) ending).map content := by
    rw [contents, Text.lines_flatten hlines, Placed.ofPieces_append, List.map_append, Nat.zero_add]
    rfl
  rw [map_piece_sentences, hcontents, List.filter_append, filter_map_content _ hbody,
    filter_map_content _ hending, if_pos rfl, List.append_nil]
  rfl

theorem length_sentences_of_lines :
    (sentences (body ++ ending).flatten).flatten.length = body.length := by
  have h := congrArg List.length (map_piece_sentences_of_lines hlines hbody hending)
  rw [List.length_map, List.length_map] at h
  rw [h, ← List.length_map Placed.form, Placed.map_form_ofPieces]

/-- **The `k`-th token is the `k`-th line**, where blank lines come after all others. -/
theorem getElem?_sentences_of_lines {k : Nat} {t : Token}
    (ht : (sentences (body ++ ending).flatten).flatten[k]? = some t) :
    ∃ line, body[k]? = some line ∧ line.trimLineEnd = t.form ∧
      Text.size (body.take k).flatten = t.start := by
  have h := congrArg (·[k]?) (map_piece_sentences_of_lines hlines hbody hending)
  simp only [List.getElem?_map, ht, Placed.getElem?_ofPieces, Option.map_some, Option.map_map] at h
  obtain ⟨line, hline, hpiece⟩ := Option.map_eq_some_iff.mp h.symm
  obtain ⟨hstart, hform⟩ := Placed.mk.inj hpiece
  exact ⟨line, hline, hform, by rw [← hstart, Nat.zero_add]⟩

/-- They are one sentence, unless there are none. -/
theorem map_forms_sentences_of_lines (hne : body ≠ []) :
    (sentences (body ++ ending).flatten).map Sentence.forms = [body.map Text.trimLineEnd] := by
  have hfull : ∀ form ∈ body.map Text.trimLineEnd, form.isEmpty = false := by
    rw [List.forall_mem_map]
    intro line hline
    rw [List.isEmpty_eq_false_iff, ne_eq, Text.trimLineEnd_eq_nil_iff, hbody line hline]
    exact Bool.false_ne_true
  have hempty : ∀ form ∈ ending.map Text.trimLineEnd, form.isEmpty = true := by
    rw [List.forall_mem_map]
    intro line hline
    rw [List.isEmpty_iff, Text.trimLineEnd_eq_nil_iff, hending line hline]
  rw [map_forms_sentences, Text.lines_flatten hlines, List.map_append]
  exact filter_splitOnP_append hfull hempty (by simpa using hne)

/-- So there is never more than one sentence. -/
theorem length_sentences_le_one : (sentences (body ++ ending).flatten).length ≤ 1 := by
  cases body with
  | nil =>
    have hlength := length_sentences_of_lines hlines hbody hending
    rw [List.length_nil, List.length_eq_zero_iff, List.flatten_eq_nil_iff] at hlength
    have hnone : sentences ([] ++ ending).flatten = [] :=
      List.eq_nil_iff_forall_not_mem.mpr fun tokens htokens =>
        @InputFormat.ne_nil_of_mem_sentences .vertical _ tokens htokens (hlength tokens htokens)
    rw [hnone]
    exact Nat.zero_le 1
  | cons line body =>
    have hforms := map_forms_sentences_of_lines hlines hbody hending (List.cons_ne_nil line body)
    exact Nat.le_of_eq (by simpa using congrArg List.length hforms)

end Lines

end Listed

end EntityMarkup
