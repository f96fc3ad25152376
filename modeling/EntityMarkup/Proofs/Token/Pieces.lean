import EntityMarkup.Pipeline
import Mathlib.Data.List.SplitBy

/-!
# Sentences are made of pieces

Both tokenizers make sentences of groups of pieces, none of them empty. What has to be known of all
tokens of a text is then known of pieces, which are a flat list: `Token.piece` is the piece that a
token was made of.

* `map_piece_flatten`: the tokens of sentences are the pieces that the sentences are made of.
* `map_piece_sentences`: in both formats, which pieces these are.
* `stop_piece`: a token ends where its piece does.
* `map_index_sentence`, `ne_nil_of_mem_sentences`: sentences number their tokens from zero, and none
  is empty.
-/

namespace EntityMarkup

/-- The piece of a text that a token is. -/
def Token.piece (t : Token) : Placed :=
  ⟨t.start, t.form⟩

/-! ## Sentences of pieces -/

namespace Placed

variable {pieces : List Placed} {t : Token}

theorem length_of_mem_sentence (h : t ∈ sentence pieces) : t.length = t.form.size := by
  obtain ⟨i, hi, rfl⟩ := List.mem_mapIdx.mp h
  rfl

theorem sentence_ne_nil (h : pieces ≠ []) : sentence pieces ≠ [] := by
  intro hnil
  exact h (List.mapIdx_eq_nil_iff.mp hnil)

theorem map_piece_sentence (pieces : List Placed) : (sentence pieces).map Token.piece = pieces := by
  apply List.ext_getElem (by simp [sentence])
  intro i _ _
  simp [sentence, Token.piece, Token.ofForm]

theorem map_index_sentence (pieces : List Placed) :
    (sentence pieces).map Token.index = List.range (sentence pieces).length := by
  apply List.ext_getElem (by simp)
  intro i _ _
  simp [sentence, Token.ofForm]

/-- The tokens of sentences are the pieces that the sentences are made of. -/
theorem map_piece_flatten (groups : List (List Placed)) :
    (groups.map sentence).flatten.map Token.piece = groups.flatten := by
  rw [List.map_flatten, List.map_map]
  simp [Function.comp_def, map_piece_sentence]

end Placed

/-! ## Both tokenizers -/

/-- The groups into which a list is cut at certain elements hold all other elements. -/
theorem flatten_splitOnP {α : Type} (p : α → Bool) (xs : List α) :
    (xs.splitOnP p).flatten = xs.filter (!p ·) := by
  induction xs with
  | nil => simp
  | cons x xs ih =>
    rw [List.splitOnP_cons_eq_if_modifyHead, List.filter_cons]
    split
    · rename_i h
      simp [h, ih]
    · rename_i h
      obtain ⟨group, rest, hgroup⟩ := List.exists_cons_of_ne_nil (List.splitOnP_ne_nil p xs)
      rw [hgroup] at ih ⊢
      simp [h, ← ih]

/-- The tokens of running text are its words, after abbreviations have been joined. -/
theorem Running.map_piece_sentences (t : Text) :
    (sentences t).flatten.map Token.piece = joinAbbreviations (words t) := by
  rw [sentences, Placed.map_piece_flatten, List.flatten_splitBy]

/-- The tokens of listed text are the contents of its lines that are not empty. -/
theorem Listed.map_piece_sentences (t : Text) :
    (sentences t).flatten.map Token.piece = (contents t).filter fun p => !p.form.isEmpty := by
  rw [sentences, Placed.map_piece_flatten, List.flatten_filter_not_isEmpty, flatten_splitOnP]

/-- What every word has, and keeps when a full stop is put to it, holds after abbreviations have
been joined. -/
theorem Running.forall_form_joinAbbreviations {P : Text → Prop}
    (hstop : ∀ form, P form → P (form ++ ['.'])) {ps : List Placed} (h : ∀ p ∈ ps, P p.form) :
    ∀ p ∈ joinAbbreviations ps, P p.form := by
  fun_induction joinAbbreviations ps with
  | case1 => exact h
  | case2 p => exact h
  | case3 p q rest _ ih =>
    obtain ⟨hp, hrest⟩ := List.forall_mem_cons.mp h
    exact List.forall_mem_cons.mpr ⟨hstop _ hp, ih (List.forall_mem_cons.mp hrest).2⟩
  | case4 p q rest _ ih =>
    obtain ⟨hp, hrest⟩ := List.forall_mem_cons.mp h
    exact List.forall_mem_cons.mpr ⟨hp, ih hrest⟩

namespace InputFormat

variable {input : InputFormat} {t : Text}

/-- The sentences of a text are made of its pieces, and none is empty. -/
theorem exists_pieces (input : InputFormat) (t : Text) :
    ∃ groups : List (List Placed), input.sentences t = groups.map Placed.sentence ∧
      [] ∉ groups := by
  cases input with
  | untokenized => exact ⟨_, rfl, List.nil_notMem_splitBy _ _⟩
  | vertical => exact ⟨_, rfl, by simp⟩

/-- **No sentence is empty.** -/
theorem ne_nil_of_mem_sentences {tokens : Sentence} (h : tokens ∈ input.sentences t) :
    tokens ≠ [] := by
  obtain ⟨groups, hgroups, hne⟩ := input.exists_pieces t
  rw [hgroups] at h
  obtain ⟨pieces, hpieces, rfl⟩ := List.mem_map.mp h
  exact Placed.sentence_ne_nil fun hnil => hne (hnil ▸ hpieces)

theorem stop_piece {token : Token} (h : token ∈ (input.sentences t).flatten) :
    token.piece.stop = token.stop := by
  obtain ⟨groups, hgroups, -⟩ := input.exists_pieces t
  obtain ⟨tokens, htokens, htoken⟩ := List.mem_flatten.mp h
  rw [hgroups] at htokens
  obtain ⟨pieces, -, rfl⟩ := List.mem_map.mp htokens
  rw [Token.stop, Placed.length_of_mem_sentence htoken]
  rfl

end InputFormat

end EntityMarkup
