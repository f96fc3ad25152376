import EntityMarkup.Proofs.Text.Boundary
import EntityMarkup.Proofs.Text.Lines
import EntityMarkup.Proofs.Token.Pieces

/-!
# Tokens tile the text

Both tokenizers leave out characters of one kind only: white space in running text, carriage
returns and line feeds in listed text. `Text.Tiled` says of pieces that they make up a text together
with such characters between them. All that is known of the tokens of a text as a whole follows from
that: where they stand, that they lie one behind the other, and that nothing else is left out.

* `tiled_filter_ofPieces`, `tiled_joinAbbreviations`: the steps of the tokenizers.
* **`InputFormat.tiled_sentences`**: the tokens of all sentences tile the text.
* `Tiled.slice?_of_mem`, `Tiled.pairwise`, `Tiled.gap_of_forall_not_covers`: what that means.
* `InputFormat.flatten_sentences_ne_nil`: a text that is not blank has a token.
* **`InputFormat.tokens_tile`**: all of this, with what is known of each sentence.
-/

namespace EntityMarkup

/-! ## Texts made up of pieces -/

/-- A piece holds the byte at an offset. -/
def Placed.Covers (p : Placed) (offset : Nat) : Prop :=
  p.start ≤ offset ∧ offset < p.stop

namespace Text

/-- A text that begins at an offset is made up of pieces, none of them empty, and of characters of a
kind that stand between them. -/
def Tiled (gap : Char → Bool) : Nat → Text → List Placed → Prop
  | _, t, [] => t.all gap = true
  | n, t, p :: rest => ∃ before after : Text, t = before ++ (p.form ++ after) ∧
      before.all gap = true ∧ p.start = n + before.size ∧ p.form ≠ [] ∧ Tiled gap p.stop after rest

/-- A character of two texts that are put together is one of the first or of the second. -/
theorem of_append_eq_append_cons {a b u v : Text} {c : Char} (h : a ++ b = u ++ c :: v) :
    (∃ w, a = u ++ c :: w) ∨ ∃ w, u = a ++ w ∧ b = w ++ c :: v := by
  rcases List.append_eq_append_iff.mp h with ⟨w, rfl, hb⟩ | ⟨w, rfl, hc⟩
  · exact Or.inr ⟨w, rfl, hb⟩
  · cases w with
    | nil => exact Or.inr ⟨[], by simp, hc.symm⟩
    | cons d w =>
      obtain ⟨rfl, -⟩ := List.cons_eq_cons.mp hc
      exact Or.inl ⟨w, rfl⟩

namespace Tiled

variable {gap : Char → Bool} {n : Nat} {t : Text} {ps : List Placed}

theorem append_gap {before : Text} (hbefore : before.all gap = true)
    (h : Tiled gap (n + before.size) t ps) : Tiled gap n (before ++ t) ps := by
  cases ps with
  | nil =>
    have ht : t.all gap = true := h
    exact (List.all_append ..).trans (by rw [hbefore, ht]; rfl)
  | cons p rest =>
    obtain ⟨skipped, after, rfl, hskipped, hstart, hne, hrest⟩ := h
    refine ⟨before ++ skipped, after, (List.append_assoc ..).symm, ?_, ?_, hne, hrest⟩
    · rw [List.all_append, hbefore, hskipped]
      rfl
    · rw [hstart, size_append, Nat.add_assoc]

/-- **A piece is the part of the text that stands at its offset.** -/
theorem exists_append_of_mem (h : Tiled gap n t ps) {p : Placed} (hp : p ∈ ps) :
    ∃ u v : Text, t = u ++ p.form ++ v ∧ p.start = n + u.size ∧ p.form ≠ [] := by
  induction ps generalizing n t with
  | nil => exact absurd hp List.not_mem_nil
  | cons q rest ih =>
    obtain ⟨before, after, rfl, -, hstart, hne, hrest⟩ := h
    rcases List.mem_cons.mp hp with rfl | hp
    · exact ⟨before, after, (List.append_assoc ..).symm, hstart, hne⟩
    · obtain ⟨u, v, rfl, hu, hform⟩ := ih hrest hp
      refine ⟨before ++ q.form ++ u, v, by simp only [List.append_assoc], ?_, hform⟩
      rw [hu, Placed.stop, hstart, size_append, size_append]
      omega

/-- So it can be cut out of the text. -/
theorem slice?_of_mem (h : Tiled gap 0 t ps) {p : Placed} (hp : p ∈ ps) :
    t.slice? p.start p.stop = some p.form := by
  obtain ⟨u, v, ht, hu, -⟩ := h.exists_append_of_mem hp
  rw [Nat.zero_add] at hu
  exact slice?_eq_some_iff.mpr ⟨u, v, ht, hu.symm, by rw [Placed.stop, hu]⟩

/-- **Pieces lie one behind the other.** -/
theorem pairwise (h : Tiled gap n t ps) : ps.Pairwise fun p q => p.stop ≤ q.start := by
  induction ps generalizing n t with
  | nil => exact List.Pairwise.nil
  | cons p rest ih =>
    obtain ⟨before, after, -, -, -, -, hrest⟩ := h
    refine List.pairwise_cons.mpr ⟨fun q hq => ?_, ih hrest⟩
    obtain ⟨u, v, -, hu, -⟩ := hrest.exists_append_of_mem hq
    omega

/-- **Nothing but characters of the kind stands outside the pieces.** -/
theorem gap_of_forall_not_covers (h : Tiled gap n t ps) {u v : Text} {c : Char}
    (ht : t = u ++ c :: v) (hout : ∀ p ∈ ps, ¬ p.Covers (n + u.size)) : gap c = true := by
  induction ps generalizing n t u with
  | nil =>
    have hall : t.all gap = true := h
    exact List.all_eq_true.mp hall c (ht ▸ List.mem_append_right u List.mem_cons_self)
  | cons p rest ih =>
    obtain ⟨before, after, rfl, hbefore, hstart, -, hrest⟩ := h
    obtain ⟨hp, hout⟩ := List.forall_mem_cons.mp hout
    rcases of_append_eq_append_cons ht with ⟨w, rfl⟩ | ⟨w, rfl, hbehind⟩
    · exact List.all_eq_true.mp hbefore c (List.mem_append_right u List.mem_cons_self)
    · rcases of_append_eq_append_cons hbehind with ⟨x, hform⟩ | ⟨x, rfl, hafter⟩
      · -- the character is one of the piece
        refine absurd ⟨?_, ?_⟩ hp
        · rw [hstart, size_append]
          omega
        · have hc := c.utf8Size_pos
          rw [Placed.stop, hstart, hform, size_append, size_append, size_cons]
          omega
      · have hoffset : n + size (before ++ (p.form ++ x)) = p.stop + size x := by
          rw [Placed.stop, hstart, size_append, size_append]
          omega
        rw [hoffset] at hout
        exact ih hrest hafter hout

end Tiled

/-! ## The steps of the tokenizers -/

variable {gap : Char → Bool}

/-- Consecutive pieces tile the text that they make up, when only characters of the kind are cut
from their ends, and only pieces of such characters are left out. -/
theorem tiled_filter_ofPieces {cut : Text → Text} {keep : Placed → Bool} {pieces : List Text}
    (hcut : ∀ piece ∈ pieces, ∃ tail, cut piece ++ tail = piece ∧ tail.all gap = true)
    (hkeep : ∀ p, keep p = true → p.form ≠ [])
    (hleft : ∀ piece ∈ pieces, ∀ n, keep ⟨n, cut piece⟩ = false → (cut piece).all gap = true)
    (n : Nat) :
    Tiled gap n pieces.flatten
      (((Placed.ofPieces n pieces).map fun p => { p with form := cut p.form }).filter keep) := by
  induction pieces generalizing n with
  | nil => rfl
  | cons piece rest ih =>
    obtain ⟨hcut, hcutRest⟩ := List.forall_mem_cons.mp hcut
    obtain ⟨hleft, hleftRest⟩ := List.forall_mem_cons.mp hleft
    obtain ⟨tail, htail, hgap⟩ := hcut
    have hsize : n + size piece = n + size (cut piece) + size tail := by
      rw [← congrArg size htail, size_append, Nat.add_assoc]
    have hrest := ih hcutRest hleftRest (n + size piece)
    rw [hsize] at hrest
    rw [Placed.ofPieces, List.map_cons, List.filter_cons, List.flatten_cons, ← htail,
      List.append_assoc, htail, hsize]
    split
    · rename_i hp
      exact ⟨[], tail ++ rest.flatten, rfl, rfl, rfl, hkeep _ hp, hrest.append_gap hgap⟩
    · rename_i hp
      exact (hrest.append_gap hgap).append_gap (hleft n (Bool.eq_false_iff.mpr hp))

/-- A full stop is joined to the abbreviation right before it. -/
theorem tiled_joinAbbreviations {n : Nat} {t : Text} {ps : List Placed} (h : Tiled gap n t ps) :
    Tiled gap n t (Running.joinAbbreviations ps) := by
  fun_induction Running.joinAbbreviations ps generalizing n t with
  | case1 => exact h
  | case2 p => exact h
  | case3 p q rest hjoin ih =>
    simp only [Running.isAbbreviationStop, Bool.and_eq_true, beq_iff_eq] at hjoin
    obtain ⟨⟨hform, hstop⟩, -⟩ := hjoin
    obtain ⟨before, -, rfl, hbefore, hstart, hne, skipped, after, rfl, -, hq, -, hrest⟩ := h
    -- nothing stands between the abbreviation and the full stop
    have hnone : skipped = [] := by
      rw [← size_eq_zero_iff]
      omega
    subst hnone
    have hend : q.stop = Placed.stop ⟨p.start, p.form ++ ['.']⟩ := by
      rw [Placed.stop, Placed.stop, hform, ← hstop, Placed.stop, size_append, Nat.add_assoc]
    rw [hend] at hrest
    refine ⟨before, after, ?_, hbefore, hstart, by simp, ih hrest⟩
    rw [hform, List.nil_append, List.append_assoc]
  | case4 p q rest _ ih =>
    obtain ⟨before, after, rfl, hbefore, hstart, hne, hrest⟩ := h
    exact ⟨before, after, rfl, hbefore, hstart, hne, ih hrest⟩

/-- What is cut from the end of a line are carriage returns and line feeds. -/
theorem exists_trimLineEnd_append (line : Text) :
    ∃ tail, line.trimLineEnd ++ tail = line ∧ tail.isBlankLine = true := by
  refine ⟨(line.reverse.takeWhile fun c => c = '\n' || c = '\r').reverse, ?_, ?_⟩
  · rw [trimLineEnd, ← List.reverse_append, List.takeWhile_append_dropWhile, List.reverse_reverse]
  · rw [isBlankLine, List.all_reverse, List.all_eq_true]
    exact fun c hc => List.mem_takeWhile_imp (p := fun c => c = '\n' || c = '\r') hc

end Text

/-! ## Both tokenizers -/

/-- The characters that can stand outside the tokens of a text: white space in running text, and
line breaks in listed text. -/
def InputFormat.leavesOut : InputFormat → Char → Bool
  | .untokenized => Unicode.isBlank
  | .vertical => fun c => c = '\n' || c = '\r'

open Text (Tiled)

theorem Running.tiled_words (t : Text) : Tiled Unicode.isBlank 0 t (words t) := by
  have h := Text.tiled_filter_ofPieces (n := 0) (fun piece (_ : piece ∈ t.segments) =>
      ⟨[], List.append_nil piece, List.all_nil⟩)
    (fun p (hp : (!p.form.isAllBlank) = true) => by rintro he; simp [he, Text.isAllBlank] at hp)
    (fun piece _ n hp => (Bool.not_eq_false' _).mp hp)
  simpa [words] using h

theorem Running.tiled_sentences (t : Text) :
    Tiled Unicode.isBlank 0 t ((sentences t).flatten.map Token.piece) := by
  rw [map_piece_sentences]
  exact Text.tiled_joinAbbreviations (tiled_words t)

theorem Listed.tiled_sentences (t : Text) :
    Tiled (InputFormat.leavesOut .vertical) 0 t ((sentences t).flatten.map Token.piece) := by
  have h := Text.tiled_filter_ofPieces (n := 0)
    (fun line (_ : line ∈ t.lines) => line.exists_trimLineEnd_append)
    (fun p (hp : (!p.form.isEmpty) = true) => by simpa using hp)
    (fun line _ n hp => by
      rw [Bool.not_eq_false', List.isEmpty_iff] at hp
      rw [show line.trimLineEnd = [] from hp]
      rfl)
  rw [map_piece_sentences]
  simpa [contents, Text.lines, InputFormat.leavesOut] using h

/-- **The tokens of all sentences tile the text.** -/
theorem InputFormat.tiled_sentences (input : InputFormat) (t : Text) :
    Tiled input.leavesOut 0 t ((input.sentences t).flatten.map Token.piece) := by
  cases input with
  | untokenized => exact Running.tiled_sentences t
  | vertical => exact Listed.tiled_sentences t

/-! ## Single tokens -/

theorem Text.isAllBlank_eq_false_iff {t : Text} :
    t.isAllBlank = false ↔ ∃ c ∈ t, Unicode.isBlank c = false := by
  simp [isAllBlank]

/-- Words are not all white space, and a full stop is none. -/
theorem Running.exists_not_blank {t : Text} {token : Token} (h : token ∈ (sentences t).flatten) :
    ∃ c ∈ token.form, Unicode.isBlank c = false := by
  rw [← Text.isAllBlank_eq_false_iff]
  have hpiece := List.mem_map_of_mem (f := Token.piece) h
  rw [map_piece_sentences] at hpiece
  refine forall_form_joinAbbreviations (P := fun form => form.isAllBlank = false) ?_ ?_ _ hpiece
  · intro form hform
    rw [Text.isAllBlank, List.all_append, show form.all Unicode.isBlank = false from hform]
    rfl
  · intro p hp
    exact (Bool.not_eq_true' _).mp (List.mem_filter.mp hp).2

theorem InputFormat.isBlank_of_leavesOut {input : InputFormat} {c : Char}
    (h : input.leavesOut c = true) : Unicode.isBlank c = true := by
  cases input with
  | untokenized => exact h
  | vertical =>
    rcases Bool.or_eq_true_iff.mp h with h | h
    · rw [of_decide_eq_true h]
      decide
    · rw [of_decide_eq_true h]
      decide

/-- A text that is not blank has a token. -/
theorem InputFormat.flatten_sentences_ne_nil (input : InputFormat) {t : Text}
    (h : t.isAllBlank = false) : (input.sentences t).flatten ≠ [] := by
  intro hnil
  obtain ⟨c, hc, hblank⟩ := Text.isAllBlank_eq_false_iff.mp h
  have htiled := input.tiled_sentences t
  rw [hnil] at htiled
  have hall : t.all input.leavesOut = true := htiled
  rw [isBlank_of_leavesOut (List.all_eq_true.mp hall c hc)] at hblank
  cases hblank

/-- **Tokens tile the text.** No sentence is empty, and each numbers its tokens from zero. Each
token is what stands in the text from its start on for its length, both ends between characters;
it is not empty, and in running text not all white space. Tokens stand one behind the other, also
across sentences, and outside of them there is only white space, or line breaks in listed text. -/
theorem InputFormat.tokens_tile (input : InputFormat) (t : Text) :
    (∀ tokens ∈ input.sentences t,
        tokens ≠ [] ∧ tokens.map Token.index = List.range tokens.length) ∧
      (∀ token ∈ (input.sentences t).flatten,
        token.form ≠ [] ∧
          t.IsBoundary token.start ∧ t.IsBoundary (token.start + token.length) ∧
          t.slice? token.start (token.start + token.length) = some token.form ∧
          (input = .untokenized → ∃ c ∈ token.form, Unicode.isBlank c = false)) ∧
      (input.sentences t).flatten.Pairwise (fun a b => a.start + a.length ≤ b.start) ∧
      ∀ (u : Text) c v, t = u ++ c :: v →
        (∀ token ∈ (input.sentences t).flatten,
          ¬ (token.start ≤ Text.size u ∧ Text.size u < token.start + token.length)) →
        input.leavesOut c = true := by
  have htiled := input.tiled_sentences t
  refine ⟨fun tokens htokens => ⟨ne_nil_of_mem_sentences htokens, ?_⟩, fun token htoken => ?_, ?_,
    fun u c v ht hout => ?_⟩
  · obtain ⟨groups, hgroups, -⟩ := input.exists_pieces t
    rw [hgroups] at htokens
    obtain ⟨pieces, -, rfl⟩ := List.mem_map.mp htokens
    exact Placed.map_index_sentence pieces
  · have hpiece := List.mem_map_of_mem (f := Token.piece) htoken
    obtain ⟨-, -, -, -, hform⟩ := htiled.exists_append_of_mem hpiece
    have hslice := htiled.slice?_of_mem hpiece
    rw [stop_piece htoken] at hslice
    obtain ⟨u, v, rfl, hstart, hstop⟩ := Text.slice?_eq_some_iff.mp hslice
    refine ⟨hform, ⟨u, _, List.append_assoc .., hstart⟩, ⟨u ++ token.form, v, rfl, ?_⟩, hslice, ?_⟩
    · rw [Text.size_append]
      exact hstop
    · rintro rfl
      exact Running.exists_not_blank htoken
  · refine (List.pairwise_map.mp htiled.pairwise).imp_of_mem fun {a b} ha _ h => ?_
    rwa [stop_piece ha] at h
  · refine htiled.gap_of_forall_not_covers ht ?_
    rw [Nat.zero_add, List.forall_mem_map]
    intro token htoken hcovers
    rw [Placed.Covers, stop_piece htoken] at hcovers
    exact hout token htoken hcovers

end EntityMarkup
