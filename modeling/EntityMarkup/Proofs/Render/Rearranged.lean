import EntityMarkup.Proofs.Entity.Sorting
import EntityMarkup.Proofs.Render.Sentences

/-!
# The order in which entities were given

A recognizer may give the entities of a sentence in any order. All formats but the listing put them
in the order of rendering before they look at them, so that only the order of entities of one span
can make a difference. In the listing each entity has a line that depends on nothing else than that
entity, and the lines come in the order in which the entities were given.

* `sentence_of_sort_eq`: what a sentence comes to depends on its entities in the order of rendering.
* `sentence_eq_lines`: the lines of the listing.
* **`sentence_of_rearranged`**: rearranged entities, in every format.
-/

namespace EntityMarkup.Renderer

variable {r : Renderer} {tokens : Sentence} {es es' : List Entity}

theorem checkSpans_of_perm {n : Nat} (hperm : es'.Perm es)
    (hvalid : ∀ e ∈ es, e.isSpanOf n = true) : checkSpans es' n = .ok () :=
  checkSpans_eq_ok_iff.mpr fun e he => hvalid e (hperm.mem_iff.mp he)

/-- **Outside the listing, only the entities in the order of rendering matter**, apart from whether
they are spans of the sentence. -/
theorem sentence_of_sort_eq (hformat : r.format ≠ .vertical)
    (hspans : checkSpans es' tokens.length = checkSpans es tokens.length)
    (hsort : Entity.sort es' = Entity.sort es) : r.sentence tokens es' = r.sentence tokens es := by
  cases hmarkup : r.format.markup? with
  | some markup =>
    rw [sentence_inline hmarkup, sentence_inline hmarkup, hspans, inlineSentence, inlineSentence,
      hsort]
  | none =>
    have hconll := (OutputFormat.markup?_eq_none_iff.mp hmarkup).resolve_left hformat
    rw [sentence_conll tokens es' hconll, sentence_conll tokens es hconll, hspans, hsort]

/-- **In the listing each entity has a line**, and what the lines are and where the renderer stands
afterwards is the same for all lists of entities. -/
theorem sentence_eq_lines (hformat : r.format = .vertical) (tokens : Sentence) :
    ∃ line : Entity → Text, ∃ r', ∀ es, checkSpans es tokens.length = .ok () →
      r.sentence tokens es = .ok ((es.map line).map .write, r') := by
  refine ⟨fun e => (Listing.row (r.counter.lines + r.seen + 1) tokens e).text,
    { r with seen := r.seen + tokens.length }, fun es hspans => ?_⟩
  rw [sentence_vertical tokens es hformat, hspans, List.map_map]
  rfl

/-- **Rendering ignores the order in which entities were given**, as long as they are spans of the
sentence and those that begin together and are of one length keep their order. In every format but
the listing a sentence comes to the same: to the same events and the same renderer, or to the same
error. In the listing a permutation of the entities is the same permutation of their lines, and the
renderer is the same afterwards. -/
theorem sentence_of_rearranged (r : Renderer) (tokens : Sentence)
    (hvalid : ∀ e ∈ es, e.isSpanOf tokens.length = true) (h : Entity.Rearranged es es') :
    (r.format ≠ .vertical → r.sentence tokens es' = r.sentence tokens es) ∧
      (r.format = .vertical →
        ∃ (lines lines' : List Text) (r' : Renderer),
          r.sentence tokens es = .ok (lines.map .write, r') ∧
          r.sentence tokens es' = .ok (lines'.map .write, r') ∧
          lines.length = es.length ∧ lines'.length = es'.length ∧
          ∀ σ : Nat → Nat, (∀ k, es'[k]? = es[σ k]?) → ∀ k, lines'[k]? = lines[σ k]?) := by
  have hspans := checkSpans_of_perm (List.Perm.refl es) hvalid
  have hspans' := checkSpans_of_perm h.perm hvalid
  constructor
  · intro hformat
    exact sentence_of_sort_eq hformat (hspans'.trans hspans.symm) (Entity.sort_eq_of_rearranged h)
  · intro hformat
    obtain ⟨line, r', hlines⟩ := sentence_eq_lines hformat tokens
    refine ⟨es.map line, es'.map line, r', hlines es hspans, hlines es' hspans',
      List.length_map _, List.length_map _, fun σ hσ k => ?_⟩
    rw [List.getElem?_map, List.getElem?_map, hσ k]

/-- Two entities of one span that are given around one that has to come before them, and the same
entities in the order of rendering already: they come to the same markup under one policy and are
rejected for the same pair under the other, and their lines in the listing are exchanged. -/
theorem sentence_of_rearranged_sorted :
    let tokens : Sentence := [.ofForm ['a'] 0 0, .ofForm ['b'] 1 1, .ofForm ['c'] 2 2]
    let es : List Entity := [⟨1, 2, "B"⟩, ⟨0, 2, "A"⟩, ⟨1, 2, "C"⟩]
    let es' : List Entity := [⟨0, 2, "A"⟩, ⟨1, 2, "B"⟩, ⟨1, 2, "C"⟩]
    let r (format : OutputFormat) (crossing : CrossingPolicy) : Renderer :=
      ⟨format, crossing, "abc".toList, {}, 0, 0⟩
    (∀ e ∈ es, e.isSpanOf tokens.length = true) ∧ Entity.Rearranged es es' ∧
      Entity.isSorted es = false ∧ Entity.isSorted es' = true ∧
      (r .charSpan .warn).sentence tokens es' = (r .charSpan .warn).sentence tokens es ∧
      (r .xml .reject).sentence tokens es' = (r .xml .reject).sentence tokens es ∧
      ∃ (lines lines' : List Text) (r' : Renderer),
        (r .vertical .warn).sentence tokens es = .ok (lines.map .write, r') ∧
        (r .vertical .warn).sentence tokens es' = .ok (lines'.map .write, r') ∧
        lines'[0]? = lines[1]? ∧ lines'[1]? = lines[0]? := by
  intro tokens es es' r
  have hvalid : ∀ e ∈ es, e.isSpanOf tokens.length = true := by decide
  have hrearranged : Entity.Rearranged es es' := Entity.rearranged_swap (by decide) _
  have hall := fun format crossing =>
    sentence_of_rearranged (r format crossing) tokens hvalid hrearranged
  obtain ⟨lines, lines', r', hlines, hlines', -, -, hpermuted⟩ := (hall .vertical .warn).2 rfl
  have hswap := hpermuted (fun | 0 => 1 | 1 => 0 | k => k) fun
    | 0 => rfl
    | 1 => rfl
    | _ + 2 => rfl
  exact ⟨hvalid, hrearranged, by decide, by decide, (hall .charSpan .warn).1 nofun,
    (hall .xml .reject).1 nofun, lines, lines', r', hlines, hlines', hswap 0, hswap 1⟩

end EntityMarkup.Renderer
