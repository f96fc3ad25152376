import EntityMarkup.Proofs.Render.Offsets
import EntityMarkup.Proofs.Token.Spaced

/-!
# Spans that are a whole text

Tokens take a byte each, so there is nothing before a token that starts where the text does, and
nothing behind one that stops where it does. A span that is a whole text is a whole sentence, and
the only one.

* `exists_sentences_eq_singleton_iff`: which texts are one sentence.
* `InOrder.room`: how many ranges there can be before a range, and behind it.
* **`slice?_offsets_eq_some_self_iff`**: of a text that neither begins nor ends with something that
  is left out, exactly the span of all tokens of its only sentence is the whole.
-/

namespace EntityMarkup

/-! ## Texts of one sentence -/

theorem Running.exists_sentences_eq_singleton_iff {t : Text} :
    (∃ tokens, sentences t = [tokens]) ↔
      forms t ≠ [] ∧ (forms t).Pairwise fun v w => v ∈ terminals → w ∈ terminals := by
  have hgroup : ∀ group : List Placed,
      (joinAbbreviations (words t)).splitBy (staysIn isTerminal) = [group] ↔
        joinAbbreviations (words t) = group ∧ IsSplit isTerminal [group] := by
    intro group
    rw [isSplit_iff, List.flatten_singleton]
    constructor
    · intro h
      have hflat := List.flatten_splitBy (staysIn isTerminal) (joinAbbreviations (words t))
      rw [h, List.flatten_singleton] at hflat
      rw [← hflat] at h
      exact ⟨hflat.symm, h⟩
    · rintro ⟨rfl, h⟩
      exact h
  have hpairwise : ((forms t).Pairwise fun v w => v ∈ terminals → w ∈ terminals) ↔
      (joinAbbreviations (words t)).Pairwise
        fun p q => isTerminal p = true → isTerminal q = true := by
    simp only [forms, List.pairwise_map, isTerminal, List.contains_iff_mem]
  calc (∃ tokens, sentences t = [tokens])
      ↔ ∃ group, (joinAbbreviations (words t)).splitBy (staysIn isTerminal) = [group] := by
        constructor
        · rintro ⟨tokens, h⟩
          obtain ⟨group, hgroup, -⟩ := List.map_eq_singleton_iff.mp h
          exact ⟨group, hgroup⟩
        · rintro ⟨group, hgroup⟩
          exact ⟨_, List.map_eq_singleton_iff.mpr ⟨group, hgroup, rfl⟩⟩
    _ ↔ IsSplit isTerminal [joinAbbreviations (words t)] := by simp only [hgroup, exists_eq_left']
    _ ↔ _ := by rw [isSplit_singleton, hpairwise, forms, ne_eq, ne_eq, List.map_eq_nil_iff]

/-! ## Room for ranges -/

namespace Text

variable {t : Text} {n k : Nat} {xs : List (Nat × Nat)} {r : Nat × Nat}

/-- Each range takes a byte, before a range as well as behind it. -/
theorem InOrder.room (h : t.InOrder n xs) (hr : xs[k]? = some r) :
    n + k ≤ r.1 ∧ r.2 + (xs.length - (k + 1)) ≤ t.size := by
  obtain ⟨hk, rfl⟩ := List.getElem?_eq_some_iff.mp hr
  have hsplit := List.take_append_drop k xs
  rw [List.drop_eq_getElem_cons hk] at hsplit
  rw [← hsplit] at h
  obtain ⟨hbefore, hle, -, -, hstop, hbehind⟩ := inOrder_append.mp h
  have hroom := hbefore.add_length_le_reach
  have hroom' := hbehind.add_length_le_reach
  have hsize := (hbehind.isBoundary_reach hstop).le_size
  rw [List.length_take, Nat.min_eq_left hk.le] at hroom
  rw [List.length_drop] at hroom'
  omega

theorem slice?_eq_some_self_iff {start stop : Nat} :
    t.slice? start stop = some t ↔ start = 0 ∧ stop = t.size := by
  rw [slice?_eq_some_iff]
  constructor
  · rintro ⟨u, v, ht, hu, hstop⟩
    have hsize := congrArg size ht
    rw [size_append, size_append] at hsize
    omega
  · rintro ⟨rfl, rfl⟩
    exact ⟨[], [], by simp, rfl, by simp⟩

namespace Tiled

variable {gap : Char → Bool} {c : Char} {u : Text} {p : Placed} {ps : List Placed}

/-- The first piece starts with the text, unless that begins with something that is left out. -/
theorem start_eq (h : Tiled gap n (c :: u) (p :: ps)) (hc : gap c = false) : p.start = n := by
  obtain ⟨before, after, ht, hbefore, hstart, -, -⟩ := h
  cases before with
  | nil => exact hstart
  | cons d before =>
    obtain ⟨rfl, -⟩ := List.cons_eq_cons.mp ht
    rw [List.all_cons, hc] at hbefore
    cases hbefore

/-- The last piece stops with the text, unless that ends with something that is left out. -/
theorem stop_eq (h : Tiled gap n t ps) (hp : ps.getLast? = some p) (hlast : t.getLast? = some c)
    (hc : gap c = false) : p.stop = n + t.size := by
  induction ps generalizing n t with
  | nil => cases hp
  | cons q ps ih =>
    obtain ⟨before, after, rfl, -, hstart, -, hrest⟩ := h
    have hsize : n + size (before ++ (q.form ++ after)) = q.stop + size after := by
      rw [Placed.stop, hstart, size_append, size_append]
      omega
    rw [hsize]
    cases ps with
    | nil =>
      obtain rfl : q = p := Option.some.inj hp
      -- what stands behind it would end the text
      have hnone : after = [] := by
        refine List.getLast?_eq_none_iff.mp (Option.eq_none_iff_forall_ne_some.mpr fun d hd => ?_)
        rw [← List.append_assoc, List.getLast?_append, hd, Option.some_or] at hlast
        obtain rfl := Option.some.inj hlast
        have hgap : gap d = true := List.all_eq_true.mp hrest d (List.mem_of_getLast? hd)
        rw [hc] at hgap
        cases hgap
      rw [hnone, size_nil, Nat.add_zero]
    | cons q' ps =>
      have hafter : after ≠ [] := by
        obtain ⟨before', after', rfl, -, -, hform, -⟩ := hrest
        simp [hform]
      refine ih hrest hp ?_
      rwa [← List.append_assoc, List.getLast?_append_of_ne_nil _ hafter] at hlast

end Tiled

end Text

/-! ## Spans that are a whole text -/

namespace InputFormat

open Flat (startOffset stopOffset)

variable {input : InputFormat} {t : Text} {tokens : Sentence} {e : Entity}

/-- A span that reaches from the start of a text to its end is all that there is. -/
theorem sentences_eq_singleton_of_offsets (htokens : tokens ∈ input.sentences t)
    (he : e.isSpanOf tokens.length = true) (hstart : startOffset tokens e = 0)
    (hstop : stopOffset tokens e = t.size) :
    input.sentences t = [tokens] ∧ e.start = 0 ∧ e.length = tokens.length := by
  obtain ⟨before, behind, hsentences⟩ := List.append_of_mem htokens
  have hin := input.inOrder_sentences t
  have hflat : (input.sentences t).flatten = before.flatten ++ (tokens ++ behind.flatten) := by
    rw [hsentences, List.flatten_append, List.flatten_cons]
  have hroom : ∀ i token, tokens[i]? = some token →
      before.flatten.length + i ≤ token.start ∧
        token.stop + (tokens.length + behind.flatten.length - (i + 1)) ≤ t.size := by
    intro i token hi
    have hlt := (List.getElem?_eq_some_iff.mp hi).1
    have hk : ((input.sentences t).flatten.map Token.range)[before.flatten.length + i]? =
        some token.range := by
      rw [List.getElem?_map, hflat, List.getElem?_append_right (Nat.le_add_right _ _),
        Nat.add_sub_cancel_left, List.getElem?_append_left hlt, hi]
      rfl
    obtain ⟨hbefore, hbehind⟩ := hin.room hk
    rw [List.length_map, hflat, List.length_append, List.length_append] at hbehind
    simp only [Token.range] at hbefore hbehind
    omega
  obtain ⟨hle, hlast, hlength⟩ := Entity.start_le_last_of_isSpanOf he
  obtain ⟨first, hfirst, hfirstStart⟩ := Option.map_eq_some_iff.mp (Flat.startOffset_eq he)
  obtain ⟨last, hlastToken, hlastStop⟩ := Option.map_eq_some_iff.mp (Flat.stopOffset_eq he)
  obtain ⟨hbefore, -⟩ := hroom _ first hfirst
  obtain ⟨-, hbehind⟩ := hroom _ last hlastToken
  rw [Entity.stop] at hlength
  have hnone : ∀ sentences : List Sentence, (∀ s ∈ sentences, s ∈ input.sentences t) →
      sentences.flatten.length = 0 → sentences = [] := by
    intro sentences hmem hzero
    refine List.eq_nil_iff_forall_not_mem.mpr fun s hs => ne_nil_of_mem_sentences (hmem s hs) ?_
    exact List.flatten_eq_nil_iff.mp (List.length_eq_zero_iff.mp hzero) s hs
  have hbefore : before = [] := hnone before (fun s hs => by simp [hsentences, hs]) (by omega)
  have hbehind : behind = [] := hnone behind (fun s hs => by simp [hsentences, hs]) (by omega)
  rw [hsentences, hbefore, hbehind]
  exact ⟨rfl, by omega, by omega⟩

/-- **The span that is a whole text** is that of all tokens of its only sentence, if the text
neither begins nor ends with something that is left out. -/
theorem slice?_offsets_eq_some_self_iff (input : InputFormat) {c d : Char}
    (hhead : t.head? = some c) (hc : input.leavesOut c = false) (hlast : t.getLast? = some d)
    (hd : input.leavesOut d = false) (htokens : tokens ∈ input.sentences t)
    (he : e.isSpanOf tokens.length = true) :
    t.slice? (startOffset tokens e) (stopOffset tokens e) = some t ↔
      input.sentences t = [tokens] ∧ e.start = 0 ∧ e.length = tokens.length := by
  rw [Text.slice?_eq_some_self_iff]
  refine ⟨fun ⟨hstart, hstop⟩ => sentences_eq_singleton_of_offsets htokens he hstart hstop, ?_⟩
  rintro ⟨hone, hstart, hlength⟩
  have htiled := input.tiled_sentences t
  rw [hone, List.flatten_singleton] at htiled
  refine ⟨?_, ?_⟩
  · obtain ⟨first, others, rfl⟩ := List.exists_cons_of_ne_nil (ne_nil_of_mem_sentences htokens)
    obtain ⟨u, rfl⟩ := List.head?_eq_some_iff.mp hhead
    rw [Flat.startOffset, hstart]
    exact htiled.start_eq hc
  · obtain ⟨last, hi, hstop⟩ := Option.map_eq_some_iff.mp (Flat.stopOffset_eq he)
    rw [Entity.last, hstart, hlength, Nat.zero_add, ← List.getLast?_eq_getElem?] at hi
    have hpiece : (tokens.map Token.piece).getLast? = some last.piece := by
      rw [List.getLast?_map, hi]
      rfl
    have hmem := List.mem_flatten_of_mem htokens (List.mem_of_getLast? hi)
    rw [← hstop, ← stop_piece hmem, htiled.stop_eq hpiece hlast hd, Nat.zero_add]

end InputFormat

end EntityMarkup
