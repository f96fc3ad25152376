import EntityMarkup.Proofs.Entity.Nesting
import EntityMarkup.Proofs.Token.InOrder
import EntityMarkup.Render.Flat

/-!
# The offsets of entities

An entity is a span of tokens; the text it stands for reaches from the start of its first token to
the end of its last. Where the tokens of a sentence lie in order, so do these offsets: what is known
of the spans is known of the stretches of text.

* `isBoundary_offsets`: the text of an entity can be cut out of the block.
* `start_le_startOffset`, `stop_le_startOffset`, `stop_le_stopOffset`: how an entity lies to a
  token.
* **`startOffset_lt_stopOffset`**, `startOffset_mono`, `stopOffset_mono`,
  `stopOffset_le_startOffset`: offsets lie as the tokens do.
-/

namespace EntityMarkup

theorem Text.InOrder.pairwise {t : Text} {n : Nat} {xs : List (Nat × Nat)} (h : t.InOrder n xs) :
    xs.Pairwise fun a b => a.2 ≤ b.1 := by
  induction xs generalizing n with
  | nil => exact List.Pairwise.nil
  | cons x rest ih =>
    obtain ⟨-, -, -, -, hrest⟩ := h
    exact List.pairwise_cons.mpr ⟨fun y hy => (hrest.of_mem hy).1, ih hrest⟩

namespace Flat

theorem startOffset_eq {tokens : Sentence} {e : Entity} (he : e.isSpanOf tokens.length = true) :
    tokens[e.start]?.map Token.start = some (startOffset tokens e) := by
  obtain ⟨hle, hlast, -⟩ := Entity.start_le_last_of_isSpanOf he
  rw [startOffset, List.getElem?_eq_getElem (by omega)]
  rfl

theorem stopOffset_eq {tokens : Sentence} {e : Entity} (he : e.isSpanOf tokens.length = true) :
    tokens[e.last]?.map Token.stop = some (stopOffset tokens e) := by
  obtain ⟨-, hlast, -⟩ := Entity.start_le_last_of_isSpanOf he
  rw [stopOffset, List.getElem?_eq_getElem hlast]
  rfl

theorem startOffset_of_start_eq {tokens : Sentence} {e : Entity} {i : Nat} {token : Token}
    (hi : tokens[i]? = some token) (he : e.start = i) : startOffset tokens e = token.start := by
  rw [startOffset, he, hi]
  rfl

theorem stopOffset_of_last_eq {tokens : Sentence} {e : Entity} {i : Nat} {token : Token}
    (hi : tokens[i]? = some token) (he : e.last = i) : stopOffset tokens e = token.stop := by
  rw [stopOffset, he, hi]
  rfl

variable {block : Text} {n : Nat} {tokens : Sentence}
  (h : block.InOrder n (tokens.map Token.range))

include h

theorem range_getElem {i : Nat} (hi : i < tokens.length) :
    n ≤ tokens[i].start ∧ tokens[i].start < tokens[i].stop ∧ block.IsBoundary tokens[i].start ∧
      block.IsBoundary tokens[i].stop ∧
      tokens[i].stop ≤ Text.reach n (tokens.map Token.range) :=
  h.of_mem (List.mem_map_of_mem (List.getElem_mem hi))

theorem stop_le_start {i j : Nat} (hi : i < tokens.length) (hj : j < tokens.length) (hij : i < j) :
    tokens[i].stop ≤ tokens[j].start := by
  have hpairwise := List.pairwise_map.mp h.pairwise
  exact List.pairwise_iff_getElem.mp hpairwise i j hi hj hij

theorem start_mono {i j : Nat} (hi : i < tokens.length) (hj : j < tokens.length) (hij : i ≤ j) :
    tokens[i].start ≤ tokens[j].start := by
  rcases Nat.eq_or_lt_of_le hij with rfl | hlt
  · exact le_refl _
  · exact (range_getElem h hi).2.1.le.trans (stop_le_start h hi hj hlt)

theorem stop_mono {i j : Nat} (hi : i < tokens.length) (hj : j < tokens.length) (hij : i ≤ j) :
    tokens[i].stop ≤ tokens[j].stop := by
  rcases Nat.eq_or_lt_of_le hij with rfl | hlt
  · exact le_refl _
  · exact (stop_le_start h hi hj hlt).trans (range_getElem h hj).2.1.le

variable {a b : Entity}

/-- The text of an entity can be cut out of the block, and lies no further than the tokens. -/
theorem isBoundary_offsets (ha : a.isSpanOf tokens.length = true) :
    (block.IsBoundary (startOffset tokens a) ∧
      startOffset tokens a ≤ Text.reach n (tokens.map Token.range)) ∧
    block.IsBoundary (stopOffset tokens a) ∧
      stopOffset tokens a ≤ Text.reach n (tokens.map Token.range) := by
  obtain ⟨hle, hlast, -⟩ := Entity.start_le_last_of_isSpanOf ha
  have hfirst := Nat.lt_of_le_of_lt hle hlast
  obtain ⟨-, hlt, hstart, -, hreach⟩ := range_getElem h hfirst
  obtain ⟨-, -, -, hstop, hreach'⟩ := range_getElem h hlast
  rw [startOffset, stopOffset, List.getElem?_eq_getElem hfirst, List.getElem?_eq_getElem hlast]
  exact ⟨⟨hstart, hlt.le.trans hreach⟩, hstop, hreach'⟩

theorem le_startOffset (ha : a.isSpanOf tokens.length = true) : n ≤ startOffset tokens a := by
  obtain ⟨hle, hlast, -⟩ := Entity.start_le_last_of_isSpanOf ha
  have hfirst := Nat.lt_of_le_of_lt hle hlast
  rw [startOffset, List.getElem?_eq_getElem hfirst]
  exact (range_getElem h hfirst).1

theorem startOffset_lt_stopOffset (ha : a.isSpanOf tokens.length = true) :
    startOffset tokens a < stopOffset tokens a := by
  obtain ⟨hle, hlast, -⟩ := Entity.start_le_last_of_isSpanOf ha
  have hfirst := Nat.lt_of_le_of_lt hle hlast
  rw [startOffset, stopOffset, List.getElem?_eq_getElem hfirst, List.getElem?_eq_getElem hlast]
  exact Nat.lt_of_le_of_lt (start_mono h hfirst hlast hle) (range_getElem h hlast).2.1

section Token

variable {i : Nat} {token : Token} (hi : tokens[i]? = some token)

include hi

theorem range_of_getElem? :
    token.start < token.stop ∧ block.IsBoundary token.start ∧ block.IsBoundary token.stop := by
  obtain ⟨hlt, rfl⟩ := List.getElem?_eq_some_iff.mp hi
  obtain ⟨-, hrange, hstart, hstop, -⟩ := range_getElem h hlt
  exact ⟨hrange, hstart, hstop⟩

theorem start_le_startOffset (ha : a.isSpanOf tokens.length = true) (hle : i ≤ a.start) :
    token.start ≤ startOffset tokens a := by
  obtain ⟨hlt, rfl⟩ := List.getElem?_eq_some_iff.mp hi
  obtain ⟨hspan, hlast, -⟩ := Entity.start_le_last_of_isSpanOf ha
  have hfirst := Nat.lt_of_le_of_lt hspan hlast
  rw [startOffset, List.getElem?_eq_getElem hfirst]
  exact start_mono h hlt hfirst hle

/-- An entity that begins behind a token starts where the token has ended, or later. -/
theorem stop_le_startOffset (ha : a.isSpanOf tokens.length = true) (hbehind : i < a.start) :
    token.stop ≤ startOffset tokens a := by
  obtain ⟨hlt, rfl⟩ := List.getElem?_eq_some_iff.mp hi
  obtain ⟨hspan, hlast, -⟩ := Entity.start_le_last_of_isSpanOf ha
  have hfirst := Nat.lt_of_le_of_lt hspan hlast
  rw [startOffset, List.getElem?_eq_getElem hfirst]
  exact stop_le_start h hlt hfirst hbehind

theorem stop_le_stopOffset (ha : a.isSpanOf tokens.length = true) (hle : i ≤ a.last) :
    token.stop ≤ stopOffset tokens a := by
  obtain ⟨hlt, rfl⟩ := List.getElem?_eq_some_iff.mp hi
  obtain ⟨-, hlast, -⟩ := Entity.start_le_last_of_isSpanOf ha
  rw [stopOffset, List.getElem?_eq_getElem hlast]
  exact stop_mono h hlt hlast hle

end Token

theorem startOffset_mono (hb : b.isSpanOf tokens.length = true) (hab : a.start ≤ b.start) :
    startOffset tokens a ≤ startOffset tokens b := by
  obtain ⟨hspan, hlast, -⟩ := Entity.start_le_last_of_isSpanOf hb
  have hi := List.getElem?_eq_getElem (hab.trans_lt (hspan.trans_lt hlast))
  rw [startOffset_of_start_eq hi rfl]
  exact start_le_startOffset h hi hb hab

theorem stopOffset_mono (hb : b.isSpanOf tokens.length = true) (hab : a.last ≤ b.last) :
    stopOffset tokens a ≤ stopOffset tokens b := by
  obtain ⟨-, hlast, -⟩ := Entity.start_le_last_of_isSpanOf hb
  have hi := List.getElem?_eq_getElem (hab.trans_lt hlast)
  rw [stopOffset_of_last_eq hi rfl]
  exact stop_le_stopOffset h hi hb hab

/-- An entity that lies behind another begins where that one has ended, or later. -/
theorem stopOffset_le_startOffset (hb : b.isSpanOf tokens.length = true) (hab : a.last < b.start) :
    stopOffset tokens a ≤ startOffset tokens b := by
  obtain ⟨hspan, hlast, -⟩ := Entity.start_le_last_of_isSpanOf hb
  have hi := List.getElem?_eq_getElem (hab.trans (hspan.trans_lt hlast))
  rw [stopOffset_of_last_eq hi rfl]
  exact stop_le_startOffset h hi hb hab

/-- Where an entity lies behind another or inside it, so does its text. -/
theorem nestsAt_of_nests (hb : b.isSpanOf tokens.length = true)
    (ha : a.isSpanOf tokens.length = true) (hab : a.Nests b) :
    startOffset tokens a ≤ startOffset tokens b ∧
      (stopOffset tokens a ≤ startOffset tokens b ∨ stopOffset tokens b ≤ stopOffset tokens a) := by
  refine ⟨startOffset_mono h hb hab.1, ?_⟩
  rcases hab.2 with hlt | hle
  · exact Or.inl (stopOffset_le_startOffset h hb hlt)
  · exact Or.inr (stopOffset_mono h ha hle)

end Flat

end EntityMarkup
