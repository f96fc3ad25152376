import EntityMarkup.Proofs.Entity.Selection
import EntityMarkup.Proofs.Render.Sentences

/-!
# Tags are those of the outermost entities

The tags of a sentence come out of one pass, which counts down the tokens that are left of the
entity that is open, and takes entities from the list as it reaches them. None of this shows in the
result: the tag of a token tells where it stands in the one of the outermost entities that covers
it. The pass is compared with `Entity.outermostFrom`, whose last kept entity is the one that is open
or the last that was (`openAt`).

* `tagAt_eq_begins_iff`, `tagAt_eq_inside_iff`, `tagAt_eq_outside_iff`: what the tag of a token
  says.
* `tags_openAt`: the rest of a pass, from any token on.
* **`tags_sort`**: the tags of a sentence are those of its outermost entities.
* `row_begins`, `row_inside`, `row_outside`: the line of a token.
* **`Renderer.sentence_conll_outermost`**: what is written for a sentence.
-/

namespace EntityMarkup

open Entity (outermost outermostFrom)

namespace Outermost

variable {i : Nat} {e k : Entity} {kept pending : List Entity}

/-! ## The tag of a token -/

/-- The tag of the token with index `i`, when entities are kept that lie apart. -/
def tagAt (kept : List Entity) (i : Nat) : Tag :=
  match kept.find? fun e => e.start ≤ i && i < e.stop with
  | some e => if e.start = i then .begins e.label else .inside e.label
  | none => .outside

theorem tagAt_cons_of_stop_le (h : e.stop ≤ i) (kept : List Entity) :
    tagAt (e :: kept) i = tagAt kept i := by
  rw [tagAt, List.find?_cons_of_neg, tagAt]
  simp [h]

theorem tagAt_cons_start (h : e.length ≠ 0) (kept : List Entity) :
    tagAt (e :: kept) e.start = .begins e.label := by
  have hlt : e.start < e.stop := Nat.lt_add_of_pos_right (Nat.pos_of_ne_zero h)
  rw [tagAt, List.find?_cons_of_pos (by simp [hlt])]
  exact if_pos rfl

theorem tagAt_cons_inside (hstart : e.start < i) (hstop : i < e.stop) (kept : List Entity) :
    tagAt (e :: kept) i = .inside e.label := by
  rw [tagAt, List.find?_cons_of_pos (by simp [Nat.le_of_lt hstart, hstop])]
  exact if_neg (Nat.ne_of_lt hstart)

theorem tagAt_of_forall_lt_start (h : ∀ e ∈ kept, i < e.start) : tagAt kept i = .outside := by
  rw [tagAt, List.find?_eq_none.mpr]
  intro e he hcovers
  have hlt := h e he
  rw [Bool.and_eq_true, decide_eq_true_iff] at hcovers
  omega

section Apart

variable {es : List Entity}

/-- The entity among the outermost ones that covers a token is found there. -/
theorem find?_outermost (hk : k ∈ outermost es) (hcovers : k.start ≤ i ∧ i < k.stop) :
    (outermost es).find? (fun e => e.start ≤ i && i < e.stop) = some k := by
  cases hfind : (outermost es).find? fun e => e.start ≤ i && i < e.stop with
  | none =>
    have hnone := List.find?_eq_none.mp hfind k hk
    exact absurd (by simpa using hcovers) hnone
  | some e =>
    have he := List.find?_some hfind
    rw [Bool.and_eq_true, decide_eq_true_iff, decide_eq_true_iff] at he
    rw [Entity.eq_of_mem_outermost (List.mem_of_find?_eq_some hfind) hk he hcovers]

/-- What is known of a tag: no outermost entity covers its token, or one does, and gives the tag. -/
theorem tagAt_cases (es : List Entity) (i : Nat) :
    (tagAt (outermost es) i = .outside ∧ ∀ k ∈ outermost es, ¬ (k.start ≤ i ∧ i < k.stop)) ∨
      ∃ k ∈ outermost es, (k.start ≤ i ∧ i < k.stop) ∧
        tagAt (outermost es) i = if k.start = i then .begins k.label else .inside k.label := by
  by_cases h : ∃ k ∈ outermost es, k.start ≤ i ∧ i < k.stop
  · obtain ⟨k, hk, hcovers⟩ := h
    refine Or.inr ⟨k, hk, hcovers, ?_⟩
    rw [tagAt, find?_outermost hk hcovers]
  · have hnone : ∀ k ∈ outermost es, ¬ (k.start ≤ i ∧ i < k.stop) := fun k hk hcovers =>
      h ⟨k, hk, hcovers⟩
    refine Or.inl ⟨?_, hnone⟩
    rw [tagAt, List.find?_eq_none.mpr]
    intro k hk
    simpa using hnone k hk

theorem tagAt_eq_begins_iff (hlength : ∀ e ∈ es, e.length ≠ 0) {label : String} :
    tagAt (outermost es) i = .begins label ↔
      ∃ k ∈ outermost es, k.start = i ∧ k.label = label := by
  constructor
  · intro h
    rcases tagAt_cases es i with ⟨hout, -⟩ | ⟨k, hk, -, htag⟩
    · rw [h] at hout
      cases hout
    · rw [h] at htag
      split at htag
      · rename_i hstart
        exact ⟨k, hk, hstart, (Tag.begins.inj htag).symm⟩
      · cases htag
  · rintro ⟨k, hk, rfl, rfl⟩
    have hpos := hlength k (Entity.mem_of_mem_outermost hk)
    have hstop : k.start < k.stop := Nat.lt_add_of_pos_right (Nat.pos_of_ne_zero hpos)
    rw [tagAt, find?_outermost hk ⟨Nat.le_refl _, hstop⟩]
    exact if_pos rfl

theorem tagAt_eq_inside_iff {label : String} :
    tagAt (outermost es) i = .inside label ↔
      ∃ k ∈ outermost es, k.start < i ∧ i < k.stop ∧ k.label = label := by
  constructor
  · intro h
    rcases tagAt_cases es i with ⟨hout, -⟩ | ⟨k, hk, ⟨hle, hstop⟩, htag⟩
    · rw [h] at hout
      cases hout
    · rw [h] at htag
      split at htag
      · cases htag
      · rename_i hstart
        exact ⟨k, hk, Nat.lt_of_le_of_ne hle hstart, hstop, (Tag.inside.inj htag).symm⟩
  · rintro ⟨k, hk, hstart, hstop, rfl⟩
    rw [tagAt, find?_outermost hk ⟨Nat.le_of_lt hstart, hstop⟩]
    exact if_neg (Nat.ne_of_lt hstart)

theorem tagAt_eq_outside_iff :
    tagAt (outermost es) i = .outside ↔ ∀ k ∈ outermost es, ¬ (k.start ≤ i ∧ i < k.stop) := by
  constructor
  · intro h
    rcases tagAt_cases es i with ⟨-, hnone⟩ | ⟨k, hk, -, htag⟩
    · exact hnone
    · rw [h] at htag
      split at htag <;> cases htag
  · intro hnone
    rcases tagAt_cases es i with ⟨hout, -⟩ | ⟨k, hk, hcovers, -⟩
    · exact hout
    · exact absurd hcovers (hnone k hk)

end Apart

/-! ## The pass -/

/-- What is open before the token with index `i`, when the last entity that was kept is given. -/
def openAt (i : Nat) (last : Option Entity) : Option Open :=
  last.bind fun e => if i < e.stop then some ⟨e.label, e.stop - i⟩ else none

/-- Where the last entity that was kept ends. -/
def stopOf (last : Option Entity) : Nat :=
  last.elim 0 Entity.stop

theorem openAt_eq_none_iff {last : Option Entity} : openAt i last = none ↔ stopOf last ≤ i := by
  cases last with
  | none => simp [openAt, stopOf]
  | some e => simp [openAt, stopOf]

theorem advance_open (h : i < e.stop) :
    Open.advance ⟨e.label, e.stop - i⟩ = openAt (i + 1) (some e) := by
  rw [Open.advance, openAt, Option.bind_some, Nat.sub_sub]
  simp only
  congr 1
  rw [eq_iff_iff]
  omega

/-- A tag behind the last entity that was kept does not depend on it. -/
theorem tagAt_toList_append {last : Option Entity} (h : stopOf last ≤ i) (kept : List Entity) :
    tagAt (last.toList ++ kept) i = tagAt kept i := by
  cases last with
  | none => rfl
  | some e => exact tagAt_cons_of_stop_le h kept

/-- Of the entities still to come, in the order of rendering, those that begin with a token, and
those that begin later. -/
structure Reached (i : Nat) (pending reached later : List Entity) : Prop where
  split : pending = reached ++ later
  starts : ∀ e ∈ reached, e.start = i
  comes : ∀ e ∈ later, i < e.start

theorem exists_reached (hsorted : pending.Pairwise fun a b => a.start ≤ b.start)
    (hpending : ∀ e ∈ pending, i ≤ e.start) :
    ∃ reached later, Reached i pending reached later := by
  induction pending with
  | nil => exact ⟨[], [], rfl, nofun, nofun⟩
  | cons e rest ih =>
    obtain ⟨hrest, hsorted⟩ := List.pairwise_cons.mp hsorted
    obtain ⟨he, hpending⟩ := List.forall_mem_cons.mp hpending
    rcases Nat.eq_or_lt_of_le he with heq | hlt
    · obtain ⟨reached, later, hsplit, hstarts, hcomes⟩ := ih hsorted hpending
      exact ⟨e :: reached, later, congrArg (e :: ·) hsplit,
        List.forall_mem_cons.mpr ⟨heq.symm, hstarts⟩, hcomes⟩
    · exact ⟨[], e :: rest, rfl, nofun,
        List.forall_mem_cons.mpr ⟨hlt, fun f hf => Nat.lt_of_lt_of_le hlt (hrest f hf)⟩⟩

namespace Reached

variable {reached later : List Entity} (h : Reached i pending reached later)

include h

theorem takeWhile_eq : (pending.takeWhile fun e => decide (e.start ≤ i)) = reached := by
  have hreached : ∀ e ∈ reached, decide (e.start ≤ i) = true := fun e he =>
    decide_eq_true (Nat.le_of_eq (h.starts e he))
  have hlater : (later.takeWhile fun e => decide (e.start ≤ i)) = [] := by
    cases later with
    | nil => rfl
    | cons e later =>
      exact List.takeWhile_cons_of_neg (by simpa using h.comes e List.mem_cons_self)
  rw [h.split, List.takeWhile_append_of_pos hreached, hlater, List.append_nil]

theorem drop_eq : pending.drop reached.length = later := by
  rw [h.split, List.drop_left]

/-- Entities are passed over that begin while one is open. -/
theorem outermostFrom_eq {n : Nat} (hn : i < n) :
    outermostFrom n pending = outermostFrom n later := by
  rw [h.split, Entity.outermostFrom_append_of_lt]
  exact fun e he => h.starts e he ▸ hn

/-- At a token at which an entity is open the pass goes on with it. -/
theorem tags_some (o : Open) (count : Nat) :
    tags i (some o) pending (count + 1)
      = .inside o.label :: tags (i + 1) o.advance later count := by
  simp only [tags, h.takeWhile_eq, h.drop_eq]

end Reached

section None

variable {reached later : List Entity}

/-- A token with which no entity begins is outside, where none is open. -/
theorem Reached.tags_none_nil (h : Reached i pending [] later) (count : Nat) :
    tags i none pending (count + 1) = .outside :: tags (i + 1) none later count := by
  simp only [tags, h.takeWhile_eq, h.drop_eq, List.find?_nil]

/-- Of the entities that begin with a token the first is opened, where none is open. -/
theorem Reached.tags_none_cons (h : Reached i pending (e :: reached) later) (count : Nat) :
    tags i none pending (count + 1)
      = .begins e.label :: tags (i + 1) (Open.advance ⟨e.label, e.length⟩) later count := by
  have hfind : (e :: reached).find? (fun e => e.start == i) = some e :=
    List.find?_cons_of_pos (beq_iff_eq.mpr (h.starts e List.mem_cons_self))
  simp only [tags, h.takeWhile_eq, h.drop_eq, hfind]

end None

/-- **The rest of a pass.** From the token with index `i` on the tags are those of the last entity
that was kept and of those that will be. -/
theorem tags_openAt {last : Option Entity} (hlast : ∀ e, last = some e → e.start < i)
    (hsorted : pending.Pairwise fun a b => a.start ≤ b.start)
    (hpending : ∀ e ∈ pending, i ≤ e.start) (hlength : ∀ e ∈ pending, e.length ≠ 0)
    (count : Nat) :
    tags i (openAt i last) pending count
      = (List.range' i count).map
          (tagAt (last.toList ++ outermostFrom (stopOf last) pending)) := by
  induction count generalizing i last pending with
  | zero => rfl
  | succ count ih =>
    obtain ⟨reached, later, h⟩ := exists_reached hsorted hpending
    have hrest : ∀ last : Option Entity, (∀ e, last = some e → e.start < i + 1) →
        tags (i + 1) (openAt (i + 1) last) later count
          = (List.range' (i + 1) count).map
              (tagAt (last.toList ++ outermostFrom (stopOf last) later)) := fun last hlast =>
      ih hlast (hsorted.sublist (h.split ▸ List.sublist_append_right reached later)) h.comes
        fun e he => hlength e (h.split ▸ List.mem_append_right reached he)
    rw [List.range'_succ, List.map_cons]
    cases hopen : openAt i last with
    | some o =>
      -- an entity is open, and what begins with the token is passed over
      obtain ⟨e, rfl, ho⟩ := Option.bind_eq_some_iff.mp hopen
      obtain ⟨hstop, ho⟩ := Option.ite_none_right_eq_some.mp ho
      obtain rfl := Option.some.inj ho
      have he := hlast e rfl
      have hkept : outermostFrom (stopOf (some e)) pending
          = outermostFrom (stopOf (some e)) later := h.outermostFrom_eq hstop
      rw [h.tags_some, hkept, advance_open hstop,
        hrest (some e) fun f hf => Option.some.inj hf ▸ Nat.lt_succ_of_lt he]
      exact congrArg (· :: _) (tagAt_cons_inside he hstop _).symm
    | none =>
      have hended := openAt_eq_none_iff.mp hopen
      have hbehind : ∀ kept, (List.range' (i + 1) count).map (tagAt (last.toList ++ kept))
          = (List.range' (i + 1) count).map (tagAt kept) := fun kept =>
        List.map_congr_left fun j hj => by
          have hij := (List.mem_range'_1.mp hj).1
          exact tagAt_toList_append (by omega) kept
      rw [tagAt_toList_append hended, hbehind]
      cases reached with
      | nil =>
        -- no entity begins here
        have hnext := hrest last fun e he => Nat.lt_succ_of_lt (hlast e he)
        rw [openAt_eq_none_iff.mpr (Nat.le_succ_of_le hended), hbehind] at hnext
        rw [h.tags_none_nil, hnext, show pending = later from h.split, tagAt_of_forall_lt_start]
        exact fun e he => h.comes e ((Entity.outermostFrom_sublist _ _).subset he)
      | cons e reached =>
        -- the first of the entities that begin here is kept
        have hstart := h.starts e List.mem_cons_self
        have he := hlength e (h.split ▸ List.mem_append_left later List.mem_cons_self)
        have hstop : e.stop = i + e.length := by rw [Entity.stop, hstart]
        have hkept : outermostFrom (stopOf last) pending = e :: outermostFrom e.stop later := by
          rw [h.split, List.cons_append, Entity.outermostFrom_cons_of_le (hstart ▸ hended),
            Entity.outermostFrom_append_of_lt]
          intro f hf
          rw [h.starts f (List.mem_cons_of_mem e hf)]
          omega
        have hadvance : Open.advance ⟨e.label, e.length⟩ = openAt (i + 1) (some e) := by
          rw [← advance_open (by omega), hstop, Nat.add_sub_cancel_left]
        have htag := tagAt_cons_start he (outermostFrom e.stop later)
        rw [hstart] at htag
        have hlast : ∀ f, some e = some f → f.start < i + 1 := by
          rintro f ⟨⟩
          omega
        rw [h.tags_none_cons, hkept, htag, hadvance, hrest (some e) hlast]
        rfl

/-- **The tags of a sentence are those of its outermost entities.** -/
theorem tags_sort {entities : List Entity} (hlength : ∀ e ∈ entities, e.length ≠ 0) (count : Nat) :
    tags 0 none (Entity.sort entities) count
      = (List.range count).map (tagAt (outermost entities)) := by
  have h := tags_openAt (i := 0) (nofun : ∀ e : Entity, none = some e → e.start < 0)
    ((Entity.pairwise_sort entities).imp Entity.start_le_of_mayPrecede)
    (fun _ _ => Nat.zero_le _) (fun e he => hlength e (Entity.mem_sort.mp he)) count
  rw [List.range_eq_range']
  exact h

/-! ## Lines -/

theorem row_begins (form : Text) (label : String) :
    row form (.begins label) = form ++ "\tB-".toList ++ label.toList ++ "\n".toList := by
  simp [row, Tag.text]

theorem row_inside (form : Text) (label : String) :
    row form (.inside label) = form ++ "\tI-".toList ++ label.toList ++ "\n".toList := by
  simp [row, Tag.text]

theorem row_outside (form : Text) : row form .outside = form ++ "\t_\n".toList := by
  simp [row, Tag.text]

end Outermost

/-! ## The sentence -/

/-- **CoNLL tags are those of the outermost entities.** For each token one line is written, in
order, and an empty one behind them. Behind its form and a tab, the line of a token has `B-` and the
label of the outermost entity that begins with it, or `I-` and the label of the one that covers it
and begins before it, or `_` where none covers it. Where no two entities cross, the outermost ones
are the first given of each span that lies in no larger one. -/
theorem Renderer.sentence_conll_outermost {r : Renderer} {tokens : Sentence}
    {entities : List Entity} (hformat : r.format = .conll)
    (hspan : ∀ e ∈ entities, e.isSpanOf tokens.length = true) :
    let kept := outermost entities
    (∃ lines : List Text,
      r.sentence tokens entities = .ok (lines.map .write ++ [.write "\n".toList], r) ∧
      lines.length = tokens.length ∧
      ∀ i token line, tokens[i]? = some token → lines[i]? = some line →
        (∀ k ∈ kept, k.start = i →
          line = token.form ++ "\tB-".toList ++ k.label.toList ++ "\n".toList) ∧
        (∀ k ∈ kept, k.start < i → i < k.stop →
          line = token.form ++ "\tI-".toList ++ k.label.toList ++ "\n".toList) ∧
        ((∀ k ∈ kept, ¬ (k.start ≤ i ∧ i < k.stop)) → line = token.form ++ "\t_\n".toList)) ∧
      ((∀ a ∈ entities, ∀ b ∈ entities, a.crosses b = false) →
        (kept.map Entity.span).Nodup ∧
          (∀ k ∈ kept, entities.find? (fun e => e.span == k.span) = some k) ∧
          ∀ e ∈ entities, (∃ k ∈ kept, k.span = e.span) ↔
            ∀ f ∈ entities, f.contains e = true → f.span = e.span) := by
  intro kept
  have hlength : ∀ e ∈ entities, e.length ≠ 0 := fun e he => (Entity.isSpanOf_iff.mp (hspan e he)).1
  refine ⟨⟨tokens.zipIdx.map fun p => Outermost.row p.1.form (Outermost.tagAt kept p.2), ?_,
    by simp, ?_⟩, fun hcross => ⟨Entity.nodup_span_outermost hlength,
      fun k => Entity.find?_span_of_mem_outermost hlength,
      fun e => Entity.exists_mem_outermost_iff hlength hcross⟩⟩
  · have hspans : checkSpans entities tokens.length = .ok () := checkSpans_eq_ok_iff.mpr hspan
    rw [sentence_conll _ _ hformat, hspans]
    show Except.ok (Outermost.render tokens (Entity.sort entities), r) = _
    rw [Outermost.render, Outermost.tags_sort hlength, List.zipIdx_eq_zip_range',
      ← List.range_eq_range', Sentence.forms, List.zip_map, List.map_map, List.map_map]
    simp [Function.comp_def, kept]
  · intro i token line htoken hline
    have hrow : line = Outermost.row token.form (Outermost.tagAt kept i) := by
      rw [List.getElem?_map, List.getElem?_zipIdx, htoken] at hline
      simpa [eq_comm] using hline
    refine ⟨fun k hk hstart => ?_, fun k hk hstart hstop => ?_, fun hnone => ?_⟩
    · rw [hrow, (Outermost.tagAt_eq_begins_iff hlength).mpr ⟨k, hk, hstart, rfl⟩,
        Outermost.row_begins]
    · rw [hrow, Outermost.tagAt_eq_inside_iff.mpr ⟨k, hk, hstart, hstop, rfl⟩,
        Outermost.row_inside]
    · rw [hrow, Outermost.tagAt_eq_outside_iff.mpr hnone, Outermost.row_outside]

/-- So it is where entities cross, have one span or stand side by side: `B` crosses `A` and is
passed over, `C` begins where `A` ends, no entity covers `d`, and of `D` and `E` the first is
written. -/
theorem Renderer.sentence_conll_outermost_crossing :
    let r : Renderer := ⟨.conll, .warn, "a b c d e".toList, {}, 0, 0⟩
    let tokens : Sentence := [.ofForm ['a'] 0 0, .ofForm ['b'] 2 1, .ofForm ['c'] 4 2,
      .ofForm ['d'] 6 3, .ofForm ['e'] 8 4]
    let entities : List Entity := [⟨0, 2, "A"⟩, ⟨1, 2, "B"⟩, ⟨2, 1, "C"⟩, ⟨4, 1, "D"⟩, ⟨4, 1, "E"⟩]
    (r.format = .conll ∧ ∀ e ∈ entities, e.isSpanOf tokens.length = true) ∧
      r.sentence tokens entities
        = .ok (["a\tB-A\n", "b\tI-A\n", "c\tB-C\n", "d\t_\n", "e\tB-D\n", "\n"].map
            fun line => .write line.toList, r) := by
  intro r tokens entities
  have hspan : ∀ e ∈ entities, e.isSpanOf tokens.length = true := by decide
  have hkept : outermost entities = [⟨0, 2, "A"⟩, ⟨2, 1, "C"⟩, ⟨4, 1, "D"⟩] := by decide +kernel
  obtain ⟨⟨lines, hsentence, hcount, hlines⟩, -⟩ :=
    @sentence_conll_outermost r tokens _ rfl hspan
  rw [hkept] at hlines
  refine ⟨⟨rfl, hspan⟩, ?_⟩
  match lines, hcount with
  | [a, b, c, d, e], _ =>
    obtain rfl : a = "a\tB-A\n".toList :=
      ((hlines 0 _ a rfl rfl).1 ⟨0, 2, "A"⟩ (by decide) rfl).trans (by decide +kernel)
    obtain rfl : b = "b\tI-A\n".toList :=
      ((hlines 1 _ b rfl rfl).2.1 ⟨0, 2, "A"⟩ (by decide) (by decide) (by decide)).trans
        (by decide +kernel)
    obtain rfl : c = "c\tB-C\n".toList :=
      ((hlines 2 _ c rfl rfl).1 ⟨2, 1, "C"⟩ (by decide) rfl).trans (by decide +kernel)
    obtain rfl : d = "d\t_\n".toList :=
      ((hlines 3 _ d rfl rfl).2.2 (by decide)).trans (by decide +kernel)
    obtain rfl : e = "e\tB-D\n".toList :=
      ((hlines 4 _ e rfl rfl).1 ⟨4, 1, "D"⟩ (by decide) rfl).trans (by decide +kernel)
    exact hsentence

end EntityMarkup
