import EntityMarkup.Proofs.Render.Copying
import EntityMarkup.Proofs.Render.Reading
import EntityMarkup.Proofs.Render.Rejection

/-!
# Markup by stretches of text, for any tokens

Nothing has to be known of how tokens lie for markup by stretches of text to hold the block once and
in order: the pen never goes back. Nor for its tags to be balanced, since they are put on a stack
and taken off from its top. It is enough that the block can be cut at the ends of tokens.

The tags of entities are read off the text that is written, by a reader that takes a tag to end at
the next `>`. So a label may hold a quotation mark here.

* `entityTags?_flatMap_text`: the tags that are read are those of the marks that were written.
* `isNested_follow`, `openedLabels_follow`: what entities are open comes first, whatever follows.
* `Flat.written_sentence`: what one sentence writes; `Session.exists_calls_charSpan`: what calls
  have written.
* **`Session.finish_calls_charSpan`**: the output for a block, whatever sentences are called.
-/

namespace EntityMarkup

open Mark (KeepsTag LabelsAre literals stretch)

/-! ## The tags of entities in a text -/

/-- A tag of an entity. -/
inductive EntityTag where
  | opening (label : String)
  | closing
  deriving DecidableEq, Repr

namespace EntityTag

/-- The tag of an entity that has this between its angle brackets. -/
def ofTag? (tag : Text) : Option EntityTag :=
  match tag with
  | ['/', 'n', 'e'] => some .closing
  | 'n' :: 'e' :: ' ' :: 't' :: 'y' :: 'p' :: 'e' :: '=' :: '"' :: rest =>
    if rest.getLast? = some '"' then some (.opening (String.ofList rest.dropLast)) else none
  | _ => none

/-- The label in a tag that opens an entity. -/
def label? : EntityTag → Option String
  | .opening label => some label
  | .closing => none

/-- Whether each tag that closes an entity has one that is open, of which there are `depth` before,
and none is open in the end. -/
def isNested : (depth : Nat) → List EntityTag → Bool
  | depth, [] => depth == 0
  | depth, .opening _ :: rest => isNested (depth + 1) rest
  | 0, .closing :: _ => false
  | depth + 1, .closing :: rest => isNested depth rest

/-- The labels in the tags that open entities. -/
def openedLabels (tags : List EntityTag) : List String :=
  tags.filterMap label?

/-- As many entities are closed as can be. -/
theorem isNested_closings_append (n depth : Nat) (rest : List EntityTag) :
    isNested (n + depth) (List.replicate n .closing ++ rest) = isNested depth rest := by
  induction n with
  | zero => rw [Nat.zero_add, List.replicate_zero, List.nil_append]
  | succ n ih => rw [Nat.succ_add, List.replicate_succ, List.cons_append, isNested, ih]

end EntityTag

open EntityTag (isNested openedLabels)

/-- What stands between the angle brackets of each tag, from within a tag of which a part is read or
from outside; `none` if a tag does not end. -/
def Text.tagsFrom : Option Text → Text → Option (List Text)
  | none, [] => some []
  | some _, [] => none
  | none, c :: rest => if c = '<' then tagsFrom (some []) rest else tagsFrom none rest
  | some tag, c :: rest =>
    if c = '>' then (tagsFrom none rest).map (tag :: ·) else tagsFrom (some (tag ++ [c])) rest

/-- The tags of entities in a text. -/
def Text.entityTags? (t : Text) : Option (List EntityTag) :=
  (t.tagsFrom none).map (·.filterMap EntityTag.ofTag?)

theorem Text.tagsFrom_none_append {t : Text} (h : '<' ∉ t) (rest : Text) :
    tagsFrom none (t ++ rest) = tagsFrom none rest := by
  induction t with
  | nil => rfl
  | cons c t ih =>
    have hc : c ≠ '<' := fun e => h (e ▸ List.mem_cons_self)
    rw [List.cons_append, tagsFrom, if_neg hc, ih fun hmem => h (List.mem_cons_of_mem _ hmem)]

theorem Text.tagsFrom_some_append {t : Text} (h : '>' ∉ t) (tag rest : Text) :
    tagsFrom (some tag) (t ++ '>' :: rest) = (tagsFrom none rest).map ((tag ++ t) :: ·) := by
  induction t generalizing tag with
  | nil => rw [List.nil_append, tagsFrom, if_pos rfl, List.append_nil]
  | cons c t ih =>
    have hc : c ≠ '>' := fun e => h (e ▸ List.mem_cons_self)
    rw [List.cons_append, tagsFrom, if_neg hc, ih fun hmem => h (List.mem_cons_of_mem _ hmem),
      List.append_assoc, List.singleton_append]

namespace Mark

/-- The tag of an entity that a mark is. -/
def entityTag? : Mark → Option EntityTag
  | .beginEntity label => some (.opening label)
  | .endEntity => some .closing
  | _ => none

/-- The tags of entities in marks. -/
def entityTags (marks : List Mark) : List EntityTag :=
  marks.filterMap entityTag?

@[simp] theorem entityTags_append (xs ys : List Mark) :
    entityTags (xs ++ ys) = entityTags xs ++ entityTags ys :=
  List.filterMap_append

@[simp] theorem entityTags_stretch (block : Text) (a b : Nat) :
    entityTags (stretch block a b) = [] := by
  rw [stretch]
  split <;> rfl

/-- A mark that is no stretch of text is written as a tag, which shows what tag of an entity it
is. -/
theorem exists_tag_entityTag? {m : Mark} (hm : ∀ t, m ≠ .literal t)
    (hlabel : LabelsAre KeepsTag [m]) :
    ∃ tag, m.text = '<' :: tag ++ ['>'] ∧ '>' ∉ tag ∧ EntityTag.ofTag? tag = m.entityTag? := by
  cases m with
  | literal t => exact absurd rfl (hm t)
  | beginSentence => exact ⟨['s', 'e', 'n', 't', 'e', 'n', 'c', 'e'], rfl, by decide, rfl⟩
  | endSentence => exact ⟨['/', 's', 'e', 'n', 't', 'e', 'n', 'c', 'e'], rfl, by decide, rfl⟩
  | beginToken => exact ⟨['t', 'o', 'k', 'e', 'n'], rfl, by decide, rfl⟩
  | endToken => exact ⟨['/', 't', 'o', 'k', 'e', 'n'], rfl, by decide, rfl⟩
  | endEntity => exact ⟨['/', 'n', 'e'], rfl, by decide, rfl⟩
  | beginEntity label =>
    have h : '>' ∉ label.toList := hlabel label List.mem_cons_self
    exact ⟨['n', 'e', ' ', 't', 'y', 'p', 'e', '=', '"'] ++ label.toList ++ ['"'], by simp,
      by simp [h], by simp [EntityTag.ofTag?, entityTag?]⟩

/-- **The tags that are read are those of the marks that were written.** -/
theorem entityTags?_flatMap_text {marks : List Mark} (hlabels : LabelsAre KeepsTag marks) :
    Text.entityTags? (marks.flatMap text) = some (entityTags marks) := by
  induction marks with
  | nil => rfl
  | cons m marks ih =>
    obtain ⟨hlabel, hrest⟩ := labelsAre_cons.mp hlabels
    rw [List.flatMap_cons, Text.entityTags?, entityTags, List.filterMap_cons]
    by_cases hm : ∃ t, m = .literal t
    · obtain ⟨t, rfl⟩ := hm
      rw [text_literal, Text.tagsFrom_none_append (Text.not_mem_escape (Or.inl rfl) t)]
      exact ih hrest
    · obtain ⟨tag, htext, htag, hof⟩ := exists_tag_entityTag? (fun t e => hm ⟨t, e⟩) hlabel
      obtain ⟨tags, htags, hrest⟩ := Option.map_eq_some_iff.mp (ih hrest)
      rw [htext, List.cons_append, List.cons_append, List.append_assoc, List.singleton_append,
        Text.tagsFrom, if_pos rfl, Text.tagsFrom_some_append htag, htags, List.nil_append,
        Option.map_some, Option.map_some, List.filterMap_cons, hof, hrest]
      rfl

end Mark

/-! ## What a sentence writes -/

namespace Flat

variable {block : Text} {cursor : Nat} {tokens : Sentence} {es : List Entity}

theorem entityTags_closeAll (cursor : Nat) (offsets : List Nat) :
    Mark.entityTags (closeAll block cursor offsets).marks
      = List.replicate offsets.length .closing := by
  induction offsets generalizing cursor with
  | nil => rfl
  | cons offset rest ih =>
    rw [closeAll, Mark.entityTags_append, Mark.entityTags_stretch, List.nil_append,
      List.length_cons, List.replicate_succ, ← ih (max cursor offset)]
    rfl

/-- The tags from an entity on: what ends before it begins is closed, and it is opened. -/
theorem entityTags_follow_cons (stack : List Nat) (cursor : Nat) (e : Entity) (es : List Entity) :
    ∃ cursor', Mark.entityTags (follow block tokens stack cursor (e :: es)).marks
      = List.replicate (endingBy (startOffset tokens e) stack).length .closing
        ++ .opening e.label
        :: Mark.entityTags (follow block tokens (stackAfter tokens stack e) cursor' es).marks := by
  let start := startOffset tokens e
  refine ⟨max (closeAll block cursor (endingBy start stack)).cursor start, ?_⟩
  rw [follow, Mark.entityTags_append, Mark.entityTags_append, entityTags_closeAll,
    Mark.entityTags_stretch, List.append_nil]
  rfl

/-- **What is open is closed**, and so is everything that is opened. -/
theorem isNested_follow (depth : Nat) (stack : List Nat) (cursor : Nat) (rest : List EntityTag) :
    isNested (stack.length + depth)
        (Mark.entityTags (follow block tokens stack cursor es).marks ++ rest)
      = isNested depth rest := by
  induction es generalizing stack cursor with
  | nil =>
    rw [follow, entityTags_closeAll]
    exact EntityTag.isNested_closings_append stack.length depth rest
  | cons e es ih =>
    obtain ⟨cursor', htags⟩ := @entityTags_follow_cons block tokens stack cursor e es
    have hle : (endingBy (startOffset tokens e) stack).length ≤ stack.length :=
      (List.takeWhile_sublist _).length_le
    have hlength : stack.length + depth = (endingBy (startOffset tokens e) stack).length
        + (stack.length - (endingBy (startOffset tokens e) stack).length + depth) := by omega
    have hafter : stack.length - (endingBy (startOffset tokens e) stack).length + depth + 1
        = (stackAfter tokens stack e).length + depth := by
      rw [stackAfter, List.length_cons, List.length_drop]
      omega
    rw [htags, List.append_assoc, hlength, EntityTag.isNested_closings_append, List.cons_append,
      isNested, hafter, ih]

/-- Each entity is opened once, in the order in which they are given. -/
theorem openedLabels_follow (stack : List Nat) (cursor : Nat) :
    openedLabels (Mark.entityTags (follow block tokens stack cursor es).marks)
      = es.map Entity.label := by
  induction es generalizing stack cursor with
  | nil =>
    rw [follow, entityTags_closeAll, openedLabels]
    exact List.filterMap_eq_nil_iff.mpr fun tag htag => by rw [List.eq_of_mem_replicate htag]; rfl
  | cons e es ih =>
    obtain ⟨cursor', htags⟩ := @entityTags_follow_cons block tokens stack cursor e es
    have hclosings : openedLabels
        (List.replicate (endingBy (startOffset tokens e) stack).length .closing) = [] :=
      List.filterMap_eq_nil_iff.mpr fun tag htag => by rw [List.eq_of_mem_replicate htag]; rfl
    rw [htags, openedLabels, List.filterMap_append, ← openedLabels, hclosings, List.nil_append,
      List.map_cons, ← ih (stackAfter tokens stack e) cursor']
    rfl

/-- Marks that copy a block from one offset to another, and have the tags of entities with the given
labels around parts of it. -/
structure Written (block : Text) (start stop : Nat) (labels : List String) (marks : List Mark) :
    Prop where
  copies : Mark.Copies block start stop block.size marks
  keepsTag : LabelsAre KeepsTag marks
  nested : ∀ depth rest, isNested depth (Mark.entityTags marks ++ rest) = isNested depth rest
  opened : openedLabels (Mark.entityTags marks) = labels

variable {a b c : Nat} {labels labels' : List String} {xs ys : List Mark}

theorem Written.nil (ha : block.IsBoundary a) : Written block a a [] [] where
  copies := .nil ha ha.le_size
  keepsTag := Mark.labelsAre_of_forall_ne (by simp)
  nested _ _ := rfl
  opened := rfl

theorem Written.append (ha : block.IsBoundary a) (hx : Written block a b labels xs)
    (hy : Written block b c labels' ys) : Written block a c (labels ++ labels') (xs ++ ys) where
  copies := hx.copies.append ha hy.copies
  keepsTag := Mark.labelsAre_append.mpr ⟨hx.keepsTag, hy.keepsTag⟩
  nested depth rest := by
    rw [Mark.entityTags_append, List.append_assoc, hx.nested, hy.nested]
  opened := by
    rw [Mark.entityTags_append, openedLabels, List.filterMap_append]
    exact congrArg₂ _ hx.opened hy.opened

theorem written_stretch (ha : block.IsBoundary a) (hb : block.IsBoundary b) :
    Written block a (max a b) [] (stretch block a b) where
  copies := Mark.copies_stretch ha hb ha.le_size hb.le_size
  keepsTag := Mark.labelsAre_stretch _ _ _ _
  nested _ _ := by rw [Mark.entityTags_stretch, List.nil_append]
  opened := by
    rw [Mark.entityTags_stretch]
    rfl

/-- **What a sentence writes**, whatever its tokens and entities are, if the block can be cut at the
tokens. -/
theorem written_sentence
    (htokens : ∀ t ∈ tokens, block.IsBoundary t.start ∧ block.IsBoundary t.stop)
    (hspan : ∀ e ∈ es, e.isSpanOf tokens.length = true)
    (hlabels : ∀ e ∈ es, KeepsTag e.label) (hcursor : block.IsBoundary cursor) :
    Written block cursor (sentence block cursor tokens es).cursor (es.map Entity.label)
      (sentence block cursor tokens es).marks := by
  have hcuts : ∀ e ∈ es,
      (block.IsBoundary (startOffset tokens e) ∧ startOffset tokens e ≤ block.size) ∧
        block.IsBoundary (stopOffset tokens e) ∧ stopOffset tokens e ≤ block.size := by
    intro e he
    have hstart := startOffset_eq (hspan e he)
    have hstop := stopOffset_eq (hspan e he)
    obtain ⟨first, hfirst, hstart⟩ := Option.map_eq_some_iff.mp hstart
    obtain ⟨last, hlast, hstop⟩ := Option.map_eq_some_iff.mp hstop
    have hfirst := (htokens first (List.mem_of_getElem? hfirst)).1
    have hlast := (htokens last (List.mem_of_getElem? hlast)).2
    rw [← hstart, ← hstop]
    exact ⟨⟨hfirst, hfirst.le_size⟩, hlast, hlast.le_size⟩
  refine ⟨?_, labelsAre_sentence block cursor tokens hlabels, fun depth rest => ?_, ?_⟩
  · rw [sentence_eq_follow]
    exact copies_follow [] hcursor hcursor.le_size (by simp) hcuts
  · have hnested := @isNested_follow block tokens es depth [] cursor rest
    rw [List.length_nil, Nat.zero_add] at hnested
    rw [sentence_eq_follow, hnested]
  · rw [sentence_eq_follow, openedLabels_follow]

end Flat

/-! ## Calls one after the other -/

namespace Session

variable {s : Session} {found : List Finding}

/-- The labels of the entities of some sentences, in the order of rendering. -/
def renderedLabels (found : List Finding) : List String :=
  found.flatMap fun f => (Entity.sort f.2).map Entity.label

/-- The tokens of sentences are stretches of a block, and the labels of their entities keep the tags
that they stand in. -/
def AreReadable (block : Text) (found : List Finding) : Prop :=
  ∀ f ∈ found, (∀ t ∈ f.1, block.IsBoundary t.start ∧ block.IsBoundary t.stop) ∧
    ∀ e ∈ f.2, KeepsTag e.label

/-- What a call writes that does not fail. -/
theorem exists_call_charSpan (hformat : s.renderer.format = .charSpan)
    (hroom : s.sink.room = none) (hcursor : s.renderer.block.IsBoundary s.renderer.cursor)
    {f : Finding} (hf : AreReadable s.renderer.block [f]) {s' : Session}
    (hcall : s.call f = (.ok (), s')) :
    ∃ cursor events marks, s' = ⟨{ s.renderer with cursor }, s.sink.record events⟩ ∧
      Event.written events = marks.flatMap Mark.text ∧
      Flat.Written s.renderer.block s.renderer.cursor cursor (renderedLabels [f]) marks := by
  obtain ⟨htokens, hlabels⟩ := hf f List.mem_cons_self
  have hmarkup : s.renderer.format.markup? = some Flat.render := by rw [hformat]; rfl
  cases hsentence : s.renderer.sentence f.1 f.2 with
  | error e =>
    rw [call_of_sentence_eq_error hsentence] at hcall
    cases hcall
  | ok rendered =>
    obtain ⟨events, renderer⟩ := rendered
    rw [call_of_sentence_eq_ok hroom hsentence] at hcall
    obtain ⟨-, rfl⟩ := Prod.mk.inj hcall
    obtain ⟨hspans, notice, hnotice, rfl, rfl⟩ :=
      (Renderer.sentence_inline_eq_ok_iff hmarkup).mp hsentence
    have hspan := Renderer.checkSpans_eq_ok_iff.mp hspans
    have hwritten := Flat.written_sentence htokens
      (fun e he => hspan e (Entity.mem_sort.mp he))
      (fun e he => hlabels e (Entity.mem_sort.mp he)) hcursor
    let pen := Flat.sentence s.renderer.block s.renderer.cursor f.1 (Entity.sort f.2)
    refine ⟨pen.cursor, notice ++ Mark.events pen.marks, pen.marks, rfl, ?_, ?_⟩
    · rw [Event.written_append, (Renderer.written_of_checkCrossing hnotice).1, List.nil_append]
      exact Mark.written_events _
    · rw [renderedLabels, List.flatMap_singleton]
      exact hwritten

/-- **What calls have written**, some of which may have failed. -/
theorem exists_calls_charSpan (hformat : s.renderer.format = .charSpan)
    (hroom : s.sink.room = none) (hcursor : s.renderer.block.IsBoundary s.renderer.cursor)
    (hfound : AreReadable s.renderer.block found) :
    ∃ cursor events marks,
      s.calls found = ⟨{ s.renderer with cursor }, s.sink.record events⟩ ∧
      Event.written events = marks.flatMap Mark.text ∧
      Flat.Written s.renderer.block s.renderer.cursor cursor (renderedLabels (s.accepted found))
        marks := by
  induction found generalizing s with
  | nil =>
    refine ⟨s.renderer.cursor, [], [], ?_, rfl, Flat.Written.nil hcursor⟩
    rw [Sink.record_nil]
    rfl
  | cons f rest ih =>
    obtain ⟨hf, hrest⟩ := List.forall_mem_cons.mp hfound
    have hcalls : s.calls (f :: rest) = (s.call f).2.calls rest := rfl
    rw [hcalls, accepted]
    cases hcall : s.call f with
    | mk result s' =>
      cases result with
      | error e =>
        obtain ⟨-, rfl⟩ := (call_eq_error_iff hroom).mp hcall
        exact ih hformat hroom hcursor hrest
      | ok u =>
        obtain ⟨cursor, first, marks, rfl, hwritten, hmarks⟩ :=
          exists_call_charSpan hformat hroom hcursor (by simpa [AreReadable] using hf) hcall
        obtain ⟨cursor', more, marks', hcalls', hwritten', hmarks'⟩ :=
          ih (s := ⟨{ s.renderer with cursor }, s.sink.record first⟩) hformat hroom
            hmarks.copies.isBoundary hrest
        refine ⟨cursor', first ++ more, marks ++ marks', ?_, ?_, ?_⟩
        · rw [Sink.record_append]
          exact hcalls'
        · rw [Event.written_append, hwritten, hwritten', List.flatMap_append]
        · have hlabels : renderedLabels (f :: accepted ⟨{ s.renderer with cursor },
              s.sink.record first⟩ rest)
              = renderedLabels [f] ++ renderedLabels (accepted ⟨{ s.renderer with cursor },
                s.sink.record first⟩ rest) := by
            rw [renderedLabels, renderedLabels, renderedLabels, List.flatMap_singleton,
              List.flatMap_cons]
          rw [hlabels]
          exact hmarks.append hcursor hmarks'

/-- **The output for a block, whatever sentences are called.** Their tokens may overlap, be empty,
go back and have any forms, as long as they are stretches of the block; their entities may be any.
Behind the last sentence the block can be ended. Then the tags of entities in the output are
balanced, an entity being opened for each of the sentences that were not rejected, in the order of
rendering; and what stands outside of tags is the block. -/
theorem finish_calls_charSpan (policy : CrossingPolicy) (block : Text) (counter : LineCounter)
    {found : List Finding}
    (htokens : ∀ f ∈ found, ∀ t ∈ f.1, (block.slice? t.start (t.start + t.length)).isSome = true)
    (hlabels : ∀ f ∈ found, ∀ e ∈ f.2, '>' ∉ e.label.toList) :
    let s : Session := ⟨⟨.charSpan, policy, block, counter, 0, 0⟩, {}⟩
    ∃ output tags, (s.calls found).finish.1 = .ok counter ∧
      (s.calls found).finish.2.text? = some output ∧
      output.entityTags? = some tags ∧ isNested 0 tags = true ∧
      openedLabels tags
        = (s.accepted found).flatMap (fun f => (Entity.sort f.2).map Entity.label) ∧
      output.stripTags.unescape = block := by
  intro s
  have hreadable : AreReadable block found := by
    intro f hf
    refine ⟨fun t ht => ?_, hlabels f hf⟩
    obtain ⟨m, hm⟩ := Option.isSome_iff_exists.mp (htokens f hf t ht)
    obtain ⟨u, v, rfl, hstart, hstop⟩ := Text.slice?_eq_some_iff.mp hm
    refine ⟨⟨u, m ++ v, List.append_assoc .., hstart⟩, ⟨u ++ m, v, rfl, ?_⟩⟩
    rw [Text.size_append, hstop]
    rfl
  have hzero := Text.isBoundary_zero block
  obtain ⟨cursor, events, marks, hcalls, hwritten, hmarks⟩ :=
    exists_calls_charSpan (s := s) rfl rfl hzero hreadable
  -- the rest of the block
  have hrest := Flat.written_stretch hmarks.copies.isBoundary (Text.isBoundary_size block)
  have hall := hmarks.append hzero hrest
  rw [Nat.max_eq_right hmarks.copies.isBoundary.le_size, List.append_nil] at hall
  have hfinish : (s.calls found).finish
      = (.ok counter, ({} : Sink).record (events ++ Mark.events (stretch block cursor block.size)))
      := by
    rw [hcalls, Sink.record_append, finish]
    exact congrArg (fun taken : Sink × Bool =>
        ((if taken.2 then .ok counter else .error (.io .full) : Except MarkupError LineCounter),
          taken.1))
      (Sink.acceptAll_of_room_none (s := s.sink.record events) rfl _)
  have houtput : Event.written (events ++ Mark.events (stretch block cursor block.size))
      = (marks ++ stretch block cursor block.size).flatMap Mark.text := by
    rw [Event.written_append, hwritten, Mark.written_events, List.flatMap_append]
  let all := marks ++ stretch block cursor block.size
  refine ⟨all.flatMap Mark.text, Mark.entityTags all, ?_, ?_, ?_, ?_, hall.opened, ?_⟩
  · rw [hfinish]
  · rw [hfinish, Sink.text?_record, houtput]
  · exact Mark.entityTags?_flatMap_text hall.keepsTag
  · have hnested := hall.nested 0 []
    rwa [List.append_nil] at hnested
  · rw [Mark.unescape_stripTags_flatMap_text hall.keepsTag, hall.copies.literals_eq,
      Text.slice_zero_size]

/-- So it is with tokens that overlap, go back and are empty, where a sentence is rejected between
two others, and a label holds a quotation mark. -/
theorem finish_calls_charSpan_backwards :
    let s : Session := ⟨⟨.charSpan, .warn, "a\nb <c".toList, {}, 0, 0⟩, {}⟩
    let first : Finding :=
      ([⟨['?'], 2, 4, 0⟩, ⟨[], 0, 3, 1⟩, ⟨['c'], 5, 0, 2⟩], [⟨0, 2, "A"⟩, ⟨1, 2, "B"⟩])
    let long : Finding := ([⟨['b'], 2, 1, 0⟩], [⟨0, 2, "L"⟩])
    let last : Finding := ([⟨['a'], 0, 1, 0⟩], [⟨0, 1, "C\""⟩])
    let found := [first, long, last]
    (∀ f ∈ found, ∀ t ∈ f.1,
        (Text.slice? "a\nb <c".toList t.start (t.start + t.length)).isSome = true) ∧
      (∀ f ∈ found, ∀ e ∈ f.2, '>' ∉ e.label.toList) ∧
      ∃ output tags, (s.calls found).finish.1 = .ok {} ∧
        (s.calls found).finish.2.text? = some output ∧
        output.entityTags? = some tags ∧ isNested 0 tags = true ∧
        openedLabels tags = ["A", "B", "C\""] ∧
        output.stripTags.unescape = "a\nb <c".toList := by
  intro s first long last found
  have htokens : ∀ f ∈ found, ∀ t ∈ f.1,
      (Text.slice? "a\nb <c".toList t.start (t.start + t.length)).isSome = true := by
    decide +kernel
  have hlabels : ∀ f ∈ found, ∀ e ∈ f.2, '>' ∉ e.label.toList := by decide +kernel
  have haccepted : s.accepted found = [first, last] := by decide +kernel
  obtain ⟨output, tags, hfinish, houtput, htags, hnested, hopened, hblock⟩ :=
    finish_calls_charSpan .warn "a\nb <c".toList {} htokens hlabels
  rw [haccepted] at hopened
  exact ⟨htokens, hlabels, output, tags, hfinish, houtput, htags, hnested, hopened, hblock⟩

end Session

end EntityMarkup
