import EntityMarkup.Proofs.Block.Reading

/-!
# What is read of any bytes

The lines of an input fall into stretches, and each item is what is made of one of them: the lines
of a block up to its blank one, or those that are gathered before a line that cannot be read, and
are lost with it. Only at the end of the input can a block lack its blank line. A `Stretch` holds
the lines of one item; `Divides` says when stretches make up an input.

The reader answers with the items one by one, and with nothing when they have all been read.

* `exists_divides_group`, `exists_divides_items`: lines that are grouped are divided into stretches.
* `lines_flatten_of_cutAfter`: the lines of a block are lines of the input.
* `answer_eq_getElem?`: the answers of the reader.
* **`items_divide_input`**: all of this, for any bytes.
-/

namespace EntityMarkup

namespace Text

/-- Pieces of a sequence that was cut are cut in the same way when they are put together again. -/
theorem cutAfter_flatten_of_append {α : Type} [DecidableEq α] {sep : α} {xs : List α}
    {ys zs : List (List α)} (h : cutAfter sep xs = ys ++ zs) :
    cutAfter sep ys.flatten = ys ∧ cutAfter sep zs.flatten = zs := by
  induction xs generalizing ys with
  | nil =>
    obtain ⟨rfl, rfl⟩ := List.append_eq_nil_iff.mp h.symm
    exact ⟨rfl, rfl⟩
  | cons a rest ih =>
    cases ys with
    | nil =>
      refine ⟨rfl, ?_⟩
      rw [List.nil_append] at h
      rw [← h, flatten_cutAfter]
    | cons first ys =>
      rw [cutAfter] at h
      split at h
      · rename_i ha
        obtain ⟨rfl, hrest⟩ := List.cons_eq_cons.mp h
        obtain ⟨hys, hzs⟩ := ih hrest
        refine ⟨?_, hzs⟩
        rw [List.flatten_cons, List.singleton_append, cutAfter, if_pos ha, hys]
      · rename_i ha
        split at h
        · obtain ⟨rfl, hrest⟩ := List.cons_eq_cons.mp h
          obtain ⟨rfl, rfl⟩ := List.append_eq_nil_iff.mp hrest.symm
          refine ⟨?_, rfl⟩
          rw [List.flatten_singleton, cutAfter, if_neg ha, cutAfter]
        · rename_i piece pieces hpieces
          obtain ⟨rfl, hrest⟩ := List.cons_eq_cons.mp h
          have hsplit : cutAfter sep rest = (piece :: ys) ++ zs := by
            rw [hpieces, hrest]
            rfl
          obtain ⟨hys, hzs⟩ := ih hsplit
          refine ⟨?_, hzs⟩
          rw [List.flatten_cons, List.cons_append, cutAfter, if_neg ha, ← List.flatten_cons, hys]

theorem utf8_flatten (ls : List Text) : utf8 ls.flatten = (ls.map utf8).flatten := by
  induction ls with
  | nil => rfl
  | cons l ls ih => rw [List.flatten_cons, utf8_append, ih, List.map_cons, List.flatten_cons]

theorem utf8_inj {t u : Text} (h : t.utf8 = u.utf8) : t = u := by
  have hread := congrArg ofUtf8? h
  rwa [ofUtf8?_utf8, ofUtf8?_utf8, Option.some.injEq] at hread

theorem lines_flatten_of_cutAfter {input : Bytes} {before after : List Bytes} {ls : List Text}
    (h : cutAfter (UInt8.ofNat 10) input = before ++ (ls.map utf8 ++ after)) :
    lines ls.flatten = ls := by
  have hcut := (cutAfter_flatten_of_append (cutAfter_flatten_of_append h).2).1
  rw [← utf8_flatten, cutAfter_utf8] at hcut
  exact (List.map_inj_right fun _ _ => utf8_inj).mp hcut

end Text

namespace Block

/-! ## Stretches of lines -/

/-- The lines of which one item is made. -/
inductive Stretch where
  /-- The lines of a block, with the blank one that ends it. -/
  | paragraph (body : List Text) (blank : Text)
  /-- Lines that are lost, with one behind them that cannot be read. -/
  | broken (lost : List Text) (bad : Bytes)
  /-- The lines of a block that the end of the input ends. -/
  | unfinished (body : List Text)

namespace Stretch

/-- The lines of a stretch, as they stand in the input. -/
def lines : Stretch → List Bytes
  | paragraph body blank => (body ++ [blank]).map Text.utf8
  | broken lost bad => lost.map Text.utf8 ++ [bad]
  | unfinished body => body.map Text.utf8

/-- The item that is made of a stretch. -/
def item : Stretch → Item
  | paragraph body blank => .block (body ++ [blank]).flatten
  | broken _ _ => .unreadable
  | unfinished body => .block body.flatten

/-- Only the last line of a stretch is blank, or cannot be read. -/
def IsProper : Stretch → Prop
  | paragraph body blank =>
    (∀ line ∈ body, line.isBlankLine = false) ∧ blank.isBlankLine = true
  | broken lost bad => (∀ line ∈ lost, line.isBlankLine = false) ∧ Text.ofUtf8? bad = none
  | unfinished body => (∀ line ∈ body, line.isBlankLine = false) ∧ body ≠ []

/-- The end of the input does not end the stretch. -/
def IsFinished : Stretch → Prop
  | unfinished _ => False
  | _ => True

end Stretch

/-- Lines fall into stretches, all of them finished but for the last. -/
structure Divides (lines : List Bytes) (stretches : List Stretch) : Prop where
  lines_eq : stretches.flatMap Stretch.lines = lines
  proper : ∀ s ∈ stretches, s.IsProper
  finished : ∀ s ∈ stretches.dropLast, s.IsFinished

variable {ls : List Bytes} {ss : List Stretch}

theorem Divides.cons {s : Stretch} (h : Divides ls ss) (hproper : s.IsProper)
    (hfinished : s.IsFinished) : Divides (s.lines ++ ls) (s :: ss) := by
  refine ⟨by rw [List.flatMap_cons, h.lines_eq], List.forall_mem_cons.mpr ⟨hproper, h.proper⟩, ?_⟩
  cases ss with
  | nil => simp
  | cons s' ss =>
    rw [List.dropLast_cons_cons]
    exact List.forall_mem_cons.mpr ⟨hfinished, h.finished⟩

/-- **Grouping divides lines into stretches**, the first of which begins with the lines that have
been gathered before. -/
theorem exists_divides_group {gathered : List Text}
    (hgathered : ∀ line ∈ gathered, line.isBlankLine = false) (ls : List Bytes) :
    ∃ stretches, Divides (gathered.map Text.utf8 ++ ls) stretches ∧
      group gathered (ls.map Text.ofUtf8?) = stretches.map Stretch.item := by
  induction ls generalizing gathered with
  | nil =>
    cases gathered with
    | nil => exact ⟨[], ⟨rfl, by simp, by simp⟩, rfl⟩
    | cons line gathered =>
      refine ⟨[.unfinished (line :: gathered)], ⟨by simp [Stretch.lines], ?_, by simp⟩, rfl⟩
      exact List.forall_mem_singleton.mpr ⟨hgathered, List.cons_ne_nil line gathered⟩
  | cons l ls ih =>
    have hnone : ∀ line ∈ ([] : List Text), line.isBlankLine = false := by simp
    rw [List.map_cons]
    cases hread : Text.ofUtf8? l with
    | none =>
      obtain ⟨stretches, hdivides, hitems⟩ := ih hnone
      have hproper : (Stretch.broken gathered l).IsProper := ⟨hgathered, hread⟩
      refine ⟨.broken gathered l :: stretches, ?_, by rw [group, hitems]; rfl⟩
      simpa [Stretch.lines] using hdivides.cons hproper trivial
    | some line =>
      have hline : line.utf8 = l := Text.utf8_of_ofUtf8? hread
      rw [group]
      split
      · rename_i hblank
        obtain ⟨stretches, hdivides, hitems⟩ := ih hnone
        have hproper : (Stretch.paragraph gathered line).IsProper := ⟨hgathered, hblank⟩
        refine ⟨.paragraph gathered line :: stretches, ?_, by rw [hitems]; rfl⟩
        simpa [Stretch.lines, hline] using hdivides.cons hproper trivial
      · rename_i hfull
        have hmore : ∀ line' ∈ gathered ++ [line], line'.isBlankLine = false := by
          intro line' hmem
          rcases List.mem_append.mp hmem with hmem | hmem
          · exact hgathered line' hmem
          · rw [List.mem_singleton.mp hmem]
            exact Bool.eq_false_iff.mpr hfull
        obtain ⟨stretches, hdivides, hitems⟩ := ih hmore
        refine ⟨stretches, ?_, hitems⟩
        simpa [hline] using hdivides

/-- The lines of an input fall into stretches, and its items are what these make. -/
theorem exists_divides_items (input : Bytes) :
    ∃ stretches, Divides (Text.cutAfter (UInt8.ofNat 10) input) stretches ∧
      items input = stretches.map Stretch.item := by
  have hnone : ∀ line ∈ ([] : List Text), line.isBlankLine = false := by simp
  exact exists_divides_group hnone (Text.cutAfter (UInt8.ofNat 10) input)

/-- Of the lines of a stretch one cannot be read, or all can. -/
theorem Stretch.countP_lines {s : Stretch} (h : s.IsProper) :
    (s.lines.countP fun l => (Text.ofUtf8? l).isNone) = if s.item = .unreadable then 1 else 0 := by
  have hread : ∀ body : List Text,
      (body.map Text.utf8).countP (fun l => (Text.ofUtf8? l).isNone) = 0 := by
    intro body
    simp [List.countP_map, Function.comp_def]
  cases s with
  | paragraph body blank => rw [Stretch.lines, hread, if_neg Item.noConfusion]
  | broken lost bad => simp [Stretch.lines, Stretch.item, hread, h.2]
  | unfinished body => rw [Stretch.lines, hread, if_neg Item.noConfusion]

theorem count_unreadable (hproper : ∀ s ∈ ss, s.IsProper) :
    (ss.map Stretch.item).count .unreadable
      = (ss.flatMap Stretch.lines).countP fun l => (Text.ofUtf8? l).isNone := by
  induction ss with
  | nil => rfl
  | cons s ss ih =>
    obtain ⟨hs, hproper⟩ := List.forall_mem_cons.mp hproper
    rw [List.map_cons, List.count_cons, List.flatMap_cons, List.countP_append, ih hproper,
      Stretch.countP_lines hs, Nat.add_comm]
    simp only [beq_iff_eq]

/-! ## Blocks and their lines -/

/-- The lines of a stretch stand among those of the input, and only the last stretch is
unfinished. -/
theorem Divides.split {i : Nat} {s : Stretch} (h : Divides ls ss) (hs : ss[i]? = some s) :
    (∃ before after, ls = before ++ (s.lines ++ after)) ∧ (i + 1 < ss.length → s.IsFinished) := by
  obtain ⟨hi, rfl⟩ := List.getElem?_eq_some_iff.mp hs
  have hsplit : ss = ss.take i ++ ss[i] :: ss.drop (i + 1) := by
    rw [← List.drop_eq_getElem_cons hi, List.take_append_drop]
  refine ⟨⟨(ss.take i).flatMap Stretch.lines, (ss.drop (i + 1)).flatMap Stretch.lines, ?_⟩, ?_⟩
  · rw [← h.lines_eq, ← List.flatMap_cons, ← List.flatMap_append, ← hsplit]
  · intro hlt
    have hlast : i < ss.dropLast.length := by
      rw [List.length_dropLast]
      omega
    rw [← List.getElem_dropLast hlast]
    exact h.finished _ (List.getElem_mem hlast)

/-- The lines of a block are not blank, but for one at its end that only the last item can lack. -/
theorem Divides.block_lines {input : Bytes} (h : Divides (Text.cutAfter (UInt8.ofNat 10) input) ss)
    {i : Nat} {text : Text} (hitem : (ss.map Stretch.item)[i]? = some (.block text)) :
    text ≠ [] ∧ (∀ line ∈ text.lines.dropLast, line.isBlankLine = false) ∧
      (i + 1 < ss.length → ∃ line, text.lines.getLast? = some line ∧ line.isBlankLine = true) := by
  rw [List.getElem?_map] at hitem
  obtain ⟨s, hs, hitem⟩ := Option.map_eq_some_iff.mp hitem
  obtain ⟨⟨before, after, hlines⟩, hfinished⟩ := h.split hs
  have hproper := h.proper s (List.mem_of_getElem? hs)
  have hne : text.lines ≠ [] → text ≠ [] := by
    rintro hne rfl
    exact hne rfl
  cases s with
  | paragraph body blank =>
    obtain ⟨hbody, hblank⟩ := hproper
    obtain rfl := Item.block.inj hitem
    rw [Text.lines_flatten_of_cutAfter hlines] at hne ⊢
    refine ⟨hne (by simp), ?_, fun _ => ⟨blank, List.getLast?_concat, hblank⟩⟩
    rwa [List.dropLast_concat]
  | broken lost bad => cases hitem
  | unfinished body =>
    obtain ⟨hbody, hsome⟩ := hproper
    obtain rfl := Item.block.inj hitem
    rw [Text.lines_flatten_of_cutAfter hlines] at hne ⊢
    exact ⟨hne hsome, fun line hline => hbody line (List.dropLast_subset body hline),
      fun hlt => absurd (hfinished hlt) id⟩

/-! ## The reader -/

namespace Reader

/-- The items that are still to be read. -/
def pending (r : Reader) : List Item :=
  if r.done then [] else items r.rest

/-- The answer of the reader when it has answered `n` times before. -/
def answer (r : Reader) : Nat → Option Item
  | 0 => r.next.1
  | n + 1 => r.next.2.answer n

/-- The reader gathers the lines of the first item that is to be read. -/
theorem gather_eq {gathered : List Text} {text : Text} (htext : gathered.flatten = text)
    (hgathered : ∀ line ∈ gathered, line ≠ []) (rest : Bytes) :
    let items := group gathered ((Text.cutAfter (UInt8.ofNat 10) rest).map Text.ofUtf8?)
    (gather text rest).1 = items.head? ∧ (gather text rest).2.pending = items.tail := by
  fun_induction gather text rest generalizing gathered with
  | case1 text =>
    subst htext
    cases gathered with
    | nil => exact ⟨rfl, rfl⟩
    | cons line gathered =>
      have hline := hgathered line List.mem_cons_self
      have hfull : ((line :: gathered).flatten).isEmpty = false := by simp [hline]
      rw [hfull]
      exact ⟨rfl, rfl⟩
  | case2 text b bytes rest =>
    rename_i hread
    rw [Text.cutAfter_cons_eq, List.map_cons, hread]
    exact ⟨rfl, rfl⟩
  | case3 text b bytes rest line hread =>
    rename_i hblank
    rw [Text.cutAfter_cons_eq, List.map_cons, hread, group, if_pos hblank, ← htext]
    exact ⟨by simp, rfl⟩
  | case4 text b bytes rest line hread hfull =>
    rename_i ih
    have hline : line ≠ [] := by
      rintro rfl
      have hfirst : (Text.cutFirst (UInt8.ofNat 10) (b :: bytes)).1
          ∈ Text.cutAfter (UInt8.ofNat 10) (b :: bytes) := by
        rw [Text.cutAfter_cons_eq]
        exact List.mem_cons_self
      exact Text.ne_nil_of_mem_cutAfter hfirst (Text.utf8_of_ofUtf8? hread).symm
    have htext' : (gathered ++ [line]).flatten = text ++ line := by simp [htext]
    rw [Text.cutAfter_cons_eq, List.map_cons, hread, group, if_neg hfull]
    refine ih htext' fun line' hmem => ?_
    rcases List.mem_append.mp hmem with hmem | hmem
    · exact hgathered line' hmem
    · rwa [List.mem_singleton.mp hmem]

/-- **An answer is the first of the items that are to be read**, and leaves the others. -/
theorem next_eq (r : Reader) : r.next.1 = r.pending.head? ∧ r.next.2.pending = r.pending.tail := by
  unfold next pending
  split
  · simp
  · have hnone : ∀ line ∈ ([] : List Text), line ≠ [] := by simp
    exact gather_eq rfl hnone r.rest

theorem answer_eq_getElem? (r : Reader) (n : Nat) : r.answer n = r.pending[n]? := by
  induction n generalizing r with
  | zero => rw [answer, r.next_eq.1, List.head?_eq_getElem?]
  | succ n ih => rw [answer, ih, r.next_eq.2, List.getElem?_tail]

end Reader

/-- **What is read of any bytes.** The lines of an input are divided into stretches, each item is
what one of them makes, and each line that cannot be read makes one. No block is empty, its lines
are not blank but for one at its end, and only the last item can lack that. If the input is encoded
text, its blocks, put together, are the input. The reader answers with the items in order, and with
nothing from then on. -/
theorem items_divide_input (input : Bytes) :
    (∃ stretches, Divides (Text.cutAfter (UInt8.ofNat 10) input) stretches ∧
        items input = stretches.map Stretch.item) ∧
      (items input).count .unreadable = (Text.cutAfter (UInt8.ofNat 10) input).countP
        (fun line => (Text.ofUtf8? line).isNone) ∧
      (∀ i (text : Text), (items input)[i]? = some (.block text) →
        text ≠ [] ∧ (∀ line ∈ text.lines.dropLast, line.isBlankLine = false) ∧
          (i + 1 < (items input).length →
            ∃ line, text.lines.getLast? = some line ∧ line.isBlankLine = true)) ∧
      (∀ text, Text.ofUtf8? input = some text →
        ∃ blocks : List Text, items input = blocks.map .block ∧
          Text.utf8 blocks.flatten = input) ∧
      ∀ n, (Reader.mk input false).answer n = (items input)[n]? := by
  obtain ⟨stretches, hdivides, hitems⟩ := exists_divides_items input
  refine ⟨⟨stretches, hdivides, hitems⟩, ?_, fun i text hitem => ?_, fun text hread => ?_,
    fun n => (Reader.mk input false).answer_eq_getElem? n⟩
  · rw [hitems, count_unreadable hdivides.proper, hdivides.lines_eq]
  · rw [hitems] at hitem ⊢
    rw [List.length_map]
    exact hdivides.block_lines hitem
  · have hinput := Text.utf8_of_ofUtf8? hread
    refine ⟨ofText text, by rw [← hinput, items_utf8], ?_⟩
    rw [flatten_ofText, hinput]

/-- The first line is lost with the second, which cannot be read; the block behind them ends with a
line of a carriage return, and the last one with the input. -/
example : items ("a\n".toUTF8.toList ++ [255, 10] ++ "b\n\r\nc".toUTF8.toList)
    = [.unreadable, .block "b\n\r\n".toList, .block "c".toList] := by
  decide +kernel

end Block

end EntityMarkup
