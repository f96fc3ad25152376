import EntityMarkup.Proofs.Entity.Nesting
import EntityMarkup.Proofs.Pipeline.Course
import EntityMarkup.Proofs.Pipeline.Pages
import EntityMarkup.Proofs.Token.Listed

/-!
# The numbers in the listing of entities

The listing numbers the tokens of an input from one end to the other, and leaves a number out after
each block. It is kept as a counter that knows only how many tokens have gone by; here a number is
said of a token by its place, that is, the pages before its own and its position among the tokens of
that page (`Page.number`).

Where the input holds one token a line, the blocks are parted by blank lines, and every block but
the last has exactly one. The number that is left out is the blank line's, and the others are those
of the tokens' lines.

* `pairwise_numbers`: the numbers of all tokens, in order, are ascending.
* `events_renderAll`: pages are rendered as their listing.
* `exists_line_of_number`: the number of a token is that of its line.
* **`process_vertical_numbers`**: what a run that lists entities has written, on any sink.
-/

namespace EntityMarkup

namespace Page

/-! ## Places of tokens -/

/-- The tokens of a page, in order. -/
def tokens (page : Page) : List Token :=
  (page.found.map Prod.fst).flatten

/-- The number of tokens on a page before its sentence with index `s`. -/
def offset (page : Page) (s : Nat) : Nat :=
  ((page.found.take s).map Prod.fst).flatten.length

/-- The positions, among the tokens of a page, of those that an entity covers that was found in the
sentence with index `s`. -/
def positions (page : Page) (s : Nat) (e : Entity) : List Nat :=
  List.range' (page.offset s + e.start) e.length

/-- How many numbers are given or left out on pages: one for each token, and one for each page. -/
def lines (pages : List Page) : Nat :=
  (pages.flatMap tokens).length + pages.length

/-- The number of the token at a position of a page, behind those that are given or left out on
`earlier` pages. -/
def number (earlier : List Page) (position : Nat) : Nat :=
  lines earlier + position + 1

/-- The numbers of all tokens, in order. -/
def numbers (pages : List Page) : List Nat :=
  (pages.mapIdx fun i page =>
    (List.range page.tokens.length).map (number (pages.take i))).flatten

/-! ## The listing of pages -/

/-- The line for an entity that was found in the sentence with index `s` of a page. -/
def row (earlier : List Page) (page : Page) (s : Nat) (e : Entity) : Listing.Row where
  numbers := (page.positions s e).map (number earlier)
  label := e.label
  forms := (page.positions s e).filterMap fun position => page.tokens[position]?.map Token.form

/-- The lines for the entities on a page, sentence by sentence, and in the order in which they were
found. -/
def rows (earlier : List Page) (page : Page) : List Listing.Row :=
  (page.found.mapIdx fun s f => f.2.map (row earlier page s)).flatten

/-- The lines for the entities on all pages. -/
def listing (pages : List Page) : List Listing.Row :=
  (pages.mapIdx fun i page => rows (pages.take i) page).flatten

/-! ## Numbers ascend -/

theorem lines_append (xs ys : List Page) : lines (xs ++ ys) = lines xs + lines ys := by
  simp only [lines, List.flatMap_append, List.length_append]
  omega

theorem lines_singleton (page : Page) : lines [page] = page.tokens.length + 1 := by
  simp [lines]

theorem map_number_range' (earlier : List Page) (start n : Nat) :
    (List.range' start n).map (number earlier) = List.range' (number earlier start) n := by
  have hnumber : number earlier = (lines earlier + 1 + ·) := by
    funext position
    rw [number, Nat.add_right_comm]
  rw [hnumber]
  exact List.map_add_range' start n 1

/-- The numbers on pages that follow others are some of those that come next. -/
theorem numbers_sublist (earlier pages : List Page) :
    (pages.mapIdx fun i page =>
      (List.range page.tokens.length).map (number (earlier ++ pages.take i))).flatten.Sublist
      (List.range' (lines earlier + 1) (lines pages)) := by
  induction pages generalizing earlier with
  | nil => exact List.nil_sublist _
  | cons page rest ih =>
    have hrest := ih (earlier ++ [page])
    simp only [List.append_assoc, List.singleton_append] at hrest
    rw [lines_append, lines_singleton] at hrest
    have hsplit : List.range' (lines earlier + 1) (lines (page :: rest))
        = List.range' (lines earlier + 1) page.tokens.length
          ++ (List.range' (lines earlier + 1 + page.tokens.length) 1
            ++ List.range' (lines earlier + (page.tokens.length + 1) + 1) (lines rest)) := by
      have hstart : lines earlier + (page.tokens.length + 1) + 1
          = lines earlier + 1 + page.tokens.length + 1 := by omega
      have hcount : lines (page :: rest) = page.tokens.length + (1 + lines rest) := by
        rw [← List.singleton_append, lines_append, lines_singleton, Nat.add_assoc]
      rw [hstart, List.range'_append_1, List.range'_append_1, hcount]
    rw [List.mapIdx_cons, List.flatten_cons, hsplit, List.take_zero, List.append_nil,
      List.range_eq_range', map_number_range']
    exact List.Sublist.append (List.Sublist.refl _) (hrest.trans (List.sublist_append_right _ _))

/-- **The numbers of all tokens, in order, are ascending.** -/
theorem pairwise_numbers (pages : List Page) : (numbers pages).Pairwise (· < ·) :=
  (List.pairwise_lt_range' 1).sublist (numbers_sublist [] pages)

/-! ## Pages are rendered as their listing -/

theorem filterMap_range' {α β : Type} (xs : List α) (f : α → β) (start n : Nat) :
    (List.range' start n).filterMap (fun position => xs[position]?.map f)
      = ((xs.drop start).take n).map f := by
  induction n generalizing start with
  | zero => rfl
  | succ n ih =>
    rw [List.range'_succ, List.filterMap_cons, ih]
    rcases Nat.lt_or_ge start xs.length with hlt | hge
    · rw [List.getElem?_eq_getElem hlt, List.drop_eq_getElem_cons hlt]
      rfl
    · rw [List.getElem?_eq_none hge, List.drop_eq_nil_of_le hge,
        List.drop_eq_nil_of_le (Nat.le_succ_of_le hge), List.take_nil, List.take_nil]
      rfl

theorem row_eq {page : Page} {s : Nat} {f : Finding} (hf : page.found[s]? = some f)
    (earlier : List Page) {e : Entity} (he : e.isSpanOf f.1.length = true) :
    row earlier page s e = Listing.row (number earlier (page.offset s)) f.1 e := by
  obtain ⟨hs, hget⟩ := List.getElem?_eq_some_iff.mp hf
  have hspan := Entity.isSpanOf_iff.mp he
  have hsplit := List.take_append_drop s page.found
  rw [List.drop_eq_getElem_cons hs, hget] at hsplit
  have htokens : page.tokens = ((page.found.take s).map Prod.fst).flatten
      ++ (f.1 ++ ((page.found.drop (s + 1)).map Prod.fst).flatten) :=
    calc page.tokens
        = ((page.found.take s ++ f :: page.found.drop (s + 1)).map Prod.fst).flatten := by
          rw [hsplit, tokens]
      _ = _ := by rw [List.map_append, List.flatten_append, List.map_cons, List.flatten_cons]
  have hforms : (page.tokens.drop (page.offset s + e.start)).take e.length
      = (f.1.drop e.start).take e.length := by
    rw [← List.drop_drop, htokens, offset, List.drop_left, List.drop_append_of_le_length (by omega),
      List.take_append_of_le_length (by rw [List.length_drop]; omega)]
  have hnumber : number earlier (page.offset s + e.start)
      = number earlier (page.offset s) + e.start := by
    simp only [number]
    omega
  rw [row, Listing.row, positions, map_number_range', filterMap_range', hforms, hnumber]

/-- The lines for the entities on a page are those of the renderer. -/
theorem rows_eq {page : Page} (earlier : List Page)
    (hspans : ∀ f ∈ page.found, ∀ e ∈ f.2, e.isSpanOf f.1.length = true) :
    rows earlier page = (page.found.mapIdx fun s f =>
      f.2.map (Listing.row (number earlier (page.offset s)) f.1)).flatten := by
  rw [rows]
  refine congrArg List.flatten (List.mapIdx_eq_mapIdx_iff.mpr fun s hs => ?_)
  refine List.map_congr_left fun e he => ?_
  exact row_eq (List.getElem?_eq_getElem hs) earlier (hspans _ (List.getElem_mem hs) e he)

end Page

namespace Renderer

/-- Sentences are listed, where all of them pass, with the numbers that follow those of the
sentences before. -/
theorem sentences_vertical {r r' : Renderer} (hformat : r.format = .vertical) {found : List Finding}
    {events : List Event} (h : r.sentences found = .ok (events, r')) :
    (∀ f ∈ found, ∀ e ∈ f.2, e.isSpanOf f.1.length = true) ∧
      r' = { r with seen := r.seen + (found.map Prod.fst).flatten.length } ∧
      events = (found.mapIdx fun s f => f.2.map
          (Listing.row (r.counter.lines + r.seen
            + ((found.take s).map Prod.fst).flatten.length + 1) f.1)).flatten.map
        fun row => .write row.text := by
  induction found generalizing r events with
  | nil =>
    obtain ⟨rfl, rfl⟩ := sentences_nil_eq_ok_iff.mp h
    exact ⟨by simp, rfl, rfl⟩
  | cons f rest ih =>
    obtain ⟨first, r₁, more, hfirst, hmore, rfl⟩ := sentences_cons_eq_ok_iff.mp h
    rw [sentence_vertical f.1 f.2 hformat] at hfirst
    obtain ⟨u, hspans, hfirst⟩ := bind_eq_ok_iff.mp hfirst
    cases hfirst
    obtain ⟨hrest, rfl, rfl⟩ := ih (r := { r with seen := r.seen + f.1.length }) hformat hmore
    refine ⟨List.forall_mem_cons.mpr ⟨checkSpans_eq_ok_iff.mp hspans, hrest⟩, ?_, ?_⟩
    · simp [Nat.add_assoc]
    · rw [List.mapIdx_cons, List.flatten_cons, List.map_append, Listing.render]
      simp [Nat.add_assoc]

end Renderer

namespace Page

variable {input : InputFormat} {policy : CrossingPolicy} {events : List Event}

/-- A page is rendered as its listing, and the counter goes on behind it. -/
theorem render_vertical {earlier : List Page} {page : Page} {counter' : LineCounter}
    (h : page.render ⟨input, .vertical, policy⟩ ⟨lines earlier⟩ = .ok (events, counter')) :
    (∀ f ∈ page.found, ∀ e ∈ f.2, e.isSpanOf f.1.length = true) ∧
      events = (rows earlier page).map (fun row => .write row.text) ∧
      counter' = ⟨lines (earlier ++ [page])⟩ := by
  obtain ⟨written, renderer, hsentences, rfl, rfl⟩ := render_eq_ok_iff.mp h
  obtain ⟨hspans, rfl, rfl⟩ := Renderer.sentences_vertical rfl hsentences
  refine ⟨hspans, ?_, ?_⟩
  · rw [rows_eq earlier hspans]
    exact List.append_nil _
  · rw [lines_append, lines_singleton, tokens]
    simp [Renderer.finish, LineCounter.afterBlock, Nat.add_assoc]

/-- **Pages are rendered as their listing**, when the counter stands behind the pages before
them. -/
theorem events_renderAll (earlier : List Page) {pages : List Page}
    (h : renderAll ⟨input, .vertical, policy⟩ ⟨lines earlier⟩ pages = .ok events) :
    (∀ page ∈ pages, ∀ f ∈ page.found, ∀ e ∈ f.2, e.isSpanOf f.1.length = true) ∧
      events = (pages.mapIdx fun i page => rows (earlier ++ pages.take i) page).flatten.map
        fun row => .write row.text := by
  induction pages generalizing earlier events with
  | nil =>
    obtain rfl := Except.ok.inj h
    exact ⟨by simp, rfl⟩
  | cons page rest ih =>
    obtain ⟨first, counter', more, hfirst, hmore, rfl⟩ := renderAll_cons_eq_ok_iff.mp h
    obtain ⟨hspans, rfl, rfl⟩ := render_vertical hfirst
    obtain ⟨hrest, rfl⟩ := ih (earlier ++ [page]) hmore
    refine ⟨List.forall_mem_cons.mpr ⟨hspans, hrest⟩, ?_⟩
    rw [List.mapIdx_cons, List.flatten_cons, List.map_append]
    simp

/-! ## Numbers of lines -/

/-- **The number of a token is that of its line**, where the input holds one token a line. -/
theorem exists_line_of_number {pages : List Page} {ls : List Text} (hlines : Text.AreLines ls)
    (hblocks : pages.map block = Block.ofLines [] ls)
    (hfound : ∀ page ∈ pages, page.found.map Prod.fst = Listed.sentences page.block)
    {i position : Nat} {page : Page} {t : Token} (hpage : pages[i]? = some page)
    (ht : page.tokens[position]? = some t) :
    ∃ n line, number (pages.take i) position = n + 1 ∧ ls[n]? = some line ∧
      line.trimLineEnd = t.form ∧
      Text.size (ls.take n).flatten
        = Text.size ((pages.take i).map block).flatten + t.start := by
  induction pages generalizing ls i with
  | nil => cases hpage
  | cons first rest ih =>
    obtain ⟨body, ending, ls, rfl, hblock, hrest, hbody, hending⟩ :=
      Block.exists_lines_of_ofLines hblocks.symm
    rw [List.nil_append] at hblock
    obtain ⟨hfirst, hfound⟩ := List.forall_mem_cons.mp hfound
    rw [← List.append_assoc] at hlines
    obtain ⟨hlinesFirst, hlinesRest⟩ := hlines.of_append
    have hblank : ∀ line ∈ ending, line.isBlankLine = true := by
      rcases hending with ⟨line, rfl, hline⟩ | ⟨rfl, -⟩
      · simpa using hline
      · simp
    have htokens : first.tokens = (Listed.sentences (body ++ ending).flatten).flatten := by
      rw [tokens, hfirst, hblock]
    cases i with
    | zero =>
      obtain rfl := Option.some.inj hpage
      rw [htokens] at ht
      obtain ⟨line, hline, hform, hstart⟩ :=
        Listed.getElem?_sentences_of_lines hlinesFirst hbody hblank ht
      have hlt := (List.getElem?_eq_some_iff.mp hline).1
      refine ⟨position, line, by simp [number, lines], ?_, hform, ?_⟩
      · rw [List.getElem?_append_left hlt, hline]
      · rw [List.take_append_of_le_length (Nat.le_of_lt hlt), hstart]
        simp
    | succ i =>
      -- there is a page behind the first, so that the first has its blank line
      rcases hending with ⟨blank, rfl, -⟩ | ⟨rfl, rfl⟩
      · obtain ⟨n, line, hnumber, hline, hform, hstart⟩ := ih hlinesRest hrest hfound hpage
        have hlength : first.tokens.length = body.length := by
          rw [htokens, Listed.length_sentences_of_lines hlinesFirst hbody hblank]
        refine ⟨(body ++ [blank]).length + n, line, ?_, ?_, hform, ?_⟩
        · have hlines := lines_append [first] (rest.take i)
          rw [lines_singleton, List.singleton_append] at hlines
          rw [List.take_succ_cons, number, hlines, hlength, List.length_append,
            List.length_singleton]
          rw [number] at hnumber
          omega
        · rw [← List.append_assoc, List.getElem?_append_right (Nat.le_add_right _ _),
            Nat.add_sub_cancel_left, hline]
        · rw [← List.append_assoc, List.take_length_add_append, List.flatten_append,
            Text.size_append, hstart, List.take_succ_cons, List.map_cons, List.flatten_cons,
            Text.size_append, hblock, Nat.add_assoc]
      · rw [List.map_eq_nil_iff.mp hrest] at hpage
        cases hpage

end Page

namespace Recognizer

/-- **What a run that lists entities has written.** If it succeeds, on whatever sink, the recognizer
has answered for every sentence of every block, and what is written is the listing of its answers:
for each sentence, in order, a line for each entity that was found in it, in the order in which it
was found, with the numbers, the label and the forms of the tokens it covers. The number of a token
is one more than the tokens and blocks before its own block, and the tokens before it in that block;
so the numbers of all tokens are ascending. Where the input holds one token a line, each is that of
the line of the token. -/
theorem process_vertical_numbers {σ : Type} (r : Recognizer σ) {input : InputFormat}
    {policy : CrossingPolicy} {text : Text} {state : σ} {sink : Sink} {stats : Stats}
    {p : Progress σ}
    (h : r.process ⟨input, .vertical, policy⟩ text.utf8 state sink = (.ok stats, p)) :
    ∃ pages : List Page,
      Block.items text.utf8 = pages.map (fun page => .block page.block) ∧
      (∀ page ∈ pages, page.found.map Prod.fst = input.sentences page.block) ∧
      r.Answers state (pages.flatMap Page.found) p.state ∧
      (∀ page ∈ pages, ∀ f ∈ page.found, ∀ e ∈ f.2, e.isSpanOf f.1.length = true) ∧
      p.sink.written = sink.written ++ Text.utf8 ((Page.listing pages).flatMap Listing.Row.text) ∧
      (Page.numbers pages).Pairwise (· < ·) ∧
      (input = .vertical → ∀ i page position t, pages[i]? = some page →
        page.tokens[position]? = some t →
        ∃ n line, Page.number (pages.take i) position = n + 1 ∧ text.lines[n]? = some line ∧
          line.trimLineEnd = t.form ∧
          Text.size (text.lines.take n).flatten
            = Text.size ((pages.take i).map Page.block).flatten + t.start) := by
  rw [process_eq_play] at h
  obtain ⟨hending, hwritten, -⟩ := Course.of_play_eq_ok h
  -- the run on a new sink comes to the same, and shows what has been found
  have hroom : ({} : Sink).room = none := rfl
  have hplay := (r.course ⟨input, .vertical, policy⟩ text.utf8 state).play_of_room_none hroom
  rw [hending, ← process_eq_play] at hplay
  obtain ⟨pages, s', events, hblocks, hfound, hanswers, hrender, hend, -⟩ :=
    (process_eq_ok_iff rfl).mp hplay
  obtain ⟨rfl, hsink, -⟩ := Progress.mk.inj hend
  obtain ⟨hspans, rfl⟩ := Page.events_renderAll [] hrender
  have hbytes : Text.utf8
        (Event.written (r.course ⟨input, .vertical, policy⟩ text.utf8 state).events)
      = Text.utf8 ((Page.listing pages).flatMap Listing.Row.text) := by
    have h := congrArg (fun s : Sink => s.written.toList) hsink
    rw [← Event.written_map]
    simpa [Sink.record, Page.listing] using h
  refine ⟨pages, ?_, hfound, hanswers, hspans, by rw [hwritten, hbytes],
    Page.pairwise_numbers pages, ?_⟩
  · rw [Block.items_utf8, ← hblocks, List.map_map]
    rfl
  · rintro rfl i page position t hpage ht
    exact Page.exists_line_of_number (Text.areLines_lines text) hblocks hfound hpage ht

/-- So it is where two blank lines follow one another, some lines end in a carriage return, and the
last has no line feed. -/
theorem process_vertical_numbers_two_blank :
    let r : Recognizer Unit :=
      ofFunction (fun _ forms => .ok [⟨0, forms.length, "PER"⟩]) fun _ => []
    let text : Text := "Barack\r\nObama\r\n\r\n\nHe".toList
    let p := (r.process ⟨.vertical, .vertical, .warn⟩ text.utf8 () {}).2
    p.sink.written.toList = Text.utf8 "1, 2\tPER\tBarackObama\n5\tPER\tHe\n".toList ∧
      ∃ pages : List Page, Block.items text.utf8 = pages.map (fun page => .block page.block) ∧
        p.sink.written.toList = Text.utf8 ((Page.listing pages).flatMap Listing.Row.text) ∧
        (Page.numbers pages).Pairwise (· < ·) ∧
        ∀ i page position t, pages[i]? = some page → page.tokens[position]? = some t →
          ∃ n line, Page.number (pages.take i) position = n + 1 ∧ text.lines[n]? = some line ∧
            line.trimLineEnd = t.form := by
  intro r text p
  have hresult : (r.process ⟨.vertical, .vertical, .warn⟩ text.utf8 () {}).1
      = .ok ⟨3, 2, 3, 2⟩ := by decide +kernel
  obtain ⟨pages, hblocks, -, -, -, hwritten, hnumbers, hlines⟩ :=
    process_vertical_numbers r (p := p) (Prod.ext hresult rfl)
  refine ⟨by decide +kernel, pages, hblocks, by simp [hwritten], hnumbers, ?_⟩
  intro i page position t hpage ht
  obtain ⟨n, line, hnumber, hline, hform, -⟩ := hlines rfl i page position t hpage ht
  exact ⟨n, line, hnumber, hline, hform⟩

end Recognizer

end EntityMarkup
