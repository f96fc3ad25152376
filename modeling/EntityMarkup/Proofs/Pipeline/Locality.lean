import EntityMarkup.Proofs.Pipeline.Alike
import EntityMarkup.Proofs.Pipeline.Numbering
import EntityMarkup.Proofs.Render.Rejection

/-!
# Runs are local to blocks

Nothing goes from one block to the next but the line counter, the counts, and the state of the
recognizer. Where its answers depend on nothing but the forms, a text that is put together behind a
blank line is therefore marked up in two parts. Only the listing of entities can tell: its numbers
go on behind those of the first part.

What a listing holds is said of all runs, also of those that fail: it lists the sentences up to the
first that cannot be listed (`Page.listable`).

* `Renderer.sentence_shift`: the lines before a block make a difference to the listing only.
* `Page.listing_cons`, `events_itemsCourse_vertical`: what a run that lists entities writes,
  wherever its numbers begin.
* `lines_of_blocksCourse`: where the numbers stand after some blocks.
* **`process_append`**: the run on a text that is put together, from the runs on its parts.
-/

namespace EntityMarkup

/-! ## Lines before a block -/

namespace Renderer

/-- The renderer with more lines before its block. -/
def shift (n : Nat) (r : Renderer) : Renderer :=
  { r with counter := ⟨n + r.counter.lines⟩ }

/-- **The lines before a block** make no difference to a sentence of it, but for the numbers in the
listing of entities. -/
theorem sentence_shift (n : Nat) (r : Renderer) (tokens : Sentence) (entities : List Entity) :
    (∃ e, r.sentence tokens entities = .error e ∧
        (r.shift n).sentence tokens entities = .error e) ∨
      ∃ events r₁ events', r.sentence tokens entities = .ok (events, r₁) ∧
        (r.shift n).sentence tokens entities = .ok (events', r₁.shift n) ∧
        Event.warnings events' = Event.warnings events ∧
        (r.format ≠ .vertical → events' = events) := by
  cases hspans : checkSpans entities tokens.length with
  | error e =>
    exact Or.inl ⟨e, sentence_eq_error_iff.mpr (Or.inl hspans),
      sentence_eq_error_iff.mpr (Or.inl hspans)⟩
  | ok u =>
    cases hmarkup : r.format.markup? with
    | some markup =>
      have hmarkup' : (r.shift n).format.markup? = some markup := hmarkup
      cases hnotice : checkCrossing r.crossing (Entity.sort entities) with
      | error e =>
        have hinline : r.format.markup?.isSome = true := by rw [hmarkup]; rfl
        exact Or.inl ⟨e, sentence_eq_error_iff.mpr (Or.inr ⟨hspans, hinline, hnotice⟩),
          sentence_eq_error_iff.mpr (Or.inr ⟨hspans, hinline, hnotice⟩)⟩
      | ok notice =>
        exact Or.inr ⟨_, _, _,
          (sentence_inline_eq_ok_iff hmarkup).mpr ⟨hspans, notice, hnotice, rfl, rfl⟩,
          (sentence_inline_eq_ok_iff hmarkup').mpr ⟨hspans, notice, hnotice, rfl, rfl⟩,
          rfl, fun _ => rfl⟩
    | none =>
      rcases OutputFormat.markup?_eq_none_iff.mp hmarkup with hformat | hformat
      · have hformat' : (r.shift n).format = .vertical := hformat
        rw [sentence_vertical tokens entities hformat, sentence_vertical tokens entities hformat',
          hspans]
        refine Or.inr ⟨_, _, _, rfl, rfl, ?_, fun h => absurd hformat h⟩
        exact (Event.warnings_map _ _).trans (Event.warnings_map _ _).symm
      · have hformat' : (r.shift n).format = .conll := hformat
        rw [sentence_conll tokens entities hformat, sentence_conll tokens entities hformat', hspans]
        exact Or.inr ⟨_, _, _, rfl, rfl, rfl, fun _ => rfl⟩

/-- Neither do they at the end of the block, but for the counter for the next. -/
theorem finish_shift (n : Nat) (r : Renderer) :
    (r.shift n).finish.1 = r.finish.1 ∧ (r.shift n).finish.2.lines = n + r.finish.2.lines := by
  unfold finish
  cases hformat : r.format with
  | xml => simp [shift, hformat]
  | charSpan => simp [shift, hformat]
  | vertical => simp [shift, hformat, LineCounter.afterBlock, Nat.add_assoc]
  | conll => simp [shift, hformat]

end Renderer

/-- Runs go on in step that begin with different numbers of lines. What they hand to the sink is the
same, but for the numbers in the listing of entities. -/
theorem inStep_shift (config : Config) (n : Nat) :
    InStep config config
      (fun events events' => Event.warnings events' = Event.warnings events ∧
        (config.output ≠ .vertical → events' = events))
      (fun r r' => r.format = config.output ∧ r' = r.shift n)
      (fun counter counter' => counter'.lines = n + counter.lines) where
  input := rfl
  begins := by
    intro counter counter' h block
    refine ⟨rfl, ?_⟩
    rw [Renderer.shift, ← h]
  sentence := by
    rintro r r' ⟨hformat, rfl⟩ tokens entities
    rcases r.sentence_shift n tokens entities with
      ⟨e, hfails, hfails'⟩ | ⟨events, r₁, events', hruns, hruns', hwarnings, hevents⟩
    · exact Or.inl ⟨e, hfails, hfails'⟩
    · have hformat₁ := (Renderer.settings_of_sentence_eq_ok hruns).1
      exact Or.inr ⟨events, r₁, events', r₁.shift n, hruns, hruns',
        ⟨hwarnings, hformat ▸ hevents⟩, hformat₁.trans hformat, rfl⟩
  finish := by
    rintro r r' ⟨-, rfl⟩
    obtain ⟨hevents, hlines⟩ := r.finish_shift n
    exact ⟨⟨by rw [hevents], fun _ => hevents⟩, hlines⟩

/-! ## What is listed -/

/-- The line with greater numbers. -/
def Listing.Row.shift (n : Nat) (row : Row) : Row :=
  { row with numbers := row.numbers.map (n + ·) }

theorem Listing.row_add (n first : Nat) (tokens : Sentence) (e : Entity) :
    row (n + first) tokens e = (row first tokens e).shift n := by
  rw [row, row, Row.shift, List.map_add_range', Nat.add_assoc]

@[simp] theorem Listing.shift_zero : Row.shift 0 = id := by
  funext row
  simp [Row.shift]

theorem Listing.shift_shift (n m : Nat) (row : Row) :
    (row.shift m).shift n = row.shift (n + m) := by
  simp [Row.shift, Function.comp_def, Nat.add_assoc]

namespace Page

open Listing (Row)

variable (f : List Text → Except MarkupError (List Entity))

/-- The first sentences of a block, with what a function of their forms finds in them, up to the
first that cannot be listed: one for which the function fails, or finds something that is no span of
the sentence. -/
def listable : List Sentence → List Finding
  | [] => []
  | tokens :: rest =>
    match f tokens.forms with
    | .error _ => []
    | .ok entities =>
      if entities.all (·.isSpanOf tokens.length) then (tokens, entities) :: listable rest else []

/-- A sentence is listed, and others behind it, if its entities pass the check of spans. -/
theorem listable_cons_of_eq_ok {tokens : Sentence} {rest : List Sentence} {entities : List Entity}
    (h : f tokens.forms = .ok entities) :
    listable f (tokens :: rest) = match Renderer.checkSpans entities tokens.length with
      | .ok () => (tokens, entities) :: listable f rest
      | .error _ => [] := by
  rw [listable, h]
  cases hspans : Renderer.checkSpans entities tokens.length with
  | ok u => exact if_pos (List.all_eq_true.mpr (Renderer.checkSpans_eq_ok_iff.mp hspans))
  | error e =>
    refine if_neg fun hall => ?_
    have hpass : Renderer.checkSpans entities tokens.length = .ok () :=
      Renderer.checkSpans_eq_ok_iff.mpr (List.all_eq_true.mp hall)
    rw [hpass] at hspans
    cases hspans

/-- The pages that are listed: those of the first blocks, up to the first that has a sentence which
cannot be listed. -/
def allListable (input : InputFormat) : List Text → List Page
  | [] => []
  | block :: rest =>
    ⟨block, listable f (input.sentences block)⟩ ::
      if (listable f (input.sentences block)).length = (input.sentences block).length then
        allListable input rest
      else []

theorem map_mapIdx {α β γ : Type} (g : β → γ) (h : Nat → α → β) (xs : List α) :
    (xs.mapIdx h).map g = xs.mapIdx fun i x => g (h i x) := by
  induction xs generalizing h with
  | nil => rfl
  | cons x xs ih => rw [List.mapIdx_cons, List.map_cons, List.mapIdx_cons, ih]

theorem number_append (earlier pages : List Page) (position : Nat) :
    number (earlier ++ pages) position = lines earlier + number pages position := by
  simp only [number, lines_append]
  omega

theorem rows_append (earlier pages : List Page) (page : Page) :
    rows (earlier ++ pages) page = (rows pages page).map (Row.shift (lines earlier)) := by
  have hrow : ∀ s e, row (earlier ++ pages) page s e
      = (row pages page s e).shift (lines earlier) := by
    intro s e
    have hnumbers : (page.positions s e).map (number (earlier ++ pages))
        = ((page.positions s e).map (number pages)).map (lines earlier + ·) := by
      rw [List.map_map]
      exact List.map_congr_left fun position _ => number_append earlier pages position
    rw [row, row, Row.shift, hnumbers]
  rw [rows, rows, List.map_flatten, map_mapIdx]
  refine congrArg List.flatten (List.mapIdx_eq_mapIdx_iff.mpr fun s hs => ?_)
  rw [List.map_map]
  exact List.map_congr_left fun e _ => hrow s e

theorem rows_shift (n : Nat) {page : Page}
    (hspan : ∀ f ∈ page.found, ∀ e ∈ f.2, e.isSpanOf f.1.length = true) :
    (rows [] page).map (Row.shift n) = (page.found.mapIdx fun s g => g.2.map (Listing.row
      (n + ((page.found.take s).map Prod.fst).flatten.length + 1) g.1)).flatten := by
  rw [rows_eq [] hspan, List.map_flatten, map_mapIdx]
  refine congrArg List.flatten (List.mapIdx_eq_mapIdx_iff.mpr fun s hs => ?_)
  rw [List.map_map]
  refine List.map_congr_left fun e _ => ?_
  rw [Function.comp_apply, ← Listing.row_add]
  congr 1
  simp [number, offset, lines, Nat.add_assoc]

/-- **The listing of pages** is that of the first, and that of the others with the numbers that
follow. -/
theorem listing_cons (page : Page) (rest : List Page) :
    listing (page :: rest) = rows [] page ++ (listing rest).map (Row.shift (lines [page])) := by
  rw [listing, listing, List.mapIdx_cons, List.flatten_cons, List.take_zero, List.map_flatten,
    map_mapIdx]
  congr 2
  exact List.mapIdx_eq_mapIdx_iff.mpr fun i hi => rows_append [page] (rest.take i) rest[i]

end Page

/-! ## What a run that lists entities writes -/

namespace Recognizer

open Listing (Row)

variable {σ : Type} {r : Recognizer σ} {f : List Text → Except MarkupError (List Entity)}

/-- The sentences that can be listed are rendered, and the block goes on if they are all. -/
theorem sentencesCourse_vertical (hpure : ∀ s forms, (r.recognize s forms).1 = f forms)
    {renderer : Renderer} (hformat : renderer.format = .vertical) (sentences : List Sentence)
    (state : σ) (stats : Stats) :
    ∃ renderer', renderer.sentences (Page.listable f sentences)
        = .ok ((r.sentencesCourse renderer sentences state stats).events, renderer') ∧
      ((Page.listable f sentences).length = sentences.length ∧
          (∃ s, (r.sentencesCourse renderer sentences state stats).ending
            = (.ok renderer', s, stats.addFindings (Page.listable f sentences))) ∨
        (Page.listable f sentences).length ≠ sentences.length ∧
          ∃ e s t, (r.sentencesCourse renderer sentences state stats).ending
            = (.error e, s, t)) := by
  induction sentences generalizing renderer state stats with
  | nil => exact ⟨renderer, rfl, Or.inl ⟨rfl, state, rfl⟩⟩
  | cons tokens rest ih =>
    have hanswer := hpure state tokens.forms
    unfold sentencesCourse
    cases hrecognize : r.recognize state tokens.forms with
    | mk answer state₁ =>
      rw [hrecognize] at hanswer
      cases answer with
      | error e =>
        have hnone : Page.listable f (tokens :: rest) = [] := by
          rw [Page.listable, ← hanswer]
        rw [hnone]
        exact ⟨renderer, rfl, Or.inr ⟨Nat.noConfusion, e, state₁, stats, rfl⟩⟩
      | ok entities =>
        simp only
        rw [Renderer.sentence_vertical tokens entities hformat,
          Page.listable_cons_of_eq_ok f hanswer.symm]
        cases hspans : Renderer.checkSpans entities tokens.length with
        | error e => exact ⟨renderer, rfl, Or.inr ⟨Nat.noConfusion, e, state₁, _, rfl⟩⟩
        | ok u =>
          have hformat' : Renderer.format { renderer with seen := renderer.seen + tokens.length }
              = .vertical := hformat
          obtain ⟨renderer', hmore, hending⟩ :=
            ih hformat' state₁ (stats.addSentence tokens entities)
          refine ⟨renderer', ?_, ?_⟩
          · refine Renderer.sentences_cons_eq_ok_iff.mpr ⟨_, _, _, ?_, hmore, rfl⟩
            rw [Renderer.sentence_vertical tokens entities hformat, hspans]
            rfl
          · rcases hending with ⟨hlength, hok⟩ | ⟨hlength, hfails⟩
            · exact Or.inl ⟨congrArg Nat.succ hlength, hok⟩
            · exact Or.inr ⟨fun h => hlength (Nat.succ.inj h), hfails⟩

variable (input : InputFormat) (policy : CrossingPolicy)

/-- A block is listed with the numbers that follow the lines before it, and the run goes on behind
it if all of its sentences can be listed. -/
theorem blockCourse_vertical (hpure : ∀ s forms, (r.recognize s forms).1 = f forms) (n : Nat)
    (block : Text) (state : σ) (stats : Stats) :
    let page : Page := ⟨block, Page.listable f (input.sentences block)⟩
    let c := r.blockCourse ⟨input, .vertical, policy⟩ ⟨n⟩ block state stats
    c.events = ((Page.rows [] page).map (Row.shift n)).map (fun row => .write row.text) ∧
      (page.found.length = (input.sentences block).length ∧
          (∃ s, c.ending = (.ok ⟨n + Page.lines [page]⟩, s,
            (stats.addFindings page.found).addBlock)) ∨
        page.found.length ≠ (input.sentences block).length ∧
          ∃ e s t, c.ending = (.error e, s, t)) := by
  intro page c
  let renderer : Renderer := ⟨.vertical, policy, block, ⟨n⟩, 0, 0⟩
  have hformat : renderer.format = .vertical := rfl
  obtain ⟨renderer', hsentences, hending⟩ :=
    sentencesCourse_vertical hpure hformat (input.sentences block) state stats
  obtain ⟨hspans, hrenderer, hevents⟩ := Renderer.sentences_vertical hformat hsentences
  have hrows : ((Page.rows [] page).map (Row.shift n)).map (fun row => .write row.text)
      = (r.sentencesCourse renderer (input.sentences block) state stats).events := by
    rw [Page.rows_shift n hspans]
    exact hevents.symm
  rw [hrows]
  rcases hending with ⟨hall, s, hok⟩ | ⟨hnot, e, s, t, hfails⟩
  · obtain ⟨hending', hevents'⟩ := Course.andThen_of_ok hok fun renderer state stats =>
      Course.turn renderer.finish.1 state stats.addBlock
        (.ends (.ok renderer.finish.2) state stats.addBlock)
    subst hrenderer
    refine ⟨hevents'.trans (List.append_nil _), Or.inl ⟨hall, s, hending'.trans ?_⟩⟩
    simp [Course.ending, Renderer.finish, renderer, LineCounter.afterBlock, Page.lines_singleton,
      Page.tokens, page, Nat.add_assoc]
  · obtain ⟨hending', hevents'⟩ := Course.andThen_of_error hfails fun renderer state stats =>
      Course.turn renderer.finish.1 state stats.addBlock
        (.ends (.ok renderer.finish.2) state stats.addBlock)
    exact ⟨hevents', Or.inr ⟨hnot, e, s, t, hending'⟩⟩

/-- **What a run that lists entities writes**, wherever its numbers begin: the listing of all pages
that can be listed. -/
theorem events_itemsCourse_vertical (hpure : ∀ s forms, (r.recognize s forms).1 = f forms) (n : Nat)
    (blocks : List Text) (state : σ) (stats : Stats) :
    (r.itemsCourse ⟨input, .vertical, policy⟩ ⟨n⟩ (blocks.map .block) state stats).events
      = ((Page.listing (Page.allListable f input blocks)).map (Row.shift n)).map
        fun row => .write row.text := by
  induction blocks generalizing n state stats with
  | nil => rfl
  | cons block rest ih =>
    obtain ⟨hevents, hending⟩ := blockCourse_vertical input policy hpure n block state stats
    rw [List.map_cons, itemsCourse, Page.allListable, Page.listing_cons, List.map_append,
      List.map_append]
    rcases hending with ⟨hall, s, hok⟩ | ⟨hnot, e, s, t, hfails⟩
    · have hshift : (Page.listing (Page.allListable f input rest)).map
            (Row.shift (n + Page.lines [⟨block, Page.listable f (input.sentences block)⟩]))
          = ((Page.listing (Page.allListable f input rest)).map (Row.shift
              (Page.lines [⟨block, Page.listable f (input.sentences block)⟩]))).map
                (Row.shift n) := by
        rw [List.map_map]
        exact List.map_congr_left fun row _ => (Listing.shift_shift n _ row).symm
      rw [(Course.andThen_of_ok hok _).2, hevents, ih, if_pos hall, hshift]
    · rw [(Course.andThen_of_error hfails _).2, hevents, if_neg hnot]
      simp [Page.listing]

/-- **Where the numbers stand behind some blocks**: they have grown by one for each token and each
block that has been counted. -/
theorem lines_of_blocksCourse (hpure : ∀ s forms, (r.recognize s forms).1 = f forms)
    {blocks : List Text} {counter counter' : LineCounter} {state state' : σ} {stats stats' : Stats}
    (h : (r.blocksCourse ⟨input, .vertical, policy⟩ counter blocks state stats).ending
      = (.ok counter', state', stats')) :
    counter'.lines + (stats.tokens + stats.blocks)
      = counter.lines + (stats'.tokens + stats'.blocks) := by
  induction blocks generalizing counter state stats with
  | nil =>
    cases h
    rfl
  | cons block rest ih =>
    obtain ⟨-, hending⟩ := blockCourse_vertical input policy hpure counter.lines block state stats
    rw [blocksCourse] at h
    rcases hending with ⟨-, s, hok⟩ | ⟨-, e, s, t, hfails⟩
    · rw [(Course.andThen_of_ok hok _).1] at h
      have hrest := ih h
      rw [Stats.addFindings_eq, Page.lines_singleton, Page.tokens, ← List.flatMap_def] at hrest
      simp only [Stats.addBlock] at hrest
      omega
    · rw [(Course.andThen_of_error hfails _).1] at h
      cases h

/-! ## Two parts of a text -/

/-- The course over a text that comes behind others. -/
def textCourse (r : Recognizer σ) (config : Config) (counter : LineCounter) (text : Text)
    (state : σ) (stats : Stats) : Course σ Stats :=
  (r.itemsCourse config counter ((Block.ofText text).map .block) state stats).andThen
    fun _ state stats => .ends (.ok stats) state stats

theorem course_utf8 (config : Config) (text : Text) (state : σ) :
    r.course config text.utf8 state = r.textCourse config {} text state {} := by
  rw [course, Block.items_utf8, textCourse]

theorem process_new (config : Config) (text : Text) (state : σ) :
    r.process config text.utf8 state {} = ((r.textCourse config {} text state {}).ending.1,
      ⟨(r.textCourse config {} text state {}).ending.2.1,
        Sink.record {} (r.textCourse config {} text state {}).events,
        (r.textCourse config {} text state {}).ending.2.2⟩) := by
  have hroom : ({} : Sink).room = none := rfl
  rw [← Course.play_of_room_none _ hroom, ← course_utf8, ← process_eq_play]

/-- **A text that is put together behind a blank line**: the run on its first part fails, and
nothing that follows makes a difference, or the run goes on from it behind the counted lines. -/
theorem textCourse_append (hpure : ∀ s forms, (r.recognize s forms).1 = f forms) (config : Config)
    {x : Text} (hx : Block.EndsBlank x) (y : Text) (state : σ) :
    (∃ e s t, (r.textCourse config {} x state {}).ending = (.error e, s, t) ∧
        (r.textCourse config {} (x ++ y) state {}).ending = (.error e, s, t) ∧
        (r.textCourse config {} (x ++ y) state {}).events
          = (r.textCourse config {} x state {}).events) ∨
      ∃ counter s t, (r.textCourse config {} x state {}).ending = (.ok t, s, t) ∧
        (r.textCourse config {} (x ++ y) state {}).ending
          = (r.textCourse config counter y s t).ending ∧
        (r.textCourse config {} (x ++ y) state {}).events
          = (r.textCourse config {} x state {}).events
            ++ (r.textCourse config counter y s t).events ∧
        (config.output = .vertical → counter.lines = t.tokens + t.blocks) := by
  have hwhole : r.textCourse config {} (x ++ y) state {}
      = (r.blocksCourse config {} (Block.ofText x) state {}).andThen fun counter state stats =>
        r.textCourse config counter y state stats := by
    rw [textCourse, Block.ofText_append hx, List.map_append, itemsCourse_append,
      Course.andThen_assoc]
    rfl
  have hfirst : r.textCourse config {} x state {}
      = (r.blocksCourse config {} (Block.ofText x) state {}).andThen fun _ state stats =>
        .ends (.ok stats) state stats := by
    have hitems := r.itemsCourse_append config {} (Block.ofText x) [] state {}
    rw [List.append_nil] at hitems
    rw [textCourse, hitems, Course.andThen_assoc]
    rfl
  cases hend : (r.blocksCourse config {} (Block.ofText x) state {}).ending with
  | mk result rest =>
    obtain ⟨s, t⟩ := rest
    cases result with
    | error e =>
      rw [hwhole, hfirst, (Course.andThen_of_error hend _).1, (Course.andThen_of_error hend _).1,
        (Course.andThen_of_error hend _).2, (Course.andThen_of_error hend _).2]
      exact Or.inl ⟨e, s, t, rfl, rfl, rfl⟩
    | ok counter =>
      rw [hwhole, hfirst, (Course.andThen_of_ok hend _).1, (Course.andThen_of_ok hend _).1,
        (Course.andThen_of_ok hend _).2, (Course.andThen_of_ok hend _).2]
      refine Or.inr ⟨counter, s, t, rfl, rfl, by simp, fun hlisting => ?_⟩
      obtain ⟨input, output, policy⟩ := config
      obtain rfl : output = .vertical := hlisting
      simpa using lines_of_blocksCourse input policy hpure hend

/-- A text that comes behind others is processed as if it did not, but for the counts and the
numbers in the listing of entities. -/
theorem textCourse_shift (hpure : ∀ s forms, (r.recognize s forms).1 = f forms) (config : Config)
    (counter : LineCounter) (text : Text) (state state' : σ) (ahead : Stats) :
    (r.textCourse config counter text state' ahead).ending.1
        = (r.textCourse config {} text state {}).ending.1.map (ahead + ·) ∧
      (r.textCourse config counter text state' ahead).ending.2.2
        = ahead + (r.textCourse config {} text state {}).ending.2.2 ∧
      Event.warnings (r.textCourse config counter text state' ahead).events
        = Event.warnings (r.textCourse config {} text state {}).events ∧
      (config.output ≠ .vertical → (r.textCourse config counter text state' ahead).events
        = (r.textCourse config {} text state {}).events) := by
  have hcounter : counter.lines = counter.lines + ({} : LineCounter).lines := rfl
  have halike := (inStep_shift config counter.lines).statsCourse hpure hcounter
    ((Block.ofText text).map .block) ahead state state' {}
  rw [Stats.add_empty, ← textCourse, ← textCourse] at halike
  obtain ⟨hstats, hresults⟩ := halike.ending
  refine ⟨?_, hstats, halike.events ⟨rfl, fun _ => rfl⟩ ?_⟩
  · rcases hresults with ⟨e, hfails, hfails'⟩ | ⟨a, b, hruns, hruns', rfl⟩
    · rw [hfails, hfails']
      rfl
    · rw [hruns, hruns']
      rfl
  · rintro xs xs' ys ys' ⟨hxs, hxs'⟩ ⟨hys, hys'⟩
    refine ⟨?_, fun hne => ?_⟩
    · rw [Event.warnings_append, Event.warnings_append, hxs, hys]
    · rw [hxs' hne, hys' hne]

/-- What is written in the listing of a text that comes behind others. -/
theorem written_textCourse_vertical (hpure : ∀ s forms, (r.recognize s forms).1 = f forms)
    (n : Nat) (text : Text) (state : σ) (stats : Stats) :
    Event.written (r.textCourse ⟨input, .vertical, policy⟩ ⟨n⟩ text state stats).events
      = ((Page.listing (Page.allListable f input (Block.ofText text))).map (Row.shift n)).flatMap
        Row.text := by
  rw [textCourse, Course.events_andThen_of_nil _ fun _ _ _ => rfl,
    events_itemsCourse_vertical input policy hpure, Event.written_map]

/-- **Processing is local to blocks**: where the answers of the recognizer depend on the forms only,
a text that ends with a blank line, or holds nothing, is processed apart from what follows. If the
run on it fails, nothing that follows makes a difference. If it succeeds, the run on the whole text
reports and counts what the runs on the two parts do, ends as the run on the second does, and has
written what they have; in the listing of entities, the numbers of the second part are greater by as
many tokens and blocks as there are in the first. -/
theorem process_append (r : Recognizer σ) (hpure : ∀ s forms, (r.recognize s forms).1 = f forms)
    (config : Config) {x : Text} (hx : Block.EndsBlank x) (y : Text) (state : σ) :
    let run := fun text : Text => r.process config text.utf8 state {}
    (∀ e, (run x).1 = .error e → run (x ++ y) = run x) ∧
    ∀ sx, (run x).1 = .ok sx →
      (run (x ++ y)).1 = (run y).1.map (sx + ·) ∧
      (run (x ++ y)).2.stats = sx + (run y).2.stats ∧
      (run (x ++ y)).2.sink.warnings = (run x).2.sink.warnings ++ (run y).2.sink.warnings ∧
      (config.output ≠ .vertical →
        (run (x ++ y)).2.sink.written = (run x).2.sink.written ++ (run y).2.sink.written) ∧
      (config.output = .vertical →
        let rows := Page.listing (Page.allListable f config.input (Block.ofText y))
        (run y).2.sink.written.toList = Text.utf8 (rows.flatMap Row.text) ∧
        (run (x ++ y)).2.sink.written.toList = (run x).2.sink.written.toList
          ++ Text.utf8 ((rows.map (Row.shift (sx.tokens + sx.blocks))).flatMap Row.text)) := by
  intro run
  rcases r.textCourse_append hpure config hx y state with
    ⟨e, s, t, hfirst, hwhole, hevents⟩ | ⟨counter, s, t, hfirst, hwhole, hevents, hlines⟩
  · have hsame : run (x ++ y) = run x := by
      simp only [run, process_new, hfirst, hwhole, hevents]
    refine ⟨fun _ _ => hsame, fun sx hok => ?_⟩
    simp only [run, process_new, hfirst] at hok
    cases hok
  · obtain ⟨hresult, hstats, hwarnings, hsame⟩ :=
      textCourse_shift hpure config counter y state s t
    refine ⟨fun e hfails => ?_, fun sx hok => ?_⟩
    · simp only [run, process_new, hfirst] at hfails
      cases hfails
    simp only [run, process_new, hfirst] at hok
    obtain rfl : t = sx := Except.ok.inj hok
    simp only [run, process_new, hwhole, hevents]
    refine ⟨hresult, hstats, ?_, fun hne => ?_, fun hlisting => ?_⟩
    · simp [Sink.record, hwarnings]
    · simp [Sink.record, hsame hne]
    · rw [← hlines hlisting]
      obtain ⟨input, output, policy⟩ := config
      obtain rfl : output = .vertical := hlisting
      have hsecond := written_textCourse_vertical input policy hpure 0 y state {}
      have hrest := written_textCourse_vertical input policy hpure counter.lines y s t
      refine ⟨?_, ?_⟩
      · simp [Sink.record, hsecond]
      · simp [Sink.record, hrest]

/-- So it is with a listing, where the first part takes three lines and the second has two
blocks. -/
theorem process_append_listing :
    let r : Recognizer Unit :=
      ofFunction (fun _ forms => .ok [⟨0, forms.length, "PER"⟩]) fun _ => []
    let config : Config := ⟨.vertical, .vertical, .warn⟩
    let x : Text := "a\nb\n\r\n".toList
    let y : Text := "c\n\nd".toList
    let rows : List Row := [⟨[1], "PER", [['c']]⟩, ⟨[3], "PER", [['d']]⟩]
    Block.EndsBlank x ∧ (r.process config x.utf8 () {}).1 = .ok ⟨1, 1, 2, 1⟩ ∧
      (r.process config (x ++ y).utf8 () {}).1 = .ok ⟨3, 3, 4, 3⟩ ∧
      (r.process config y.utf8 () {}).2.sink.written.toList = Text.utf8 (rows.flatMap Row.text) ∧
      (r.process config (x ++ y).utf8 () {}).2.sink.written.toList
        = Text.utf8 "1, 2\tPER\tab\n".toList
          ++ Text.utf8 ((rows.map (Row.shift 3)).flatMap Row.text) := by
  intro r config x y rows
  have hblank : Block.EndsBlank x := Or.inr ⟨['\r', '\n'], by decide +kernel, by decide, by decide⟩
  have hpure : ∀ s forms, (r.recognize s forms).1 = .ok [⟨0, forms.length, "PER"⟩] :=
    fun _ _ => rfl
  have hfirst : (r.process config x.utf8 () {}).1 = .ok ⟨1, 1, 2, 1⟩ := by decide +kernel
  have hsecond : (r.process config y.utf8 () {}).1 = .ok ⟨2, 2, 2, 2⟩ := by decide +kernel
  have hwritten : (r.process config x.utf8 () {}).2.sink.written.toList
      = Text.utf8 "1, 2\tPER\tab\n".toList := by decide +kernel
  have hrows : Page.listing (Page.allListable (fun forms => .ok [⟨0, forms.length, "PER"⟩])
      config.input (Block.ofText y)) = rows := by decide +kernel
  obtain ⟨-, happend⟩ := process_append r hpure config hblank y ()
  obtain ⟨hresult, -, -, -, hlisting⟩ := happend ⟨1, 1, 2, 1⟩ hfirst
  obtain ⟨hlisted, hrest⟩ := hlisting rfl
  rw [hsecond] at hresult
  rw [hrows] at hlisted
  rw [hwritten, hrows] at hrest
  exact ⟨hblank, hfirst, hresult, hlisted, hrest⟩

end Recognizer

end EntityMarkup
