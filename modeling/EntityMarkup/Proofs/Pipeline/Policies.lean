import EntityMarkup.Proofs.Pipeline.Course
import EntityMarkup.Proofs.Render.Rejection
import EntityMarkup.Proofs.Render.Unclosed

/-!
# Rejecting crossing entities, and reporting them

The two policies on crossing entities make a difference to the first sentence that has some, and to
nothing before it. There the one policy reports a crossing pair before anything of the sentence is
written, and the other fails with the same pair. So a run that reports nothing is also the run that
rejects, and one that reports something shows how far the other gets.

`UpToWarning` says this of the courses of two runs; it is kept when courses are put one after the
other, and what it means on a sink is found by induction on it.

* `warnings_markup`: no warning comes from the markup where no entities cross.
* `sentence_rejecting_of_error`, `sentence_rejecting_of_ok`: a sentence under both policies.
* `UpToWarning.andThen`, `upToWarning_course`: the courses of two runs.
* `UpToWarning.play`: two such runs on a sink.
* **`process_reject_of_warn`**: the run that rejects crossing entities, from the one that reports
  them.
-/

namespace EntityMarkup

/-! ## Sentences -/

namespace Renderer

variable {r r' : Renderer} {tokens : Sentence} {entities : List Entity} {events : List Event}
  {error : MarkupError}

/-- The renderer that rejects crossing entities. -/
def rejecting (r : Renderer) : Renderer :=
  { r with crossing := .reject }

/-- Markup is a reason to report something only where entities cross. -/
theorem warnings_markup {format : OutputFormat}
    {markup : Text → Nat → Sentence → List Entity → List Event × Nat}
    (hmarkup : format.markup? = some markup) (block : Text) (cursor : Nat)
    (hspans : checkSpans entities tokens.length = .ok ())
    (hnone : Entity.firstCrossing? (Entity.sort entities) = none) :
    Event.warnings (markup block cursor tokens (Entity.sort entities)).1 = [] := by
  cases format with
  | xml =>
    obtain rfl := Option.some.inj hmarkup
    have hclosed : (Nested.sentence block cursor tokens (Entity.sort entities)).opened = [] := by
      by_contra hopen
      obtain ⟨a, ha, b, hb, hcross⟩ :=
        (Nested.opened_sentence_ne_nil_iff (checkSpans_eq_ok_iff.mp hspans)).mp hopen
      rw [Entity.firstCrossing?_sort_eq_none_iff.mp hnone a ha b hb] at hcross
      cases hcross
    rw [Nested.warnings_render, if_pos hclosed]
  | charSpan =>
    obtain rfl := Option.some.inj hmarkup
    exact Event.warnings_map_write _
  | vertical => cases hmarkup
  | conll => cases hmarkup

/-- A sentence that fails where crossing entities are reported fails where they are rejected. -/
theorem sentence_rejecting_of_error (hcrossing : r.crossing = .warn)
    (h : r.sentence tokens entities = .error error) :
    r.rejecting.sentence tokens entities = .error error := by
  refine sentence_eq_error_iff.mpr ?_
  rcases sentence_eq_error_iff.mp h with h | ⟨-, -, h⟩
  · exact Or.inl h
  · obtain ⟨hpolicy, -⟩ := checkCrossing_eq_error_iff.mp h
    rw [hcrossing] at hpolicy
    cases hpolicy

/-- **A sentence under both policies**: where crossing entities are reported and it does not fail,
either nothing is reported, and it is the same where they are rejected, or a crossing pair is the
first that is reported, before anything is written, and is an error where they are rejected. -/
theorem sentence_rejecting_of_ok (hcrossing : r.crossing = .warn)
    (h : r.sentence tokens entities = .ok (events, r')) :
    Event.warnings events = [] ∧
        r.rejecting.sentence tokens entities = .ok (events, r'.rejecting) ∨
      r.format.markup?.isSome = true ∧ ∃ a b more, events = .warn (.crossingSpans a b) :: more ∧
        r.rejecting.sentence tokens entities = .error (.crossingSpans a b) := by
  cases hmarkup : r.format.markup? with
  | none =>
    obtain ⟨listed, seen, hwarnings, hsentence⟩ := sentence_listed hmarkup tokens entities
    have hreporting : r.sentence tokens entities = _ := hsentence r.crossing
    have hrejecting : r.rejecting.sentence tokens entities = _ := hsentence .reject
    rw [hreporting] at h
    obtain ⟨u, hspans, h⟩ := bind_eq_ok_iff.mp h
    cases h
    refine Or.inl ⟨hwarnings, ?_⟩
    rw [hrejecting, hspans]
    rfl
  | some markup =>
    obtain ⟨hspans, notice, hnotice, rfl, rfl⟩ := (sentence_inline_eq_ok_iff hmarkup).mp h
    have hmarkup' : r.rejecting.format.markup? = some markup := hmarkup
    rw [hcrossing, checkCrossing_warn] at hnotice
    obtain rfl := Except.ok.inj hnotice
    cases hpair : Entity.firstCrossing? (Entity.sort entities) with
    | none =>
      refine Or.inl ⟨warnings_markup hmarkup r.block r.cursor hspans hpair, ?_⟩
      exact (sentence_inline_eq_ok_iff hmarkup').mpr
        ⟨hspans, [], checkCrossing_of_none hpair, rfl, rfl⟩
    | some pair =>
      refine Or.inr ⟨rfl, pair.1, pair.2, _, rfl, sentence_eq_error_iff.mpr (Or.inr ?_)⟩
      rw [hmarkup']
      exact ⟨hspans, rfl, checkCrossing_eq_error_iff.mpr ⟨rfl, pair.1, pair.2, hpair, rfl⟩⟩

end Renderer

/-! ## Courses -/

/-- The second course is the first up to where the first reports something for the first time; there
it reports a crossing pair, before it writes anything in that turn, and the second fails with that
pair. Results go over from the first to the second by a function. -/
inductive UpToWarning {σ α β : Type} (format : OutputFormat) (f : α → β) :
    Course σ α → Course σ β → Prop
  | ends (result : Except MarkupError α) (state : σ) (stats : Stats) :
      UpToWarning format f (.ends result state stats) (.ends (result.map f) state stats)
  | turn {events : List Event} {state : σ} {stats : Stats} {c : Course σ α} {d : Course σ β} :
      Event.warnings events = [] → UpToWarning format f c d →
      UpToWarning format f (.turn events state stats c) (.turn events state stats d)
  | stops {a b : Entity} {more : List Event} {state : σ} {stats : Stats} {rest : Course σ α} :
      format.markup?.isSome = true →
      UpToWarning format f (.turn (.warn (.crossingSpans a b) :: more) state stats rest)
        (.ends (.error (.crossingSpans a b)) state stats)

theorem UpToWarning.andThen {σ α β α' β' : Type} {format : OutputFormat} {f : α → β} {g : α' → β'}
    {c : Course σ α} {d : Course σ β} (h : UpToWarning format f c d)
    {next : α → σ → Stats → Course σ α'} {next' : β → σ → Stats → Course σ β'}
    (hnext : ∀ a state stats, UpToWarning format g (next a state stats)
      (next' (f a) state stats)) :
    UpToWarning format g (c.andThen next) (d.andThen next') := by
  induction h with
  | ends result state stats =>
    cases result with
    | ok a => exact hnext a state stats
    | error e => exact .ends (.error e) state stats
  | turn hwarnings _ ih => exact .turn hwarnings ih
  | stops hformat => exact .stops hformat

/-! ## Runs on a sink -/

/-- Of two runs on a sink, the first reports a crossing pair, and before that nothing. The second
fails with that pair and reports nothing; it has written what was handed to the sink in the turns
before the one that begins with the warning, and the first has gone on from there. -/
structure StopsAtWarning {σ α : Type} (turns : List (List Event)) (sink : Sink)
    (reporting rejecting : Except MarkupError α × Progress σ) (a b : Entity) : Prop where
  exists_before : ∃ before more after,
    turns = before ++ (.warn (.crossingSpans a b) :: more) :: after ∧
    Event.warnings before.flatten = [] ∧
    rejecting.2.sink.written = sink.written ++ (Event.written before.flatten).utf8
  result : rejecting.1 = .error (.crossingSpans a b)
  warnings : rejecting.2.sink.warnings = sink.warnings
  exists_reported : ∃ reported : List Warning,
    reporting.2.sink.warnings = sink.warnings ++ .crossingSpans a b :: reported
  exists_bytes : ∃ bytes : Bytes, reporting.2.sink.written = rejecting.2.sink.written ++ bytes

namespace StopsAtWarning

variable {σ α : Type} {turns : List (List Event)} {events : List Event} {sink sink' : Sink}
  {reporting rejecting : Except MarkupError α × Progress σ} {a b : Entity}

/-- A turn before, which reports nothing, makes no difference but for what it writes. -/
theorem turn (h : StopsAtWarning turns sink' reporting rejecting a b)
    (hwarnings : Event.warnings events = []) (haccept : sink.acceptAll events = (sink', true)) :
    StopsAtWarning (events :: turns) sink reporting rejecting a b := by
  have hwritten := (Sink.of_acceptAll_eq_true haccept).1
  have hkept := Sink.warnings_acceptAll hwarnings sink
  rw [haccept] at hkept
  refine ⟨?_, h.result, hkept ▸ h.warnings, hkept ▸ h.exists_reported, h.exists_bytes⟩
  obtain ⟨before, more, after, hturns, hbefore, hrejecting⟩ := h.exists_before
  refine ⟨events :: before, more, after, ?_, ?_, ?_⟩
  · rw [hturns, List.cons_append]
  · rw [List.flatten_cons, Event.warnings_append, hwarnings, hbefore, List.append_nil]
  · rw [hrejecting, hwritten, List.flatten_cons, Event.written_append, Text.utf8_append]
    simp [← Array.toList_inj]

theorem reporting_ne (h : StopsAtWarning turns sink reporting rejecting a b) :
    reporting.2.sink.warnings ≠ sink.warnings := by
  obtain ⟨reported, hreported⟩ := h.exists_reported
  intro hnone
  have hlength := congrArg (·.toList.length) (hreported.symm.trans hnone)
  simp at hlength

end StopsAtWarning

/-- **What the courses come to on a sink.** If the first run reports nothing, the second is the same
run. Otherwise the second stops where the first reports something. -/
theorem UpToWarning.play {σ α : Type} {format : OutputFormat} {c d : Course σ α}
    (h : UpToWarning format id c d) (sink : Sink) :
    (c.play sink).2.sink.warnings = sink.warnings ∧ d.play sink = c.play sink ∨
      format.markup?.isSome = true ∧
        ∃ a b, StopsAtWarning c.turns sink (c.play sink) (d.play sink) a b := by
  induction h generalizing sink with
  | ends result state stats => exact Or.inl ⟨rfl, by cases result <;> rfl⟩
  | @turn events state stats c d hwarnings _ ih =>
    have hkept := Sink.warnings_acceptAll hwarnings sink
    unfold Course.play
    cases haccept : sink.acceptAll events with
    | mk sink' complete =>
      rw [haccept] at hkept
      cases complete with
      | false => exact Or.inl ⟨hkept, rfl⟩
      | true =>
        rcases ih sink' with ⟨hnone, hsame⟩ | ⟨hformat, a, b, hstops⟩
        · exact Or.inl ⟨hnone.trans hkept, hsame⟩
        · exact Or.inr ⟨hformat, a, b, hstops.turn hwarnings haccept⟩
  | @stops a b more state stats rest hformat =>
    -- the sink is handed the warning before the rest of the turn
    obtain ⟨bytes, reported, hwritten, hwarnings⟩ :=
      (Course.turn more state stats rest).exists_play
        { sink with warnings := sink.warnings.push (.crossingSpans a b) }
    exact Or.inr ⟨hformat, a, b,
      { exists_before := ⟨[], more, rest.turns, rfl, rfl, by simp [Course.play, Event.written]⟩
        result := rfl
        warnings := rfl
        exists_reported := ⟨reported, hwarnings.trans (by simp)⟩
        exists_bytes := ⟨bytes, hwritten⟩ }⟩

/-! ## The two policies -/

namespace Recognizer

variable {σ : Type} (r : Recognizer σ)

theorem upToWarning_sentencesCourse {renderer : Renderer} (hcrossing : renderer.crossing = .warn)
    (sentences : List Sentence) (state : σ) (stats : Stats) :
    UpToWarning renderer.format Renderer.rejecting
      (r.sentencesCourse renderer sentences state stats)
      (r.sentencesCourse renderer.rejecting sentences state stats) := by
  induction sentences generalizing renderer state stats with
  | nil => exact .ends (.ok renderer) state stats
  | cons tokens rest ih =>
    rw [sentencesCourse, sentencesCourse]
    cases r.recognize state tokens.forms with
    | mk answer state =>
      cases answer with
      | error e => exact .ends (.error e) state stats
      | ok entities =>
        simp only
        cases hsentence : renderer.sentence tokens entities with
        | error e =>
          rw [Renderer.sentence_rejecting_of_error hcrossing hsentence]
          exact .ends (.error e) state _
        | ok rendered =>
          obtain ⟨events, renderer'⟩ := rendered
          obtain ⟨hformat', hcrossing'⟩ := Renderer.settings_of_sentence_eq_ok hsentence
          rcases Renderer.sentence_rejecting_of_ok hcrossing hsentence with
            ⟨hwarnings, hreject⟩ | ⟨hformat, a, b, more, rfl, hreject⟩
          · rw [hreject]
            exact .turn hwarnings (hformat' ▸ ih (hcrossing'.trans hcrossing) state _)
          · rw [hreject]
            exact .stops hformat

variable (input : InputFormat) (output : OutputFormat)

theorem upToWarning_blockCourse (counter : LineCounter) (block : Text) (state : σ)
    (stats : Stats) :
    UpToWarning output id (r.blockCourse ⟨input, output, .warn⟩ counter block state stats)
      (r.blockCourse ⟨input, output, .reject⟩ counter block state stats) := by
  let renderer : Renderer := ⟨output, .warn, block, counter, 0, 0⟩
  have hcrossing : renderer.crossing = .warn := rfl
  refine (r.upToWarning_sentencesCourse hcrossing (input.sentences block) state stats).andThen
    fun renderer state stats => ?_
  exact .turn renderer.warnings_finish (.ends (.ok renderer.finish.2) state stats.addBlock)

theorem upToWarning_itemsCourse (counter : LineCounter) (items : List Block.Item) (state : σ)
    (stats : Stats) :
    UpToWarning output id (r.itemsCourse ⟨input, output, .warn⟩ counter items state stats)
      (r.itemsCourse ⟨input, output, .reject⟩ counter items state stats) := by
  induction items generalizing counter state stats with
  | nil => exact .ends (.ok ()) state stats
  | cons item rest ih =>
    cases item with
    | unreadable => exact .ends (.error (.io .unreadable)) state stats
    | block block =>
      exact (r.upToWarning_blockCourse input output counter block state stats).andThen
        fun counter state stats => ih counter state stats

theorem upToWarning_course (bytes : Bytes) (state : σ) :
    UpToWarning output id (r.course ⟨input, output, .warn⟩ bytes state)
      (r.course ⟨input, output, .reject⟩ bytes state) :=
  (r.upToWarning_itemsCourse input output {} (Block.items bytes) state {}).andThen
    fun _ state stats => .ends (.ok stats) state stats

/-- **Rejecting crossing entities refines reporting them**, for any recognizer, input and sink. If
the run that reports them reports nothing, the run that rejects them is the same. Otherwise the
format is an inline one, and the run that rejects them stops where the other reports a pair: it
fails with that pair, reports nothing, and has written nothing of that sentence. -/
theorem process_reject_of_warn (bytes : Bytes) (state : σ) (sink : Sink) :
    let course := r.course ⟨input, output, .warn⟩ bytes state
    let reporting := r.process ⟨input, output, .warn⟩ bytes state sink
    let rejecting := r.process ⟨input, output, .reject⟩ bytes state sink
    reporting = course.play sink ∧
      (reporting.2.sink.warnings = sink.warnings → rejecting = reporting) ∧
      (reporting.2.sink.warnings ≠ sink.warnings →
        (output = .xml ∨ output = .charSpan) ∧
          ∃ a b, StopsAtWarning course.turns sink reporting rejecting a b) := by
  intro course reporting rejecting
  have hreporting : reporting = course.play sink := r.process_eq_play _ bytes state sink
  have hrejecting : rejecting = (r.course ⟨input, output, .reject⟩ bytes state).play sink :=
    r.process_eq_play _ bytes state sink
  refine ⟨hreporting, ?_⟩
  rw [hreporting, hrejecting]
  rcases (r.upToWarning_course input output bytes state).play sink with
    ⟨hnone, hsame⟩ | ⟨hformat, a, b, hstops⟩
  · exact ⟨fun _ => hsame, fun h => absurd hnone h⟩
  · exact ⟨fun h => absurd h hstops.reporting_ne,
      fun _ => ⟨OutputFormat.isSome_markup?_iff.mp hformat, a, b, hstops⟩⟩

/-- So it is where the entities of the second block cross. -/
theorem process_reject_of_warn_second :
    let r : Recognizer Unit := ofFunction
      (fun _ forms => .ok (if forms.length = 3 then [⟨0, 2, "A"⟩, ⟨1, 2, "B"⟩] else []))
      fun _ => []
    let input := Text.utf8 "a\n\nb\nc\nd\n".toList
    let reporting := r.process ⟨.vertical, .xml, .warn⟩ input () {}
    let rejecting := r.process ⟨.vertical, .xml, .reject⟩ input () {}
    reporting.2.sink.warnings = #[.crossingSpans ⟨0, 2, "A"⟩ ⟨1, 2, "B"⟩, .unclosed 1] ∧
      rejecting.1 = .error (.crossingSpans ⟨0, 2, "A"⟩ ⟨1, 2, "B"⟩) ∧
      rejecting.2.sink.warnings = #[] ∧
      ∃ bytes : Bytes, reporting.2.sink.written = rejecting.2.sink.written ++ bytes := by
  intro r input reporting rejecting
  have hreported : reporting.2.sink.warnings
      = #[.crossingSpans ⟨0, 2, "A"⟩ ⟨1, 2, "B"⟩, .unclosed 1] := by decide +kernel
  have hne : reporting.2.sink.warnings ≠ (({} : Sink)).warnings := by
    rw [hreported]
    decide
  obtain ⟨-, -, hstops⟩ := process_reject_of_warn r .vertical .xml input () {}
  obtain ⟨-, a, b, hstops⟩ := hstops hne
  obtain ⟨reported, hfirst⟩ := hstops.exists_reported
  have hpair : (⟨0, 2, "A"⟩ : Entity) = a ∧ (⟨1, 2, "B"⟩ : Entity) = b := by
    have h := congrArg (·.toList.head?) (hreported.symm.trans hfirst)
    simpa using h
  obtain ⟨rfl, rfl⟩ := hpair
  exact ⟨hreported, hstops.result, hstops.warnings, hstops.exists_bytes⟩

end Recognizer

end EntityMarkup
