import EntityMarkup.Proofs.Pipeline.Course

/-!
# Runs on a sink with a limit

A sink with a limit fails in the middle of a run, at whatever byte its room ends. What such a run
comes to is told from the run on the same sink without the limit (`SeesPrefix`): it is the same run
if there was room for all that the other writes, and otherwise it has written exactly as many bytes
of that as there was room for. Nothing is written or reported behind the first byte that does not
fit.

A block that fails has counted what its renderer was handed, the sentence it failed at included, and
itself only if it failed at its end (`BlockFails`).

* `Course.play_limit_of_le`, `Course.exists_play_limit`: a course on a sink with a limit.
* `seesPrefix_play`: the same course on both sinks.
* `renderSentences_cases`: how the sentences of a block end, on any sink.
* **`process_limit`**: runs, blocks and the counts of a block that fails.
-/

namespace EntityMarkup

namespace Course

variable {σ α : Type}

/-- With room enough, a limit makes no difference but for the room that is left. -/
theorem play_limit_of_le (c : Course σ α) {s : Sink} {n : Nat}
    (hle : (Event.written c.events).size ≤ n) :
    c.play (s.limit n) = (c.ending.1, ⟨c.ending.2.1,
      (s.record c.events).limit (n - (Event.written c.events).size), c.ending.2.2⟩) := by
  induction c generalizing s n with
  | ends result state stats =>
    have hevents : (ends result state stats).events = [] := rfl
    rw [hevents, Sink.record_nil]
    rfl
  | turn events state stats rest ih =>
    rw [events_turn, Event.written_append, Text.size_append] at hle ⊢
    rw [play, Sink.acceptAll_limit_of_le s (by omega), Sink.record_append, ← Nat.sub_sub]
    exact ih (by omega)

/-- Without room enough a run fails, and has written exactly the bytes there was room for. -/
theorem exists_play_limit (c : Course σ α) {s : Sink} {n : Nat}
    (hlt : n < (Event.written c.events).size) :
    ∃ state s' stats, c.play (s.limit n) = (.error (.io .full), ⟨state, s', stats⟩) ∧
      s'.written.toList = s.written.toList ++ (Event.written c.events).utf8.take n ∧
      ∃ reported, s'.warnings.toList = s.warnings.toList ++ reported ∧
        reported <+: Event.warnings c.events := by
  induction c generalizing s n with
  | ends result state stats => exact absurd hlt (Nat.not_lt_zero n)
  | turn events state stats rest ih =>
    rw [events_turn, Event.written_append, Text.size_append] at hlt
    rw [play, events_turn, Event.written_append, Event.warnings_append, Text.utf8_append,
      List.take_append, Text.length_utf8]
    by_cases hroom : (Event.written events).size ≤ n
    · have hleft : n - (Event.written events).size < (Event.written rest.events).size := by omega
      have htake : (Event.written events).utf8.take n = (Event.written events).utf8 :=
        List.take_of_length_le (by rwa [Text.length_utf8])
      obtain ⟨state', s', stats', hplay, hwritten, reported, hwarnings, hreported⟩ :=
        ih (s := s.record events) hleft
      rw [Sink.acceptAll_limit_of_le s hroom]
      refine ⟨state', s', stats', hplay, ?_, Event.warnings events ++ reported, ?_, ?_⟩
      · rw [hwritten, htake]
        simp [Sink.record]
      · simp [hwarnings, Sink.record]
      · exact (List.prefix_append_right_inj _).mpr hreported
    · -- the run ends with this turn
      obtain ⟨s', haccept, hwritten, reported, hwarnings, hreported⟩ :=
        s.exists_acceptAll_limit (Nat.lt_of_not_le hroom)
      rw [haccept, Nat.sub_eq_zero_of_le (Nat.le_of_not_le hroom), List.take_zero, List.append_nil]
      exact ⟨state, s', stats, rfl, hwritten, reported, hwarnings,
        hreported.trans (List.prefix_append _ _)⟩

end Course

/-! ## With and without a limit -/

/-- A run on a sink with room for `n` more bytes, seen from the run on the same sink without a
limit. -/
structure SeesPrefix {σ α : Type} (before : Sink) (n : Nat)
    (full limited : Except MarkupError α × Progress σ) : Prop where
  /-- With room for all bytes it is the same run. -/
  of_le : full.2.sink.written.size ≤ before.written.size + n →
    limited.1 = full.1 ∧ limited.2.state = full.2.state ∧ limited.2.stats = full.2.stats ∧
      limited.2.sink.written = full.2.sink.written ∧ limited.2.sink.warnings = full.2.sink.warnings
  /-- Otherwise it fails, and the first bytes are written. -/
  of_lt : before.written.size + n < full.2.sink.written.size →
    limited.1 = .error (.io .full) ∧
      limited.2.sink.written.toList = full.2.sink.written.toList.take (before.written.size + n) ∧
      limited.2.sink.warnings.toList <+: full.2.sink.warnings.toList

/-- **A course on a sink with a limit** sees a prefix of what it does without the limit. -/
theorem seesPrefix_play {σ α : Type} (c : Course σ α) (s : Sink) (n : Nat) :
    SeesPrefix s n (c.play s.unlimited) (c.play (s.limit n)) := by
  have hroom : s.unlimited.room = none := rfl
  have hsize : (s.unlimited.record c.events).written.size
      = s.written.size + (Event.written c.events).size := by
    simp [Sink.record, Sink.unlimited, ← Array.length_toList]
  rw [Course.play_of_room_none c hroom]
  constructor
  · intro hle
    rw [hsize] at hle
    rw [c.play_limit_of_le (by omega)]
    exact ⟨rfl, rfl, rfl, rfl, rfl⟩
  · intro hlt
    rw [hsize] at hlt
    obtain ⟨state, s', stats, hplay, hwritten, reported, hwarnings, hreported⟩ :=
      c.exists_play_limit (s := s) (n := n) (by omega)
    rw [hplay]
    refine ⟨rfl, ?_, ?_⟩
    · have htake : (s.written.toList ++ (Event.written c.events).utf8).take (s.written.size + n)
          = s.written.toList ++ (Event.written c.events).utf8.take n := by
        rw [← Array.length_toList, List.take_length_add_append]
      rw [hwritten, ← htake]
      simp [Sink.record, Sink.unlimited]
    · rw [hwarnings]
      simpa [Sink.record, Sink.unlimited] using hreported

/-! ## How a block fails -/

namespace Recognizer

variable {σ : Type} {r : Recognizer σ}

/-- The first sentences of a block are done with: the recognizer has answered for them, and the sink
has taken what they are rendered as. -/
structure Done (r : Recognizer σ) (renderer : Renderer) (p : Progress σ) (found : List Finding)
    (renderer' : Renderer) (state : σ) (sink : Sink) : Prop where
  answers : r.Answers p.state found state
  exists_events : ∃ events, renderer.sentences found = .ok (events, renderer') ∧
    p.sink.acceptAll events = (sink, true)

/-- How a block fails at the sentence behind those that are done with. It counts if the renderer has
been handed it. -/
inductive SentencesFail (r : Recognizer σ) (renderer : Renderer) (sentences : List Sentence)
    (p : Progress σ) : MarkupError → Progress σ → Prop
  /-- The recognizer fails, so that the renderer is not handed the sentence. -/
  | unrecognized {found tokens rest renderer' state sink e state'} :
      r.Done renderer p found renderer' state sink →
      sentences = found.map Prod.fst ++ tokens :: rest →
      r.recognize state tokens.forms = (.error e, state') →
      SentencesFail r renderer sentences p e ⟨state', sink, p.stats.addFindings found⟩
  /-- The renderer rejects the sentence. -/
  | rejected {found tokens rest renderer' state sink entities state' e} :
      r.Done renderer p found renderer' state sink →
      sentences = found.map Prod.fst ++ tokens :: rest →
      r.recognize state tokens.forms = (.ok entities, state') →
      renderer'.sentence tokens entities = .error e →
      SentencesFail r renderer sentences p e
        ⟨state', sink, p.stats.addFindings (found ++ [(tokens, entities)])⟩
  /-- The sink fails before it has taken all of the sentence. -/
  | unwritten {found tokens rest renderer' state sink entities state' events renderer'' sink'} :
      r.Done renderer p found renderer' state sink →
      sentences = found.map Prod.fst ++ tokens :: rest →
      r.recognize state tokens.forms = (.ok entities, state') →
      renderer'.sentence tokens entities = .ok (events, renderer'') →
      sink.acceptAll events = (sink', false) →
      SentencesFail r renderer sentences p (.io .full)
        ⟨state', sink', p.stats.addFindings (found ++ [(tokens, entities)])⟩

/-- How a block fails: at one of its sentences, or at its end, and then the block counts. -/
inductive BlockFails (r : Recognizer σ) (config : Config) (counter : LineCounter) (block : Text)
    (p : Progress σ) : MarkupError → Progress σ → Prop
  | sentence {e p'} :
      r.SentencesFail ⟨config.output, config.crossing, block, counter, 0, 0⟩
        (config.input.sentences block) p e p' →
      BlockFails r config counter block p e p'
  | finish {found renderer' state sink sink'} :
      r.Done ⟨config.output, config.crossing, block, counter, 0, 0⟩ p found renderer' state sink →
      config.input.sentences block = found.map Prod.fst →
      sink.acceptAll renderer'.finish.1 = (sink', false) →
      BlockFails r config counter block p (.io .full)
        ⟨state, sink', (p.stats.addFindings found).addBlock⟩

variable {renderer renderer₁ renderer' : Renderer} {p : Progress σ} {tokens : Sentence}
  {entities : List Entity} {state₁ state : σ} {events : List Event} {sink₁ sink : Sink}

theorem done_nil (renderer : Renderer) (p : Progress σ) :
    r.Done renderer p [] renderer p.state p.sink :=
  ⟨rfl, [], rfl, rfl⟩

theorem Done.cons {found : List Finding}
    (hrecognize : r.recognize p.state tokens.forms = (.ok entities, state₁))
    (hsentence : renderer.sentence tokens entities = .ok (events, renderer₁))
    (haccept : p.sink.acceptAll events = (sink₁, true))
    (h : r.Done renderer₁ ⟨state₁, sink₁, p.stats.addSentence tokens entities⟩ found renderer' state
      sink) :
    r.Done renderer p ((tokens, entities) :: found) renderer' state sink := by
  obtain ⟨more, hmore, haccept'⟩ := h.exists_events
  refine ⟨⟨state₁, hrecognize, h.answers⟩, events ++ more, ?_, ?_⟩
  · exact Renderer.sentences_cons_eq_ok_iff.mpr ⟨events, renderer₁, more, hsentence, hmore, rfl⟩
  · rw [Sink.acceptAll_append, haccept]
    exact haccept'

theorem SentencesFail.cons {sentences : List Sentence} {e : MarkupError} {p' : Progress σ}
    (hrecognize : r.recognize p.state tokens.forms = (.ok entities, state₁))
    (hsentence : renderer.sentence tokens entities = .ok (events, renderer₁))
    (haccept : p.sink.acceptAll events = (sink₁, true))
    (h : r.SentencesFail renderer₁ sentences
      ⟨state₁, sink₁, p.stats.addSentence tokens entities⟩ e p') :
    r.SentencesFail renderer (tokens :: sentences) p e p' := by
  cases h with
  | unrecognized hdone hrest hfails =>
    subst hrest
    exact .unrecognized (hdone.cons hrecognize hsentence haccept) rfl hfails
  | rejected hdone hrest hanswer hfails =>
    subst hrest
    exact .rejected (hdone.cons hrecognize hsentence haccept) rfl hanswer hfails
  | unwritten hdone hrest hanswer hrendered hfails =>
    subst hrest
    exact .unwritten (hdone.cons hrecognize hsentence haccept) rfl hanswer hrendered hfails

/-- **The sentences of a block** are all done with, or fail at one of them. -/
theorem renderSentences_cases (r : Recognizer σ) (renderer : Renderer) (sentences : List Sentence)
    (p : Progress σ) :
    (∃ found renderer' state sink, r.Done renderer p found renderer' state sink ∧
        sentences = found.map Prod.fst ∧
        r.renderSentences renderer sentences p
          = (.ok renderer', ⟨state, sink, p.stats.addFindings found⟩)) ∨
      ∃ e p', r.renderSentences renderer sentences p = (.error e, p') ∧
        r.SentencesFail renderer sentences p e p' := by
  induction sentences generalizing renderer p with
  | nil => exact Or.inl ⟨[], renderer, p.state, p.sink, done_nil renderer p, rfl, rfl⟩
  | cons tokens rest ih =>
    rw [renderSentences_cons]
    cases hrecognize : r.recognize p.state tokens.forms with
    | mk answer state₁ =>
      cases answer with
      | error e => exact Or.inr ⟨e, _, rfl, .unrecognized (done_nil renderer p) rfl hrecognize⟩
      | ok entities =>
        simp only
        cases hsentence : renderer.sentence tokens entities with
        | error e =>
          exact Or.inr ⟨e, _, rfl, .rejected (done_nil renderer p) rfl hrecognize hsentence⟩
        | ok rendered =>
          obtain ⟨events, renderer₁⟩ := rendered
          simp only [Progress.emit]
          cases haccept : p.sink.acceptAll events with
          | mk sink₁ complete =>
            cases complete with
            | false =>
              exact Or.inr ⟨_, _, rfl,
                .unwritten (done_nil renderer p) rfl hrecognize hsentence haccept⟩
            | true =>
              rcases ih renderer₁ ⟨state₁, sink₁, p.stats.addSentence tokens entities⟩ with
                ⟨found, renderer', state, sink, hdone, hrest, hrun⟩ | ⟨e, p', hrun, hfails⟩
              · refine Or.inl ⟨(tokens, entities) :: found, renderer', state, sink,
                  hdone.cons hrecognize hsentence haccept, ?_, hrun⟩
                rw [List.map_cons, ← hrest]
              · exact Or.inr ⟨e, p', hrun, hfails.cons hrecognize hsentence haccept⟩

/-- A block that fails does so in one of these ways. -/
theorem blockFails_of_renderBlock {config : Config} {counter : LineCounter} {block : Text}
    {e : MarkupError} {p p' : Progress σ}
    (h : r.renderBlock config counter block p = (.error e, p')) :
    r.BlockFails config counter block p e p' := by
  unfold renderBlock at h
  rcases r.renderSentences_cases ⟨config.output, config.crossing, block, counter, 0, 0⟩
    (config.input.sentences block) p with
    ⟨found, renderer', state, sink, hdone, hall, hrun⟩ | ⟨e', p₁, hrun, hfails⟩
  · simp only [hrun, Progress.emit] at h
    cases haccept : sink.acceptAll renderer'.finish.1 with
    | mk sink' complete =>
      rw [haccept] at h
      cases complete with
      | true => cases h
      | false =>
        cases h
        exact .finish hdone hall haccept
  · simp only [hrun] at h
    cases h
    exact .sentence hfails

/-! ## Runs and blocks -/

/-- **A sink that fails sees a prefix.** Whatever the recognizer, the input and the configuration, a
run on a sink with a limit is the run without the limit, if there is room for all that this writes;
otherwise it fails, and has written exactly the bytes there was room for, and reported some of what
the other reports first. The same holds of a block, whatever the counter and the counts it begins
with; and if a block fails, the counts have grown by the sentences that its renderer was handed, and
by the block itself only if it failed at its end. -/
theorem process_limit (r : Recognizer σ) (config : Config) :
    (∀ input state s n, SeesPrefix s n (r.process config input state s.unlimited)
      (r.process config input state (s.limit n))) ∧
    (∀ counter block state stats s n,
      SeesPrefix s n (r.renderBlock config counter block ⟨state, s.unlimited, stats⟩)
        (r.renderBlock config counter block ⟨state, s.limit n, stats⟩)) ∧
    ∀ counter block p e p', r.renderBlock config counter block p = (.error e, p') →
      r.BlockFails config counter block p e p' := by
  refine ⟨fun input state s n => ?_, fun counter block state stats s n => ?_, ?_⟩
  · rw [process_eq_play, process_eq_play]
    exact seesPrefix_play _ s n
  · rw [renderBlock_eq_play, renderBlock_eq_play]
    exact seesPrefix_play _ s n
  · intro counter block p e p' h
    exact blockFails_of_renderBlock h

/-- So it is with room for 14 bytes, where the text is cut inside a character, behind a warning; and
with room for 46, where only the blank lines at the end of the block are cut. -/
theorem process_limit_inside :
    let r : Recognizer Unit := ofFunction (fun _ _ => .ok [⟨0, 2, "A"⟩, ⟨1, 2, "B"⟩]) fun _ => []
    let config : Config := ⟨.vertical, .charSpan, .warn⟩
    let text : Text := "é\n<\nb\n\n".toList
    let output : Text := "<ne type=\"A\">é\n<ne type=\"B\">&lt;\nb</ne></ne>\n\n".toList
    let limited := r.process config text.utf8 () (Sink.limit {} 14)
    let block := fun n => r.renderBlock config {} text ⟨(), Sink.limit {} n, {}⟩
    limited.1 = .error (.io .full) ∧ limited.2.sink.written.toList = output.utf8.take 14 ∧
      limited.2.sink.warnings.toList <+: [.crossingSpans ⟨0, 2, "A"⟩ ⟨1, 2, "B"⟩] ∧
      r.BlockFails config {} text ⟨(), Sink.limit {} 14, {}⟩ (.io .full) (block 14).2 ∧
      (block 14).2.stats = ⟨0, 1, 3, 2⟩ ∧
      r.BlockFails config {} text ⟨(), Sink.limit {} 46, {}⟩ (.io .full) (block 46).2 ∧
      (block 46).2.stats = ⟨1, 1, 3, 2⟩ := by
  intro r config text output limited block
  obtain ⟨hrun, -, hblock⟩ := process_limit r config
  have hfails : ∀ n, (block n).1 = .error (.io .full) →
      r.BlockFails config {} text ⟨(), Sink.limit {} n, {}⟩ (.io .full) (block n).2 := by
    intro n h
    refine hblock {} text _ _ _ ?_
    rw [← h]
  have hinside : (block 14).1 = .error (.io .full) ∧ (block 14).2.stats = ⟨0, 1, 3, 2⟩ := by
    decide +kernel
  have hend : (block 46).1 = .error (.io .full) ∧ (block 46).2.stats = ⟨1, 1, 3, 2⟩ := by
    decide +kernel
  let taken : Sink := Sink.record {}
    [.warn (.crossingSpans ⟨0, 2, "A"⟩ ⟨1, 2, "B"⟩), .write output]
  have hfull : (r.process config text.utf8 () (Sink.unlimited {})).2.sink = taken := by
    decide +kernel
  have hlt : ({} : Sink).written.size + 14 < taken.written.size := by decide +kernel
  rw [← hfull] at hlt
  have hprefix : SeesPrefix {} 14 _ limited := hrun text.utf8 () {} 14
  obtain ⟨hresult, hwritten, hwarnings⟩ := hprefix.of_lt hlt
  rw [hfull] at hwritten hwarnings
  have hbytes : limited.2.sink.written.toList = output.utf8.take 14 := by
    rw [hwritten]
    decide +kernel
  have hreported : taken.warnings.toList = [.crossingSpans ⟨0, 2, "A"⟩ ⟨1, 2, "B"⟩] := by
    simp [taken, Sink.record, Event.warnings]
  rw [hreported] at hwarnings
  exact ⟨hresult, hbytes, hwarnings, hfails 14 hinside.1, hinside.2, hfails 46 hend.1, hend.2⟩

end Recognizer

end EntityMarkup
