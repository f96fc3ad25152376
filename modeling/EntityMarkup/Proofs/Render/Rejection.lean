import EntityMarkup.Proofs.Entity.Nesting
import EntityMarkup.Proofs.Render.Sentences
import EntityMarkup.Proofs.Render.Sinks

/-!
# A rejected sentence leaves no trace

A sentence is checked before any of it is rendered, and it depends on the settings of the renderer
and on nothing that was rendered before whether it passes: `Rejects` says when it does not, and with
what error. A caller may go on after an error. The sentences that were rejected can then be left
out, and neither what is written and reported nor the line counter changes.

* `sentence_eq_error_iff`: the checks that reject a sentence.
* `Rejects`, `rejects_of_sentence_eq_error`, `exists_sentence_eq_error`: when a sentence is
  rejected.
* `calls_eq_calls_accepted`: the sentences that were rejected can be left out.
* **`rejected_sentences_leave_no_trace`**: all of this, for any calls on a sink without a limit.
-/

namespace EntityMarkup

namespace Renderer

/-! ## The checks that fail -/

/-- The check names the first entity that is no span of the sentence. -/
theorem checkSpans_eq_error_iff {entities : List Entity} {n : Nat} {error : MarkupError} :
    checkSpans entities n = .error error ↔
      ∃ before e after, entities = before ++ e :: after ∧
        (∀ a ∈ before, a.isSpanOf n = true) ∧ e.isSpanOf n = false ∧
        error = .invalidSpan e.start e.length n := by
  rw [checkSpans]
  constructor
  · intro h
    split at h
    · rename_i e hfind
      obtain ⟨he, before, after, hsplit, hbefore⟩ := List.find?_eq_some_iff_append.mp hfind
      refine ⟨before, e, after, hsplit, fun a ha => ?_, ?_, (Except.error.inj h).symm⟩
      · simpa using hbefore a ha
      · simpa using he
    · cases h
  · rintro ⟨before, e, after, hsplit, hbefore, he, rfl⟩
    have hfind : invalidEntity? entities n = some e :=
      List.find?_eq_some_iff_append.mpr
        ⟨by rw [he]; rfl, before, after, hsplit, fun a ha => by rw [hbefore a ha]; rfl⟩
    rw [hfind]

/-- Only the policy to reject crossing entities makes an error of them. -/
theorem checkCrossing_eq_error_iff {policy : CrossingPolicy} {sorted : List Entity}
    {error : MarkupError} :
    checkCrossing policy sorted = .error error ↔
      policy = .reject ∧ ∃ a b, Entity.firstCrossing? sorted = some (a, b) ∧
        error = .crossingSpans a b := by
  unfold checkCrossing
  cases hpair : Entity.firstCrossing? sorted with
  | none => simp
  | some pair => cases policy <;> simp [eq_comm, Prod.ext_iff, and_assoc]

variable {r r' : Renderer} {tokens : Sentence} {entities : List Entity} {events : List Event}
  {error : MarkupError}

/-- In the formats that are not inline, a sentence passes if its entities are spans of it. The
policy makes no difference to what it comes to, and nothing is reported. -/
theorem sentence_listed (hmarkup : r.format.markup? = none) (tokens : Sentence)
    (entities : List Entity) :
    ∃ events seen, Event.warnings events = [] ∧ ∀ policy,
      Renderer.sentence { r with crossing := policy } tokens entities
        = checkSpans entities tokens.length >>= fun _ =>
          .ok (events, { r with crossing := policy, seen }) := by
  rcases OutputFormat.markup?_eq_none_iff.mp hmarkup with hformat | hformat
  · refine ⟨Listing.render (r.counter.lines + r.seen + 1) tokens entities, r.seen + tokens.length,
      Event.warnings_map _ _, fun policy => ?_⟩
    exact sentence_vertical (r := { r with crossing := policy }) tokens entities hformat
  · have hwarnings : Event.warnings (Outermost.render tokens (Entity.sort entities)) = [] := by
      rw [Outermost.render, Event.warnings_append, Event.warnings_map]
      rfl
    refine ⟨_, r.seen, hwarnings, fun policy => ?_⟩
    exact sentence_conll (r := { r with crossing := policy }) tokens entities hformat

/-- **The checks that reject a sentence.** In every format its entities have to be spans of it, and
in inline formats the policy has to admit them. -/
theorem sentence_eq_error_iff :
    r.sentence tokens entities = .error error ↔
      checkSpans entities tokens.length = .error error ∨
        checkSpans entities tokens.length = .ok () ∧ r.format.markup?.isSome = true ∧
          checkCrossing r.crossing (Entity.sort entities) = .error error := by
  cases hmarkup : r.format.markup? with
  | none =>
    obtain ⟨events, seen, -, hsentence⟩ := sentence_listed hmarkup tokens entities
    have hsentence : r.sentence tokens entities = _ := hsentence r.crossing
    rw [hsentence, bind_eq_error_iff]
    simp
  | some markup =>
    have hinline : r.inlineSentence entities (markup r.block r.cursor tokens) = .error error
        ↔ checkCrossing r.crossing (Entity.sort entities) = .error error := by
      rw [inlineSentence, bind_eq_error_iff]
      simp [pure, Except.pure]
    rw [sentence_inline hmarkup, bind_eq_error_iff]
    refine or_congr_right ⟨?_, ?_⟩
    · rintro ⟨u, hspans, h⟩
      exact ⟨hspans, rfl, hinline.mp h⟩
    · rintro ⟨hspans, -, h⟩
      exact ⟨(), hspans, hinline.mpr h⟩

/-! ## Which sentences are rejected -/

/-- Why a sentence is rejected. The first entity that is no span of it is an error in every format;
if there is none, two crossing entities are one in inline formats, as the policy says. -/
inductive Rejects (format : OutputFormat) (policy : CrossingPolicy) (found : Finding) :
    MarkupError → Prop
  | invalid {before : List Entity} {e : Entity} {after : List Entity} :
      found.2 = before ++ e :: after →
      (∀ a ∈ before, a.length ≠ 0 ∧ a.start + a.length ≤ found.1.length) →
      e.length = 0 ∨ found.1.length < e.start + e.length →
      Rejects format policy found (.invalidSpan e.start e.length found.1.length)
  | crossing {a b : Entity} :
      (∀ e ∈ found.2, e.length ≠ 0 ∧ e.start + e.length ≤ found.1.length) →
      format = .xml ∨ format = .charSpan → policy = .reject →
      a ∈ found.2 → b ∈ found.2 → a.crosses b = true →
      Rejects format policy found (.crossingSpans a b)

theorem rejects_of_sentence_eq_error (h : r.sentence tokens entities = .error error) :
    Rejects r.format r.crossing (tokens, entities) error := by
  rcases sentence_eq_error_iff.mp h with h | ⟨hspans, hinline, h⟩
  · obtain ⟨before, e, after, hsplit, hbefore, he, rfl⟩ := checkSpans_eq_error_iff.mp h
    exact .invalid hsplit (fun a ha => Entity.isSpanOf_iff.mp (hbefore a ha))
      (Entity.isSpanOf_eq_false_iff.mp he)
  · obtain ⟨hpolicy, a, b, hpair, rfl⟩ := checkCrossing_eq_error_iff.mp h
    obtain ⟨ha, hb, hcross⟩ := Entity.crosses_of_firstCrossing? hpair
    exact .crossing (fun e he => Entity.isSpanOf_iff.mp (checkSpans_eq_ok_iff.mp hspans e he))
      (OutputFormat.isSome_markup?_iff.mp hinline) hpolicy (Entity.mem_sort.mp ha)
      (Entity.mem_sort.mp hb) hcross

theorem exists_sentence_eq_error (h : Rejects r.format r.crossing (tokens, entities) error) :
    ∃ error', r.sentence tokens entities = .error error' := by
  cases h with
  | invalid hsplit hbefore he =>
    have hspans := checkSpans_eq_error_iff.mpr ⟨_, _, _, hsplit,
      fun a ha => Entity.isSpanOf_iff.mpr (hbefore a ha), Entity.isSpanOf_eq_false_iff.mpr he, rfl⟩
    exact ⟨_, sentence_eq_error_iff.mpr (Or.inl hspans)⟩
  | @crossing a b hspans hinline hpolicy ha hb hcross =>
    have hspans := (checkSpans_eq_ok_iff (u := ())).mpr fun e he =>
      Entity.isSpanOf_iff.mpr (hspans e he)
    cases hpair : Entity.firstCrossing? (Entity.sort entities) with
    | none =>
      rw [Entity.firstCrossing?_sort_eq_none_iff.mp hpair a ha b hb] at hcross
      cases hcross
    | some pair =>
      have hreject := checkCrossing_eq_error_iff.mpr ⟨hpolicy, pair.1, pair.2, hpair, rfl⟩
      exact ⟨_, sentence_eq_error_iff.mpr
        (Or.inr ⟨hspans, OutputFormat.isSome_markup?_iff.mpr hinline, hreject⟩)⟩

/-- Rendering a sentence moves the cursor and counts tokens, and changes nothing else of the
renderer. -/
theorem eq_of_sentence_eq_ok (h : r.sentence tokens entities = .ok (events, r')) :
    r' = { r with cursor := r'.cursor, seen := r'.seen } := by
  cases hmarkup : r.format.markup? with
  | none =>
    obtain ⟨listed, seen, -, hsentence⟩ := sentence_listed hmarkup tokens entities
    have hsentence : r.sentence tokens entities = _ := hsentence r.crossing
    rw [hsentence] at h
    obtain ⟨-, -, h⟩ := bind_eq_ok_iff.mp h
    cases h
    rfl
  | some markup =>
    obtain ⟨-, -, -, -, rfl⟩ := (sentence_inline_eq_ok_iff hmarkup).mp h
    rfl

theorem settings_of_sentence_eq_ok (h : r.sentence tokens entities = .ok (events, r')) :
    r'.format = r.format ∧ r'.crossing = r.crossing := by
  rw [eq_of_sentence_eq_ok h]
  exact ⟨rfl, rfl⟩

end Renderer

/-! ## Calls one after the other -/

/-- A block under way, and the sink that its markup goes to. -/
structure Session where
  renderer : Renderer
  sink : Sink

namespace Session

/-- Renders the next sentence. However the call ends, the sink is handed what the call did, and the
renderer is left where the call left it. -/
def call (s : Session) (found : Finding) : Except MarkupError Unit × Session :=
  let (outcome, trace) := s.renderer.call found.1 found.2
  let (sink, complete) := s.sink.acceptAll trace.events
  (if complete then outcome else .error (.io .full), ⟨trace.renderer, sink⟩)

/-- Renders sentences one after the other, whether some are rejected or not. -/
def calls (s : Session) (found : List Finding) : Session :=
  found.foldl (fun s f => (s.call f).2) s

/-- The sentences, of some that are rendered one after the other, for which the call does not
fail. -/
def accepted (s : Session) : List Finding → List Finding
  | [] => []
  | f :: rest =>
    match s.call f with
    | (.error _, s') => s'.accepted rest
    | (.ok (), s') => f :: s'.accepted rest

/-- Ends the block. -/
def finish (s : Session) : Except MarkupError LineCounter × Sink :=
  let (events, counter) := s.renderer.finish
  let (sink, complete) := s.sink.acceptAll events
  (if complete then .ok counter else .error (.io .full), sink)

variable {s s' : Session} {f : Finding} {error : MarkupError}

theorem call_of_sentence_eq_ok (hroom : s.sink.room = none) {events : List Event} {r' : Renderer}
    (h : s.renderer.sentence f.1 f.2 = .ok (events, r')) :
    s.call f = (.ok (), ⟨r', s.sink.record events⟩) := by
  simp [call, Renderer.call_eq_allOrNothing, h, Renderer.allOrNothing,
    Sink.acceptAll_of_room_none hroom]

/-- A sentence that is rejected is checked before anything is done, so the call changes nothing. -/
theorem call_of_sentence_eq_error (h : s.renderer.sentence f.1 f.2 = .error error) :
    s.call f = (.error error, s) := by
  simp [call, Renderer.call_eq_allOrNothing, h, Renderer.allOrNothing, Sink.acceptAll]

/-- On a sink without a limit a call fails only if the sentence is rejected, and then nothing has
changed. -/
theorem call_eq_error_iff (hroom : s.sink.room = none) :
    s.call f = (.error error, s') ↔ s.renderer.sentence f.1 f.2 = .error error ∧ s' = s := by
  cases hsentence : s.renderer.sentence f.1 f.2 with
  | error e => simp [call_of_sentence_eq_error hsentence, eq_comm]
  | ok rendered => simp [call_of_sentence_eq_ok hroom hsentence]

/-- What does not change from one call to the next: the settings of the renderer, and that the sink
has no limit. -/
theorem call_settings (hroom : s.sink.room = none) (f : Finding) :
    (s.call f).2.sink.room = none ∧
      (s.call f).2.renderer.format = s.renderer.format ∧
      (s.call f).2.renderer.crossing = s.renderer.crossing := by
  cases hsentence : s.renderer.sentence f.1 f.2 with
  | error e =>
    rw [call_of_sentence_eq_error hsentence]
    exact ⟨hroom, rfl, rfl⟩
  | ok rendered =>
    rw [call_of_sentence_eq_ok hroom hsentence]
    exact ⟨hroom, Renderer.settings_of_sentence_eq_ok hsentence⟩

theorem calls_settings (hroom : s.sink.room = none) (found : List Finding) :
    (s.calls found).sink.room = none ∧
      (s.calls found).renderer.format = s.renderer.format ∧
      (s.calls found).renderer.crossing = s.renderer.crossing := by
  induction found generalizing s with
  | nil => exact ⟨hroom, rfl, rfl⟩
  | cons f rest ih =>
    obtain ⟨hroom', hformat, hcrossing⟩ := call_settings hroom f
    obtain ⟨hroom'', hformat', hcrossing'⟩ := ih hroom'
    exact ⟨hroom'', hformat'.trans hformat, hcrossing'.trans hcrossing⟩

/-- **The sentences that were rejected can be left out.** -/
theorem calls_eq_calls_accepted (hroom : s.sink.room = none) (found : List Finding) :
    s.calls found = s.calls (s.accepted found) := by
  induction found generalizing s with
  | nil => rfl
  | cons f rest ih =>
    have hrest := ih (call_settings hroom f).1
    have hcalls : s.calls (f :: rest) = (s.call f).2.calls rest := rfl
    rw [hcalls, hrest, accepted]
    cases hcall : s.call f with
    | mk result s' =>
      cases result with
      | error e => rw [((call_eq_error_iff hroom).mp hcall).2]
      | ok u =>
        have hcalls' : s.calls (f :: s'.accepted rest) = (s.call f).2.calls (s'.accepted rest) :=
          rfl
        rw [hcalls', hcall]

/-- **A rejected sentence leaves no trace.** On a sink without a limit, and whatever has been called
before, a call fails exactly if there is a reason to reject the sentence; it then fails for such a
reason, and leaves the renderer and the sink as they were. Written, reported and counted in the end
is the same as if the calls that fail had not been made. -/
theorem rejected_sentences_leave_no_trace (hroom : s.sink.room = none) (found : List Finding) :
    (∀ called f,
      ((∃ error, ((s.calls called).call f).1 = .error error)
        ↔ ∃ error, Renderer.Rejects s.renderer.format s.renderer.crossing f error) ∧
      ∀ error, ((s.calls called).call f).1 = .error error →
        Renderer.Rejects s.renderer.format s.renderer.crossing f error ∧
          ((s.calls called).call f).2 = s.calls called) ∧
      (s.calls found).finish = (s.calls (s.accepted found)).finish := by
  refine ⟨fun called f => ?_, congrArg finish (calls_eq_calls_accepted hroom found)⟩
  obtain ⟨hroom', hformat, hcrossing⟩ := calls_settings hroom called
  rw [← hformat, ← hcrossing]
  generalize s.calls called = s at hroom' ⊢
  have hfails : ∀ error, (s.call f).1 = .error error →
      s.renderer.sentence f.1 f.2 = .error error ∧ (s.call f).2 = s :=
    fun error h => (call_eq_error_iff hroom').mp (Prod.ext h rfl)
  refine ⟨⟨?_, ?_⟩, fun error h => ?_⟩
  · rintro ⟨error, h⟩
    exact ⟨error, Renderer.rejects_of_sentence_eq_error (hfails error h).1⟩
  · rintro ⟨error, h⟩
    obtain ⟨error', hsentence⟩ := Renderer.exists_sentence_eq_error h
    exact ⟨error', congrArg Prod.fst (call_of_sentence_eq_error hsentence)⟩
  · obtain ⟨hsentence, hsame⟩ := hfails error h
    exact ⟨Renderer.rejects_of_sentence_eq_error hsentence, hsame⟩

/-- So it is with a sentence one of whose entities goes beyond its end, and one with crossing
entities, between two that pass. -/
theorem rejected_sentences_leave_no_trace_two :
    let s : Session := ⟨⟨.xml, .reject, "a b".toList, {}, 0, 0⟩, {}⟩
    let first : Finding := ([.ofForm ['a'] 0 0], [⟨0, 1, "A"⟩])
    let long : Finding := ([.ofForm ['a'] 0 0], [⟨0, 1, "A"⟩, ⟨0, 2, "B"⟩])
    let crossed : Finding :=
      ([.ofForm ['a'] 0 0, .ofForm [' '] 1 1, .ofForm ['b'] 2 2], [⟨0, 2, "A"⟩, ⟨1, 2, "B"⟩])
    let last : Finding := ([.ofForm ['b'] 2 0], [])
    s.accepted [first, long, crossed, last] = [first, last] ∧
      (∃ error, ((s.calls [first, long]).call crossed).1 = .error error) ∧
      (s.calls [first, long, crossed, last]).finish = (s.calls [first, last]).finish := by
  intro s first long crossed last
  have haccepted : s.accepted [first, long, crossed, last] = [first, last] := by decide +kernel
  obtain ⟨hfails, hfinish⟩ := rejected_sentences_leave_no_trace (s := s) rfl
    [first, long, crossed, last]
  rw [haccepted] at hfinish
  have hrejects : Renderer.Rejects .xml .reject crossed (.crossingSpans ⟨0, 2, "A"⟩ ⟨1, 2, "B"⟩) :=
    .crossing (by decide) (Or.inl rfl) rfl (by decide) (by decide) rfl
  exact ⟨haccepted, (hfails [first, long] crossed).1.mpr ⟨_, hrejects⟩, hfinish⟩

end Session

end EntityMarkup
