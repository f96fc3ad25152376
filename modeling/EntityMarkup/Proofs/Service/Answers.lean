import EntityMarkup.Pattern.Language
import EntityMarkup.Proofs.Guarded.Run
import EntityMarkup.Proofs.Json.Leftover
import EntityMarkup.Proofs.Pipeline.Verdict
import EntityMarkup.Proofs.Recognizer.Findings
import EntityMarkup.Service

/-!
# Answers to orders

A service that recognizes by rules meets every order but two kinds: those without text, and those
for markup in which entities cross that its policy rejects. Rules only find spans of a sentence, so
no other error can come up, and text that is not blank has a token to count. No worker breaks off,
as the text of an order is no longer than a body may be, and in a run on such a text no operation
fails.

* `orderOf_eq_ok_iff`: which requests are orders.
* `respond_of_order`: a request that is an order is answered by fulfilling it.
* `breaksOff_eq_false`: workers that do nothing but run do not break off.
* `renderText_rules`: how the text of an order is marked up, or why not.
* **`respond_recognize`**: the answer to an order, for all rules and configurations.
-/

namespace EntityMarkup

variable {π : Type} [PatternLanguage π]

/-- Two entities that rules find in a sentence cross. -/
def Rules.FindsCrossing (rules : Rules π) (tokens : Sentence) : Prop :=
  ∃ a ∈ rules.entities tokens.forms, ∃ b ∈ rules.entities tokens.forms, a.crosses b = true

/-- How rules mark up a text, or why not. -/
theorem Rules.renderText_rules (calls : List Call) (config : Config) (text : Text) :
    let rules : Rules π := ofCalls calls
    let blocks := Block.ofText text
    let ss := blocks.flatMap config.input.sentences
    (∃ error, Recognizer.verdict rules.entities config ss = some error ∧
        (recognizer.renderText config text rules).1 = .error error) ∨
      Recognizer.verdict rules.entities config ss = none ∧
        ∃ output stats, (recognizer.renderText config text rules).1 = .ok (output, stats) ∧
          stats.blocks = blocks.length ∧ stats.sentences = ss.length ∧
          stats.tokens = ss.flatten.length :=
  recognizer.renderText_verdict config (fun _ => rfl)
    (fun _ _ => isSpanOf_of_mem_entities fun _ _ => ne_nil_of_knows calls) text

namespace Recognizer

variable {rules : Rules π} {config : Config} {ss : List Sentence} {error : MarkupError}

/-- Where a sentence decides, it is the first in which entities cross. -/
theorem exists_of_verdict_eq_some (h : verdict rules.entities config ss = some error) :
    config.crossing = .reject ∧ (config.output = .xml ∨ config.output = .charSpan) ∧
      ∃ before tokens after a b, ss = before ++ tokens :: after ∧
        (∀ s ∈ before, ¬ rules.FindsCrossing s) ∧ rules.FindsCrossing tokens ∧
        Entity.firstCrossing? (Entity.sort (rules.entities tokens.forms)) = some (a, b) ∧
        error = .crossingSpans a b := by
  obtain ⟨before, tokens, after, rfl, hrefusal, hbefore⟩ := List.findSome?_eq_some_iff.mp h
  obtain ⟨hcrossing, hinline, a, b, hpair, rfl⟩ := Config.refusal?_eq_some_iff.mp hrefusal
  have hinline := OutputFormat.isSome_markup?_iff.mp hinline
  refine ⟨hcrossing, hinline, before, tokens, after, a, b, rfl, ?_, ?_, hpair, rfl⟩
  · intro s hs hcross
    exact Config.refusal?_ne_none_iff.mpr ⟨hcrossing, hinline, hcross⟩ (hbefore s hs)
  · obtain ⟨ha, hb, hcross⟩ := Entity.crosses_of_firstCrossing? hpair
    exact ⟨a, Entity.mem_sort.mp ha, b, Entity.mem_sort.mp hb, hcross⟩

theorem verdict_ne_none_iff :
    verdict rules.entities config ss ≠ none ↔
      config.crossing = .reject ∧ (config.output = .xml ∨ config.output = .charSpan) ∧
        ∃ tokens ∈ ss, rules.FindsCrossing tokens := by
  constructor
  · intro h
    obtain ⟨error, h⟩ := Option.ne_none_iff_exists'.mp h
    obtain ⟨hcrossing, hinline, before, tokens, after, -, -, rfl, -, hcross, -⟩ :=
      exists_of_verdict_eq_some h
    exact ⟨hcrossing, hinline, tokens, by simp, hcross⟩
  · rintro ⟨hcrossing, hinline, tokens, htokens, hcross⟩ hnone
    exact Config.refusal?_ne_none_iff.mpr ⟨hcrossing, hinline, hcross⟩
      (List.findSome?_eq_none_iff.mp hnone tokens htokens)

end Recognizer

namespace Service

variable {s : Service π} {request : Request} {order : Order}

/-! ## Orders -/

omit [PatternLanguage π] in
/-- A request is an order if its content type is JSON, its body is not too large, and an order can
be read from it. -/
theorem orderOf_eq_ok_iff :
    orderOf request = .ok order ↔
      request.contentType.map MediaType.isJson = some true ∧
        Text.size request.body.toList ≤ bodyLimit ∧ Order.ofBody request.body = .ok order := by
  unfold orderOf
  rw [← Nat.not_lt]
  constructor
  · intro h
    split at h
    · cases h
    · rename_i hjson
      split at h
      · cases h
      · rename_i hsize
        refine ⟨?_, hsize, ?_⟩
        · cases hmap : request.contentType.map MediaType.isJson with
          | none => simp [hmap] at hjson
          | some isJson => simpa [hmap] using hjson
        · split at h
          · rename_i found hfound
            rw [hfound, Except.ok.inj h]
          · cases h
          · cases h
  · rintro ⟨hjson, hsize, horder⟩
    rw [hjson, if_neg (by simp), if_neg hsize, horder]

/-- A request that is an order is answered by fulfilling it. -/
theorem respond_of_order (s : Service π) (hmethod : request.method = "POST")
    (hpath : request.path = "/recognize") (horder : orderOf request = .ok order) :
    s.respond request = { s.fulfil order with headers := [anyOrigin] } := by
  unfold respond route recognize
  rw [hmethod, hpath, horder]
  simp

/-! ## Workers -/

/-- Workers do nothing but run: they break off only where an operation of the run fails. Entities are
taken never to be too many to be counted. -/
def WorkersOnlyRun (s : Service π) : Prop :=
  ∀ config text, s.breaksOff config text = true →
    Rules.recognizer.process? (fun a b => some (a + b)) config text.utf8 s.rules {} = none

/-- No worker breaks off on the text of an order. -/
theorem breaksOff_eq_false (hworkers : s.WorkersOnlyRun)
    (hsize : Text.size request.body.toList ≤ bodyLimit)
    (horder : Order.ofBody request.body = .ok order) (config : Config) :
    s.breaksOff config order.data.toList = false := by
  have hlength : (Text.utf8 order.data.toList).length < 2 ^ 63 := by
    have hbytes := Text.size_le_four_mul_length order.data.toList
    have hread := Order.length_data_le horder
    have hchars := Text.length_le_size request.body.toList
    rw [Text.length_utf8]
    rw [bodyLimit] at hsize
    omega
  by_contra hbreaksOff
  have hfails := hworkers config _ (Bool.not_eq_false _ ▸ hbreaksOff)
  rw [(Recognizer.process_total Rules.recognizer config hlength s.rules {}).1] at hfails
  cases hfails

/-! ## Answers -/

/-- The answer to a text that is marked up, or is not. -/
def answerTo : Except MarkupError (Text × Stats) → Response
  | .ok (result, stats) => ⟨200, .markup model result stats, []⟩
  | .error e => ⟨400, .error e.message, []⟩

/-- An order whose text is not blank is answered as the text is marked up, unless the worker breaks
off. -/
theorem fulfil_of_not_blank (hfull : Text.isAllBlank order.data.toList = false)
    (hworker : s.breaksOff (s.effectiveConfig order) order.data.toList = false) :
    s.fulfil order = answerTo
      (Rules.recognizer.renderText (s.effectiveConfig order) order.data.toList s.rules).1 := by
  unfold fulfil
  simp only [hfull, hworker, if_neg Bool.false_ne_true]
  cases Rules.recognizer.renderText (s.effectiveConfig order) order.data.toList s.rules with
  | mk answer rules => cases answer <;> rfl

/-- An order is refused because its text is blank or because of one of its sentences, or it is met,
and then there is something to count. -/
theorem fulfil_cases {calls : List Rules.Call} (hrules : s.rules = Rules.ofCalls calls)
    (hworker : s.breaksOff (s.effectiveConfig order) order.data.toList = false) :
    let config := s.effectiveConfig order
    let text := order.data.toList
    let verdict := Recognizer.verdict s.rules.entities config
      ((Block.ofText text).flatMap config.input.sentences)
    let response := s.fulfil order
    (Text.isAllBlank text = true ∧ response = ⟨400, .error "Texto vazio", []⟩) ∨
      (Text.isAllBlank text = false ∧
        ∃ error, verdict = some error ∧ response = ⟨400, .error error.message, []⟩) ∨
      Text.isAllBlank text = false ∧ verdict = none ∧
        ∃ result stats, (Rules.recognizer.renderText config text s.rules).1 = .ok (result, stats) ∧
          response = ⟨200, .markup model result stats, []⟩ ∧
          1 ≤ stats.blocks ∧ 1 ≤ stats.sentences ∧ 1 ≤ stats.tokens := by
  intro config text verdict response
  cases hblank : Text.isAllBlank text with
  | true => exact Or.inl ⟨rfl, if_pos hblank⟩
  | false =>
    have hresponse := fulfil_of_not_blank hblank hworker
    rcases hrules ▸ Rules.renderText_rules calls config text with
      ⟨error, hverdict, hrun⟩ | ⟨hverdict, result, stats, hrun, hblocks, hsentences, htokens⟩
    · exact Or.inr (Or.inl ⟨rfl, error, hverdict, hresponse.trans (congrArg answerTo hrun)⟩)
    · obtain ⟨block, hblock, found, hfound, token, htoken⟩ := config.input.exists_token hblank
      have hss := List.mem_flatMap.mpr ⟨block, hblock, hfound⟩
      refine Or.inr (Or.inr ⟨rfl, hverdict, result, stats, hrun,
        hresponse.trans (congrArg answerTo hrun), ?_, ?_, ?_⟩)
      · rw [hblocks]
        exact List.length_pos_of_mem hblock
      · rw [hsentences]
        exact List.length_pos_of_mem hss
      · rw [htokens]
        exact List.length_pos_of_mem (List.mem_flatten.mpr ⟨found, hss, htoken⟩)

/-- **The answer to an order.** The status is 400 exactly if the text is blank, or if the policy is
to reject crossing entities, the markup is inline and in some sentence of some block two entities
cross. The answer then says that the text is empty, or names the pair that is found in the first
such sentence. Any other order is met, with what its text is marked up as, and at least one block,
sentence and token is counted. -/
theorem respond_recognize {calls : List Rules.Call} (hrules : s.rules = Rules.ofCalls calls)
    (hworkers : s.WorkersOnlyRun) (hmethod : request.method = "POST")
    (hpath : request.path = "/recognize")
    (hjson : request.contentType.map MediaType.isJson = some true)
    (hsize : Text.size request.body.toList ≤ bodyLimit)
    (horder : Order.ofBody request.body = .ok order) :
    let config : Config := ⟨order.input.getD s.config.input, order.output.getD s.config.output,
      s.config.crossing⟩
    let text := order.data.toList
    let ss := (Block.ofText text).flatMap config.input.sentences
    let response := s.respond request
    (response.status = 400 ↔ Text.isAllBlank text = true ∨
      s.config.crossing = .reject ∧ (config.output = .xml ∨ config.output = .charSpan) ∧
        ∃ tokens ∈ ss, s.rules.FindsCrossing tokens) ∧
      (Text.isAllBlank text = true → response.body = .error "Texto vazio") ∧
      (response.status = 400 → Text.isAllBlank text = false →
        ∃ before tokens after a b, ss = before ++ tokens :: after ∧
          (∀ s' ∈ before, ¬ s.rules.FindsCrossing s') ∧ s.rules.FindsCrossing tokens ∧
          Entity.firstCrossing? (Entity.sort (s.rules.entities tokens.forms)) = some (a, b) ∧
          response.body = .error (MarkupError.crossingSpans a b).message) ∧
      (response.status ≠ 400 → response.status = 200 ∧
        ∃ result stats, (Rules.recognizer.renderText config text s.rules).1 = .ok (result, stats) ∧
          response.body = .markup model result stats ∧
          1 ≤ stats.blocks ∧ 1 ≤ stats.sentences ∧ 1 ≤ stats.tokens) := by
  intro config text ss response
  have hresponse : response = { s.fulfil order with headers := [anyOrigin] } :=
    s.respond_of_order hmethod hpath (orderOf_eq_ok_iff.mpr ⟨hjson, hsize, horder⟩)
  rw [hresponse]
  rcases fulfil_cases hrules (breaksOff_eq_false hworkers hsize horder _) with
    ⟨hblank, hfulfil⟩ | ⟨hfull, error, hsome, hfulfil⟩ |
      ⟨hfull, hnone, result, stats, hrun, hfulfil, hcounts⟩ <;> rw [hfulfil]
  · have hnotFull : ¬ Text.isAllBlank text = false := by
      rw [hblank]
      nofun
    exact ⟨⟨fun _ => Or.inl hblank, fun _ => rfl⟩, fun _ => rfl, fun _ h => absurd h hnotFull,
      fun h => absurd rfl h⟩
  · obtain ⟨hcrossing, hinline, before, tokens, after, a, b, hsplit, hbefore, hcross, hpair, rfl⟩ :=
      Recognizer.exists_of_verdict_eq_some hsome
    have htokens : tokens ∈ ss := by
      rw [show ss = before ++ tokens :: after from hsplit]
      exact List.mem_append_right before List.mem_cons_self
    have hnotBlank : ¬ Text.isAllBlank text = true := by
      rw [hfull]
      exact Bool.false_ne_true
    exact ⟨⟨fun _ => Or.inr ⟨hcrossing, hinline, tokens, htokens, hcross⟩, fun _ => rfl⟩,
      fun h => absurd h hnotBlank,
      fun _ _ => ⟨before, tokens, after, a, b, hsplit, hbefore, hcross, hpair, rfl⟩,
      fun h => absurd rfl h⟩
  · have hnotBlank : ¬ Text.isAllBlank text = true := by
      rw [hfull]
      exact Bool.false_ne_true
    have hmet : ¬ (200 : Nat) = 400 := by decide
    refine ⟨⟨fun h => absurd h hmet, ?_⟩, fun h => absurd h hnotBlank, fun h => absurd h hmet,
      fun _ => ⟨rfl, result, stats, hrun, rfl, hcounts⟩⟩
    rintro (hblank | hrefused)
    · exact absurd hblank hnotBlank
    · exact absurd hnone (Recognizer.verdict_ne_none_iff.mpr hrefused)

/-- So it is where two names share a word, and a worker breaks off just if an operation of its run
fails: the answer names both. -/
theorem respond_recognize_two_names :
    let calls : List Rules.Call := [.name "A" "a b".toList, .name "B" "b c".toList]
    let rules : Rules Pattern := Rules.ofCalls calls
    let breaksOff (config : Config) (text : Text) : Bool :=
      (Rules.recognizer.process? (fun a b => some (a + b)) config text.utf8 rules {}).isNone
    let s : Service Pattern := ⟨rules, ⟨.untokenized, .xml, .reject⟩, breaksOff⟩
    let request : Request := ⟨"POST", "/recognize", [("Content-Type", "application/json")],
      "\x7b\"data\": \"a b c\"\x7d"⟩
    let response := s.respond request
    (s.WorkersOnlyRun ∧ request.method = "POST" ∧ request.path = "/recognize" ∧
        request.contentType.map MediaType.isJson = some true ∧
        Text.size request.body.toList ≤ bodyLimit ∧
        Order.ofBody request.body = .ok ⟨"a b c", none, none⟩) ∧
      response.status = 400 ∧ response.body = .error "spans cruzados: A(0..2) e B(1..3)" := by
  intro calls rules breaksOff s request response
  have hrules : s.rules = Rules.ofCalls calls := rfl
  have hworkers : s.WorkersOnlyRun := fun _ _ => Option.isNone_iff_eq_none.mp
  have hpath : request.path = "/recognize" := by decide +kernel
  have hjson : request.contentType.map MediaType.isJson = some true := by decide +kernel
  have hsize : Text.size request.body.toList ≤ bodyLimit := by decide +kernel
  have horder : Order.ofBody "\x7b\"data\": \"a b c\"\x7d" = .ok ⟨"a b c", none, none⟩ := by rfl
  let tokens : Sentence := [.ofForm ['a'] 0 0, .ofForm ['b'] 2 1, .ofForm ['c'] 4 2]
  have hsentences : (Block.ofText "a b c".toList).flatMap InputFormat.untokenized.sentences
      = [tokens] := by decide +kernel
  have hpair : Entity.firstCrossing? (Entity.sort (s.rules.entities tokens.forms))
      = some (⟨0, 2, "A"⟩, ⟨1, 2, "B"⟩) := by decide +kernel
  have hcross : s.rules.FindsCrossing tokens := by
    obtain ⟨ha, hb, hcross⟩ := Entity.crosses_of_firstCrossing? hpair
    exact ⟨_, Entity.mem_sort.mp ha, _, Entity.mem_sort.mp hb, hcross⟩
  obtain ⟨hstatus, -, hrefused, -⟩ :=
    respond_recognize hrules hworkers rfl hpath hjson hsize horder
  have htokens : tokens
      ∈ (Block.ofText "a b c".toList).flatMap InputFormat.untokenized.sentences := by
    rw [hsentences]
    exact List.mem_cons_self
  have h400 : response.status = 400 :=
    hstatus.mpr (Or.inr ⟨rfl, Or.inl rfl, tokens, htokens, hcross⟩)
  obtain ⟨before, found, after, a, b, hsplit, -, -, hfound, hbody⟩ :=
    hrefused h400 (by decide +kernel)
  -- there is one sentence only, and one pair in it
  have hmem : found ∈ [tokens] := by
    rw [← hsentences, show (Block.ofText "a b c".toList).flatMap InputFormat.untokenized.sentences
      = before ++ found :: after from hsplit]
    exact List.mem_append_right before List.mem_cons_self
  rw [List.mem_singleton.mp hmem] at hfound
  obtain ⟨rfl, rfl⟩ := Prod.mk.inj (Option.some.inj (hfound.symm.trans hpair))
  refine ⟨⟨hworkers, rfl, hpath, hjson, hsize, horder⟩, h400, hbody.trans (congrArg Body.error ?_)⟩
  decide +kernel

end Service

end EntityMarkup
