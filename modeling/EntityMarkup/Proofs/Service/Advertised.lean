import EntityMarkup.Proofs.Pipeline.Lossless
import EntityMarkup.Proofs.Recognizer.Labels
import EntityMarkup.Proofs.Service.Answers
import EntityMarkup.Recognizer.Replay

/-!
# The labels that are advertised

A recognizer says which labels its entities can have. Rules and replayed lists say it in ascending
order, and no entity that they find has another label, whatever they were asked before. So the
labels that the service names are all that can stand in what it marks up.

* `Reaches`: the states a recognizer comes to while it is asked and turned back.
* `advertises_of_step`: what one step keeps, and from it what a whole use of a recognizer keeps.
* `Rules.advertises`, `Replay.advertises`: both recognizers name all labels they find.
* `Service.exists_order_of_markup`: text that is marked up was ordered.
* **`advertised_labels`**: the labels named by recognizers and by the service.
-/

namespace EntityMarkup

/-! ## Use of a recognizer -/

namespace Recognizer

variable {σ : Type} {r : Recognizer σ} {back : σ → σ} {s s' : σ}

/-- The states to which a recognizer comes from a state when it is asked about sentences and, in
between, turned back. -/
inductive Reaches (r : Recognizer σ) (back : σ → σ) (s : σ) : σ → Prop where
  | start : Reaches r back s s
  | asked {s' : σ} (forms : List Text) : Reaches r back s s' →
      Reaches r back s (r.recognize s' forms).2
  | turned {s' : σ} : Reaches r back s s' → Reaches r back s (back s')

/-- A recognizer names its labels in the ascending order of their bytes, each once, and always the
same; and however it is used, it finds no entity with another label. -/
structure Advertises (r : Recognizer σ) (back : σ → σ) (s : σ) : Prop where
  ascending : (r.labels s).Pairwise fun a b => Text.utf8 a.toList < Text.utf8 b.toList
  steady : ∀ s', Reaches r back s s' → r.labels s' = r.labels s
  covers : ∀ s', Reaches r back s s' → ∀ forms found s'',
    r.recognize s' forms = (.ok found, s'') → ∀ e ∈ found, e.label ∈ r.labels s

/-- Labels that no step changes, and that are named in each state for what is found in it, are
named for all that is found from there on. -/
theorem advertises_of_step
    (hascending : (r.labels s).Pairwise fun a b => Text.utf8 a.toList < Text.utf8 b.toList)
    (hasked : ∀ s forms, r.labels (r.recognize s forms).2 = r.labels s)
    (hturned : ∀ s, r.labels (back s) = r.labels s)
    (hfound : ∀ s forms found s', r.recognize s forms = (.ok found, s') →
      ∀ e ∈ found, e.label ∈ r.labels s) :
    Advertises r back s := by
  have hsteady : ∀ s', Reaches r back s s' → r.labels s' = r.labels s := by
    intro s' h
    induction h with
    | start => rfl
    | asked forms _ ih => rw [hasked, ih]
    | turned _ ih => rw [hturned, ih]
  refine ⟨hascending, hsteady, fun s' h forms found s'' hanswer e he => ?_⟩
  rw [← hsteady s' h]
  exact hfound s' forms found s'' hanswer e he

/-- What was found in the sentences of a run has the labels that were named before it. -/
theorem Advertises.label_mem_labels {s₁ : σ} {found : List Finding} (h : Advertises r back s)
    (hreach : Reaches r back s s₁) (hanswers : r.Answers s₁ found s') :
    ∀ f ∈ found, ∀ e ∈ f.2, e.label ∈ r.labels s := by
  induction found generalizing s₁ with
  | nil => exact fun f hf => absurd hf List.not_mem_nil
  | cons f rest ih =>
    obtain ⟨s₂, hanswer, hrest⟩ := hanswers
    have hnext : Reaches r back s s₂ := by
      have hasked := hreach.asked f.1.forms
      rwa [hanswer] at hasked
    exact List.forall_mem_cons.mpr ⟨h.covers s₁ hreach f.1.forms f.2 s₂ hanswer, ih hnext hrest⟩

end Recognizer

theorem pairwise_utf8_ascendingLabels (labels : List String) :
    (ascendingLabels labels).Pairwise fun a b => Text.utf8 a.toList < Text.utf8 b.toList :=
  (pairwise_ascendingLabels labels).imp fun h => Text.utf8_lt_utf8 (String.lt_iff.mp h)

/-! ## Rules -/

namespace Rules

variable {π : Type} [PatternLanguage π]

theorem label_mem_labels {rules : Rules π} {forms : List Text} {e : Entity}
    (h : e ∈ rules.entities forms) : e.label ∈ rules.labels := by
  simp only [labels, mem_ascendingLabels, List.mem_append, List.mem_cons, List.not_mem_nil,
    or_false]
  rcases mem_entities_iff.mp h with h | h | h | h
  · obtain ⟨words, ⟨names, hentry, -⟩, -⟩ := mem_knownNames_iff.mp h
    exact Or.inl (Or.inl (List.mem_map_of_mem hentry))
  · obtain ⟨i, -, -, -, rfl⟩ := mem_titledPersons_iff.mp h
    exact Or.inl (Or.inr (Or.inl rfl))
  · obtain ⟨i, -, -, -, rfl⟩ := mem_markedOrganizations_iff.mp h
    exact Or.inl (Or.inr (Or.inr rfl))
  · obtain ⟨pattern, hentry, -⟩ := mem_patternMatches_iff.mp h
    exact Or.inr (List.mem_map_of_mem hentry)

theorem label_mem_labels_of_recognize (rules : Rules π) (forms : List Text) (found : List Entity)
    (rules' : Rules π) (h : recognizer.recognize rules forms = (.ok found, rules')) :
    ∀ e ∈ found, e.label ∈ recognizer.labels rules := by
  cases h
  exact fun e he => label_mem_labels he

/-- **Rules name all labels that they find**, however they were built. They cannot be turned back,
since asking does not change them. -/
theorem advertises (rules : Rules π) : recognizer.Advertises id rules :=
  Recognizer.advertises_of_step (pairwise_utf8_ascendingLabels _) (fun _ _ => rfl) (fun _ => rfl)
    label_mem_labels_of_recognize

end Rules

/-! ## Replayed lists -/

namespace Replay

theorem label_mem_labels {r : Replay} {e : Entity} (h : e ∈ r.entities) :
    e.label ∈ recognizer.labels r := by
  have hlist : r.entities ∈ r.sentences ∨ r.entities = [] := by
    unfold entities
    cases hnext : r.sentences[r.next]? with
    | none => exact Or.inr rfl
    | some found => exact Or.inl (List.mem_of_getElem? hnext)
  rcases hlist with hlist | hnone
  · exact mem_ascendingLabels.mpr
      (List.mem_map_of_mem (List.mem_flatten.mpr ⟨_, hlist, h⟩))
  · rw [hnone] at h
    cases h

/-- **Replayed lists name all labels that they hold**, whichever of them comes next. -/
theorem advertises (r : Replay) : recognizer.Advertises rewind r := by
  refine Recognizer.advertises_of_step (pairwise_utf8_ascendingLabels _) (fun _ _ => rfl)
    (fun _ => rfl) fun s forms found s' h => ?_
  cases h
  exact fun e he => label_mem_labels he

end Replay

/-! ## The service -/

namespace Service

variable {π : Type} [PatternLanguage π] {s : Service π} {request : Request} {name : String}
  {result : Text} {stats : Stats}

/-- The service names the labels of its rules. -/
theorem respond_labels (s : Service π) (hmethod : request.method = "GET")
    (hpath : request.path = "/entity-types") :
    s.respond request = ⟨200, .labels model s.rules.labels, [anyOrigin]⟩ := by
  unfold respond route readOnly
  rw [hmethod, hpath]
  simp

/-- An order that is met was marked up. -/
theorem renderText_of_fulfil {order : Order}
    (h : (s.fulfil order).body = .markup name result stats) :
    (Rules.recognizer.renderText (s.effectiveConfig order) order.data.toList s.rules).1 =
      .ok (result, stats) := by
  unfold fulfil at h
  dsimp only at h
  split at h
  · cases h
  · split at h
    · cases h
    · split at h
      · rename_i hrun
        cases h
        rw [hrun]
      · cases h

theorem readOnly_ne_markup {body : Body} (hbody : body ≠ .markup name result stats) :
    (readOnly request body).body ≠ .markup name result stats := by
  unfold readOnly
  split
  · exact hbody
  · split <;> nofun

/-- Text that is marked up was ordered. -/
theorem exists_order_of_markup (h : (s.respond request).body = .markup name result stats) :
    ∃ order, Order.ofBody request.body = .ok order ∧
      (Rules.recognizer.renderText (s.effectiveConfig order) order.data.toList s.rules).1 =
        .ok (result, stats) := by
  have hrecognize : (s.recognize request).body = .markup name result stats := by
    unfold respond route at h
    split at h
    · cases h
    · simp only at h
      split at h
      · split at h
        · exact h
        · cases h
      · split at h
        · exact absurd h (readOnly_ne_markup nofun)
        · split at h
          · exact absurd h (readOnly_ne_markup nofun)
          · cases h
  unfold recognize at hrecognize
  split at hrecognize
  · rename_i order horder
    exact ⟨order, (orderOf_eq_ok_iff.mp horder).2.2, renderText_of_fulfil hrecognize⟩
  · cases hrecognize

/-- Text that is marked up was rendered from pages, and no entity on them has a label that the
service does not name; neither has a tag, where entities are written as tags. -/
theorem labels_of_markup (h : (s.respond request).body = .markup name result stats) :
    ∃ order, Order.ofBody request.body = .ok order ∧
      let config := s.effectiveConfig order
      ∃ pages rules events, pages.map Page.block = Block.ofText order.data.toList ∧
        Rules.recognizer.Answers s.rules (pages.flatMap Page.found) rules ∧
        Page.renderAll config {} pages = .ok events ∧ result = Event.written events ∧
        (∀ f ∈ pages.flatMap Page.found, ∀ e ∈ f.2, e.label ∈ s.rules.labels) ∧
        (config.output = .xml ∨ config.output = .charSpan →
          ∃ marks, result = marks.flatMap Mark.text ∧
            Mark.LabelsAre (· ∈ s.rules.labels) marks) := by
  obtain ⟨order, horder, hrun⟩ := exists_order_of_markup h
  obtain ⟨pages, rules, events, hblocks, hfound, hanswers, hrender, rfl, -⟩ :=
    Recognizer.renderText_eq_ok_iff.mp hrun
  have hlabels : ∀ f ∈ pages.flatMap Page.found, ∀ e ∈ f.2, e.label ∈ s.rules.labels :=
    s.rules.advertises.label_mem_labels .start hanswers
  refine ⟨order, horder, pages, rules, events, hblocks, hanswers, hrender, rfl, hlabels,
    fun hinline => ?_⟩
  obtain ⟨markup, hmarkup⟩ :=
    Option.isSome_iff_exists.mp (OutputFormat.isSome_markup?_iff.mpr hinline)
  obtain ⟨marks, hwritten, hmarks, -⟩ := Page.exists_marks_renderAll hmarkup hrender hlabels
    fun page hpage => Page.inOrder_of_sentences (hfound page hpage)
  exact ⟨marks, hwritten, hmarks⟩

end Service

/-! ## All that is advertised -/

/-- **The labels that are advertised cover all that is found.** Rules, whatever they were to begin
with and whatever calls added to them, and lists that are replayed name their labels in the
ascending order of their bytes, and never find an entity with another label. So the service, asked
for its labels, leaves out none of those that can stand in text which it marks up. -/
theorem advertised_labels {π : Type} [PatternLanguage π] :
    (∀ (base : Rules π) (calls : List Rules.Call),
      Rules.recognizer.Advertises id (calls.foldl Rules.call base)) ∧
    (∀ sentences : List (List Entity), Replay.recognizer.Advertises Replay.rewind ⟨sentences, 0⟩) ∧
    ∀ s : Service π,
      (∀ request : Service.Request, request.method = "GET" → request.path = "/entity-types" →
        s.respond request = ⟨200, .labels Service.model s.rules.labels, [Service.anyOrigin]⟩) ∧
      ∀ (request : Service.Request) (name : String) (result : Text) (stats : Stats),
        (s.respond request).body = .markup name result stats →
        ∃ order, Service.Order.ofBody request.body = .ok order ∧
          let config := s.effectiveConfig order
          ∃ pages rules events, pages.map Page.block = Block.ofText order.data.toList ∧
            Rules.recognizer.Answers s.rules (pages.flatMap Page.found) rules ∧
            Page.renderAll config {} pages = .ok events ∧ result = Event.written events ∧
            (∀ f ∈ pages.flatMap Page.found, ∀ e ∈ f.2, e.label ∈ s.rules.labels) ∧
            (config.output = .xml ∨ config.output = .charSpan →
              ∃ marks, result = marks.flatMap Mark.text ∧
                Mark.LabelsAre (· ∈ s.rules.labels) marks) :=
  ⟨fun _ _ => Rules.advertises _, fun _ => Replay.advertises _,
    fun s => ⟨fun _ => s.respond_labels, fun _ _ _ _ => Service.labels_of_markup⟩⟩

/-- So it is with one name, and with lists of which the second is replayed. -/
theorem advertised_labels_one_name :
    let s : Service Pattern :=
      ⟨Rules.ofCalls [.name "LOC" "Praga".toList], {}, fun _ _ => false⟩
    let order : Service.Request := ⟨"POST", "/recognize", [("Content-Type", "application/json")],
      "\x7b\"data\": \"Praga\"\x7d"⟩
    let output : Text :=
      "<sentence><ne type=\"LOC\"><token>Praga</token></ne></sentence>".toList
    s.respond ⟨"GET", "/entity-types", [], ""⟩ =
        ⟨200, .labels Service.model ["LOC", "ORG", "PER"], [Service.anyOrigin]⟩ ∧
      (s.respond order).body = .markup Service.model output ⟨1, 1, 1, 1⟩ ∧
      (∃ marks, output = marks.flatMap Mark.text ∧
        Mark.LabelsAre (· ∈ ["LOC", "ORG", "PER"]) marks) ∧
      ∀ e ∈ (Replay.advance ⟨[[], [⟨0, 1, "MISC"⟩]], 0⟩).entities, e.label ∈ ["MISC"] := by
  intro s order output
  obtain ⟨-, hreplay, hservice⟩ := @advertised_labels Pattern _
  have hlabels : s.rules.labels = ["LOC", "ORG", "PER"] := by decide +kernel
  have hjson : order.contentType.map MediaType.isJson = some true := by decide +kernel
  have horder : Service.Order.ofBody "\x7b\"data\": \"Praga\"\x7d" =
      .ok ⟨"Praga", none, none⟩ := by rfl
  have hrun : (Rules.recognizer.renderText {} "Praga".toList s.rules).1 =
      .ok (output, ⟨1, 1, 1, 1⟩) := by decide +kernel
  have hbody : (s.respond order).body = .markup Service.model output ⟨1, 1, 1, 1⟩ := by
    rw [Service.respond_of_order s rfl (by decide +kernel)
        (Service.orderOf_eq_ok_iff.mpr ⟨hjson, by decide +kernel, horder⟩),
      Service.fulfil_of_not_blank (by decide +kernel) rfl]
    exact congrArg (fun answer => (Service.answerTo answer).body) hrun
  obtain ⟨found, hfound, pages, rules, events, -, -, -, -, -, hmarks⟩ :=
    (hservice s).2 order _ _ _ hbody
  obtain rfl := Except.ok.inj (horder.symm.trans hfound)
  refine ⟨?_, hbody, ?_, fun e he => ?_⟩
  · rw [(hservice s).1 _ rfl (by decide +kernel), hlabels]
  · rw [← hlabels]
    exact hmarks (Or.inl rfl)
  · exact (hreplay [[], [⟨0, 1, "MISC"⟩]]).covers _ (.asked [] .start) [] _ _ rfl e he

end EntityMarkup
