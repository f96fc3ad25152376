import EntityMarkup.Proofs.Pipeline.Course

/-!
# Runs that go on in step

Two runs of a recognizer whose answers depend on nothing but the forms go on in step where their
renderers do: they end with the same error or both succeed, they count the same, and what they hand
to the sink is related turn by turn. Whatever one has counted before stays what it is ahead.

`Course.Alike` says this of two courses. What has to be known of two configurations is said of one
sentence and of the beginning and the end of a block (`InStep`), and carried through a run once.

* `Alike.andThen`, `Alike.ending`, `Alike.events`: what two such courses come to.
* **`InStep.itemsCourse`**: runs in two configurations whose renderers go on in step.
-/

namespace EntityMarkup

namespace Stats

/-- What has been processed in two parts. -/
instance : Add Stats where
  add s t :=
    ⟨s.blocks + t.blocks, s.sentences + t.sentences, s.tokens + t.tokens, s.entities + t.entities⟩

theorem add_def (s t : Stats) :
    s + t = ⟨s.blocks + t.blocks, s.sentences + t.sentences, s.tokens + t.tokens,
      s.entities + t.entities⟩ :=
  rfl

theorem add_addSentence (s t : Stats) (tokens : Sentence) (entities : List Entity) :
    s + t.addSentence tokens entities = (s + t).addSentence tokens entities := by
  simp only [add_def, addSentence, Nat.add_assoc]

theorem add_addBlock (s t : Stats) : s + t.addBlock = (s + t).addBlock :=
  rfl

@[simp] theorem add_empty (s : Stats) : s + {} = s :=
  rfl

@[simp] theorem empty_add (s : Stats) : ({} : Stats) + s = s := by
  simp only [add_def, Nat.zero_add]

end Stats

namespace Course

variable {σ α β α' β' : Type} {R : List Event → List Event → Prop} {ahead : Stats}
  {S : α → β → Prop} {S' : α' → β' → Prop} {c : Course σ α} {d : Course σ β}

/-- The second course does what the first does, as far as the relations tell, and is `ahead` of it
by what it has counted before. -/
inductive Alike (R : List Event → List Event → Prop) (ahead : Stats) (S : α → β → Prop) :
    Course σ α → Course σ β → Prop
  | ok {a : α} {b : β} : S a b → ∀ state state' stats,
      Alike R ahead S (.ends (.ok a) state stats) (.ends (.ok b) state' (ahead + stats))
  | error (e : MarkupError) (state state' : σ) (stats : Stats) :
      Alike R ahead S (.ends (.error e) state stats) (.ends (.error e) state' (ahead + stats))
  | turn {events events' : List Event} {c : Course σ α} {d : Course σ β} : R events events' →
      ∀ state state' stats, Alike R ahead S c d →
        Alike R ahead S (.turn events state stats c) (.turn events' state' (ahead + stats) d)

/-- Courses that go on alike are alike. -/
theorem Alike.andThen (h : Alike R ahead S c d) {next : α → σ → Stats → Course σ α'}
    {next' : β → σ → Stats → Course σ β'}
    (hnext : ∀ {a b}, S a b → ∀ state state' stats,
      Alike R ahead S' (next a state stats) (next' b state' (ahead + stats))) :
    Alike R ahead S' (c.andThen next) (d.andThen next') := by
  induction h with
  | ok hab state state' stats => exact hnext hab state state' stats
  | error e state state' stats => exact .error e state state' stats
  | turn hevents state state' stats _ ih => exact .turn hevents state state' stats ih

/-- **They end alike.** -/
theorem Alike.ending (h : Alike R ahead S c d) :
    d.ending.2.2 = ahead + c.ending.2.2 ∧
      ((∃ e, c.ending.1 = .error e ∧ d.ending.1 = .error e) ∨
        ∃ a b, c.ending.1 = .ok a ∧ d.ending.1 = .ok b ∧ S a b) := by
  induction h with
  | ok hab state state' stats => exact ⟨rfl, Or.inr ⟨_, _, rfl, rfl, hab⟩⟩
  | error e state state' stats => exact ⟨rfl, Or.inl ⟨e, rfl, rfl⟩⟩
  | turn _ state state' stats _ ih => exact ih

/-- **What they hand to the sink is related**, if the relation is kept when events are put
together. -/
theorem Alike.events (h : Alike R ahead S c d) (hnil : R [] [])
    (happend : ∀ {xs xs' ys ys'}, R xs xs' → R ys ys' → R (xs ++ ys) (xs' ++ ys')) :
    R c.events d.events := by
  induction h with
  | ok => exact hnil
  | error => exact hnil
  | turn hevents state state' stats _ ih =>
    rw [events_turn, events_turn]
    exact happend hevents ih

end Course

/-! ## Configurations in step -/

/-- Blocks are rendered in step in two configurations: their renderers are related from the
beginning, a sentence fails with the same error in both, or in neither, and keeps them related; and
the counters for the next block are related again. -/
structure InStep (config config' : Config) (R : List Event → List Event → Prop)
    (T : Renderer → Renderer → Prop) (S : LineCounter → LineCounter → Prop) : Prop where
  input : config'.input = config.input
  begins : ∀ {counter counter'}, S counter counter' → ∀ block,
    T ⟨config.output, config.crossing, block, counter, 0, 0⟩
      ⟨config'.output, config'.crossing, block, counter', 0, 0⟩
  sentence : ∀ {r r'}, T r r' → ∀ tokens entities,
    (∃ e, r.sentence tokens entities = .error e ∧ r'.sentence tokens entities = .error e) ∨
      ∃ events r₁ events' r₁', r.sentence tokens entities = .ok (events, r₁) ∧
        r'.sentence tokens entities = .ok (events', r₁') ∧ R events events' ∧ T r₁ r₁'
  finish : ∀ {r r'}, T r r' → R r.finish.1 r'.finish.1 ∧ S r.finish.2 r'.finish.2

namespace InStep

variable {σ : Type} {r : Recognizer σ} {f : List Text → Except MarkupError (List Entity)}
  {config config' : Config} {R : List Event → List Event → Prop} {T : Renderer → Renderer → Prop}
  {S : LineCounter → LineCounter → Prop} {counter counter' : LineCounter}

theorem sentencesCourse (h : InStep config config' R T S)
    (hpure : ∀ s forms, (r.recognize s forms).1 = f forms) {renderer renderer' : Renderer}
    (hrelated : T renderer renderer') (sentences : List Sentence) (ahead : Stats)
    (state state' : σ) (stats : Stats) :
    Course.Alike R ahead T (r.sentencesCourse renderer sentences state stats)
      (r.sentencesCourse renderer' sentences state' (ahead + stats)) := by
  induction sentences generalizing renderer renderer' state state' stats with
  | nil => exact .ok hrelated state state' stats
  | cons tokens rest ih =>
    have hanswer := hpure state tokens.forms
    have hanswer' := hpure state' tokens.forms
    unfold Recognizer.sentencesCourse
    cases hrecognize : r.recognize state tokens.forms with
    | mk answer state₁ =>
      cases hrecognize' : r.recognize state' tokens.forms with
      | mk answer' state₁' =>
        rw [hrecognize] at hanswer
        rw [hrecognize'] at hanswer'
        obtain rfl : answer = answer' := hanswer.trans hanswer'.symm
        cases answer with
        | error e => exact .error e state₁ state₁' stats
        | ok entities =>
          simp only [← Stats.add_addSentence]
          rcases h.sentence hrelated tokens entities with
            ⟨e, hfails, hfails'⟩ | ⟨events, r₁, events', r₁', hruns, hruns', hevents, hkept⟩
          · rw [hfails, hfails']
            exact .error e state₁ state₁' _
          · rw [hruns, hruns']
            exact .turn hevents state₁ state₁' _ (ih hkept state₁ state₁' _)

theorem blockCourse (h : InStep config config' R T S)
    (hpure : ∀ s forms, (r.recognize s forms).1 = f forms) (hcounter : S counter counter')
    (block : Text) (ahead : Stats) (state state' : σ) (stats : Stats) :
    Course.Alike R ahead S (r.blockCourse config counter block state stats)
      (r.blockCourse config' counter' block state' (ahead + stats)) := by
  unfold Recognizer.blockCourse
  rw [h.input]
  refine (h.sentencesCourse hpure (h.begins hcounter block) (config.input.sentences block) ahead
    state state' stats).andThen fun hrelated state state' stats => ?_
  obtain ⟨hevents, hcounters⟩ := h.finish hrelated
  rw [← Stats.add_addBlock]
  exact .turn hevents state state' _ (.ok hcounters state state' _)

/-- **Runs whose renderers go on in step** are alike. -/
theorem itemsCourse (h : InStep config config' R T S)
    (hpure : ∀ s forms, (r.recognize s forms).1 = f forms) (hcounter : S counter counter')
    (items : List Block.Item) (ahead : Stats) (state state' : σ) (stats : Stats) :
    Course.Alike R ahead (fun _ _ => True) (r.itemsCourse config counter items state stats)
      (r.itemsCourse config' counter' items state' (ahead + stats)) := by
  induction items generalizing counter counter' state state' stats with
  | nil => exact .ok trivial state state' stats
  | cons item rest ih =>
    cases item with
    | unreadable => exact .error (.io .unreadable) state state' stats
    | block block =>
      exact (h.blockCourse hpure hcounter block ahead state state' stats).andThen
        fun hcounters state state' stats => ih hcounters state state' stats

/-- So are they when they end with their counts. -/
theorem statsCourse (h : InStep config config' R T S)
    (hpure : ∀ s forms, (r.recognize s forms).1 = f forms) (hcounter : S counter counter')
    (items : List Block.Item) (ahead : Stats) (state state' : σ) (stats : Stats) :
    Course.Alike R ahead (fun s s' => s' = ahead + s)
      ((r.itemsCourse config counter items state stats).andThen
        fun _ state stats => .ends (.ok stats) state stats)
      ((r.itemsCourse config' counter' items state' (ahead + stats)).andThen
        fun _ state stats => .ends (.ok stats) state stats) := by
  refine (h.itemsCourse hpure hcounter items ahead state state' stats).andThen
    fun _ state state' stats => ?_
  exact .ok (S := fun s s' => s' = ahead + s) rfl state state' stats

end InStep

end EntityMarkup
