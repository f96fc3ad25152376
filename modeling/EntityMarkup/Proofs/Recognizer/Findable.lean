import EntityMarkup.Pattern.Language
import EntityMarkup.Proofs.Pipeline.Pages
import EntityMarkup.Proofs.Recognizer.Findings
import EntityMarkup.Proofs.Render.Whole
import EntityMarkup.Proofs.Text.LineBreaks

/-!
# Names that are found in running text

A name is kept as its words, which white space divides; running text is cut at word boundaries, and
its tokens are joined to abbreviations and grouped into sentences. Where the two disagree the name
is kept but never found: `COVID-19` is one word and three tokens.

* `Rules.FindsWhole`: an entity is found that is a whole text; `Rules.findsWhole_iff_of_renderText`:
  where the text is marked up, that is what is rendered.
* `Findable`: words that are tokens again when they are put one space apart, all in one sentence.
* `Rules.findsWhole_spaced_iff`: to find the whole of some words is to find all tokens of their only
  sentence.
* **`Rules.findsWhole_addName_iff`**: a name that is added makes rules find the whole of it exactly
  if its words are findable, and nothing else does that they did not do before.
-/

namespace EntityMarkup

open Text (IsWord spaced)

/-- Words that are tokens of their own, none attached to the space before it, and that stay in one
sentence: behind final punctuation there is nothing else. -/
structure Findable (words : List Text) : Prop where
  single : ∀ w ∈ words, Running.forms w = [w]
  detached : ∀ v ∈ words.tail, v.isAttached = false
  together : words.Pairwise fun v w => v ∈ Running.terminals → w ∈ Running.terminals

namespace Rules

variable {π : Type} [PatternLanguage π] {rules : Rules π} {label : String} {name : Text}
  {words forms : List Text}

/-- In some sentence of a text that is read as running text, rules find an entity with a label that
is the whole text. -/
def FindsWhole (rules : Rules π) (label : String) (text : Text) : Prop :=
  ∃ block, Block.Item.block block ∈ Block.items text.utf8 ∧
    ∃ tokens ∈ InputFormat.untokenized.sentences block,
      ∃ found, (recognizer.recognize rules tokens.forms).1 = .ok found ∧
        ∃ e ∈ found, e.label = label ∧ e.isSpanOf tokens.length = true ∧
          block.slice? (Flat.startOffset tokens e) (Flat.stopOffset tokens e) = some text

/-- What rules answer are the entities of each sentence. -/
theorem eq_entities_of_answers {rules' : Rules π} {found : List Finding}
    (h : recognizer.Answers rules found rules') :
    ∀ f ∈ found, f.2 = rules.entities f.1.forms := by
  induction found with
  | nil => exact nofun
  | cons f rest ih =>
    obtain ⟨_, hanswer, hrest⟩ := h
    obtain ⟨hentities, rfl⟩ := Prod.mk.inj hanswer
    exact List.forall_mem_cons.mpr ⟨(Except.ok.inj hentities).symm, ih hrest⟩

/-- **What is found is rendered**: where a text is marked up, the output is that of pages, and one
of them has an entity on it that is the whole text exactly if rules find one. -/
theorem findsWhole_iff_of_renderText {config : Config} {text output : Text} {stats : Stats}
    (hinput : config.input = .untokenized)
    (h : (recognizer.renderText config text rules).1 = .ok (output, stats)) :
    ∃ pages events, Page.renderAll config {} pages = .ok events ∧ output = Event.written events ∧
      (rules.FindsWhole label text ↔
        ∃ page ∈ pages, ∃ f ∈ page.found, ∃ e ∈ f.2, e.label = label ∧
          e.isSpanOf f.1.length = true ∧
          page.block.slice? (Flat.startOffset f.1 e) (Flat.stopOffset f.1 e) = some text) := by
  obtain ⟨pages, rules', events, hblocks, hfound, hanswers, hrender, rfl, -⟩ :=
    Recognizer.renderText_eq_ok_iff.mp h
  rw [hinput] at hfound
  have hentities := eq_entities_of_answers hanswers
  refine ⟨pages, events, hrender, rfl, ?_⟩
  constructor
  · rintro ⟨block, hblock, tokens, htokens, found, hanswer, e, he, hwhole⟩
    rw [Block.items_utf8, ← hblocks, List.map_map] at hblock
    obtain ⟨page, hpage, heq⟩ := List.mem_map.mp hblock
    obtain rfl := Block.Item.block.inj heq
    rw [← hfound page hpage] at htokens
    obtain ⟨f, hf, rfl⟩ := List.mem_map.mp htokens
    obtain rfl := Except.ok.inj hanswer
    rw [← hentities f (List.mem_flatMap.mpr ⟨page, hpage, hf⟩)] at he
    exact ⟨page, hpage, f, hf, e, he, hwhole⟩
  · rintro ⟨page, hpage, f, hf, e, he, hwhole⟩
    refine ⟨page.block, ?_, f.1, ?_, _, rfl, e, ?_, hwhole⟩
    · rw [Block.items_utf8, ← hblocks, List.map_map]
      exact List.mem_map.mpr ⟨page, hpage, rfl⟩
    · rw [← hfound page hpage]
      exact List.mem_map_of_mem hf
    · rwa [← hentities f (List.mem_flatMap.mpr ⟨page, hpage, hf⟩)]

/-! ## Finding all tokens of a text -/

theorem items_spaced (hwords : ∀ w ∈ words, IsWord w) (hne : words ≠ []) :
    Block.items (spaced words).utf8 = [.block (spaced words)] := by
  refine Block.items_utf8_of_lineFeed_not_mem (fun hfeed => ?_)
    (Bool.eq_false_iff.mpr fun hline => ?_)
  · rcases Text.eq_space_or_mem_of_mem_spaced hfeed with hspace | ⟨w, hw, hfeed⟩
    · cases hspace
    · cases (hwords w hw).noBlank '\n' hfeed
  · obtain ⟨w, hw, c, hc, hhead⟩ :=
      Text.exists_head?_spaced (fun w hw => (hwords w hw).nonempty) hne
    have hblank := List.all_eq_true.mp (Text.isAllBlank_of_isBlankLine hline) c
      (List.mem_of_head? hhead)
    rw [(hwords w hw).noBlank c hc] at hblank
    cases hblank

/-- **To find the whole of some words is to find all tokens of their only sentence.** -/
theorem findsWhole_spaced_iff (hwords : ∀ w ∈ words, IsWord w) (hne : words ≠ []) :
    rules.FindsWhole label (spaced words) ↔
      (Running.forms (spaced words) ≠ [] ∧
        (Running.forms (spaced words)).Pairwise
          fun v w => v ∈ Running.terminals → w ∈ Running.terminals) ∧
      ⟨0, (Running.forms (spaced words)).length, label⟩ ∈
        rules.entities (Running.forms (spaced words)) := by
  have hfull : ∀ w ∈ words, w ≠ [] := fun w hw => (hwords w hw).nonempty
  obtain ⟨w, hw, c, hc, hhead⟩ := Text.exists_head?_spaced hfull hne
  obtain ⟨v, hv, d, hd, hlast⟩ := Text.exists_getLast?_spaced hfull hne
  have hforms : ∀ tokens, Running.sentences (spaced words) = [tokens] →
      Running.forms (spaced words) = Sentence.forms tokens := by
    intro tokens hone
    rw [← Running.map_form_flatten_sentences, hone, List.flatten_singleton]
    rfl
  have hwhole : ∀ tokens ∈ Running.sentences (spaced words), ∀ e : Entity,
      e.isSpanOf tokens.length = true →
      ((spaced words).slice? (Flat.startOffset tokens e) (Flat.stopOffset tokens e) =
          some (spaced words) ↔
        Running.sentences (spaced words) = [tokens] ∧ e.start = 0 ∧ e.length = tokens.length) :=
    fun tokens htokens e hspan => InputFormat.slice?_offsets_eq_some_self_iff .untokenized hhead
      ((hwords w hw).noBlank c hc) hlast ((hwords v hv).noBlank d hd) htokens hspan
  rw [← Running.exists_sentences_eq_singleton_iff]
  constructor
  · rintro ⟨block, hblock, tokens, htokens, found, hfound, e, he, rfl, hspan, hslice⟩
    rw [items_spaced hwords hne, List.mem_singleton] at hblock
    obtain rfl := Block.Item.block.inj hblock
    obtain rfl := Except.ok.inj hfound
    obtain ⟨hone, hstart, hlength⟩ := (hwhole tokens htokens e hspan).mp hslice
    have hentity : e = ⟨0, (Sentence.forms tokens).length, e.label⟩ := by
      rw [Sentence.forms, List.length_map, ← hstart, ← hlength]
    rw [hforms tokens hone, ← hentity]
    exact ⟨⟨tokens, hone⟩, he⟩
  · rintro ⟨⟨tokens, hone⟩, hfound⟩
    have htokens : tokens ∈ Running.sentences (spaced words) := by
      rw [hone]
      exact List.mem_singleton_self tokens
    have hlength : (Sentence.forms tokens).length = tokens.length := List.length_map _
    rw [hforms tokens hone, hlength] at hfound
    have hspan : Entity.isSpanOf ⟨0, tokens.length, label⟩ tokens.length = true := by
      rw [Entity.isSpanOf_iff]
      have hne : tokens ≠ [] := @InputFormat.ne_nil_of_mem_sentences .untokenized _ _ htokens
      exact ⟨fun hzero => hne (List.length_eq_zero_iff.mp hzero), Nat.le_of_eq (Nat.zero_add _)⟩
    refine ⟨spaced words, ?_, tokens, htokens, _, rfl, _, hfound, rfl, hspan, ?_⟩
    · rw [items_spaced hwords hne]
      exact List.mem_singleton_self _
    · exact (hwhole tokens htokens _ hspan).mpr ⟨hone, rfl, rfl⟩

omit [PatternLanguage π] in
/-- Known names that are all of a sentence are known by all of its words. -/
theorem whole_mem_knownNames_iff {lowered : List Text} :
    ⟨0, lowered.length, label⟩ ∈ rules.knownNames lowered ↔ rules.Knows label lowered := by
  rw [mem_knownNames_iff]
  constructor
  · rintro ⟨words, hknown, -, -, hwords⟩
    rw [List.drop_zero, List.take_length] at hwords
    rwa [hwords]
  · intro hknown
    refine ⟨lowered, hknown, rfl, Nat.le_of_eq (Nat.zero_add _), ?_⟩
    rw [List.drop_zero, List.take_length]

/-- A name that is added is all of a sentence if its words are all the forms, in any case. -/
theorem whole_mem_entities_addName_iff (hname : name.words ≠ []) :
    ⟨0, forms.length, label⟩ ∈ (rules.addName label name).entities forms ↔
      forms.map Unicode.toLower = name.words.map Unicode.toLower ∨
        ⟨0, forms.length, label⟩ ∈ rules.entities forms := by
  have hpatterns : (rules.addName label name).patternMatches forms =
      rules.patternMatches forms := by
    rw [patternMatches, patterns_addName, patternMatches]
  have hlength : forms.length = (forms.map Unicode.toLower).length := (List.length_map _).symm
  have hne : name.words.map Unicode.toLower ≠ [] := fun hnil => hname (List.map_eq_nil_iff.mp hnil)
  rw [mem_entities_iff, mem_entities_iff, hpatterns, hlength, whole_mem_knownNames_iff,
    whole_mem_knownNames_iff, knows_addName_iff, or_assoc]
  refine or_congr_left ⟨fun h => h.2.1, fun h => ⟨rfl, h, ?_⟩⟩
  rwa [h]

/-! ## Finding names -/

/-- Findable words are those that are the tokens of a sentence, in any case, when they are put one
space apart. -/
theorem findable_iff (hwords : ∀ w ∈ words, IsWord w) (hne : words ≠ []) :
    Findable words ↔
      (Running.forms (spaced words) ≠ [] ∧
        (Running.forms (spaced words)).Pairwise
          fun v w => v ∈ Running.terminals → w ∈ Running.terminals) ∧
      (Running.forms (spaced words)).map Unicode.toLower = words.map Unicode.toLower := by
  have hforms : (∀ w ∈ words, Running.forms w = [w]) →
      (∀ v ∈ words.tail, v.isAttached = false) → Running.forms (spaced words) = words := by
    intro hsingle hdetached
    rw [Running.forms_spaced hwords hdetached, List.flatMap_congr hsingle, List.flatMap_singleton']
  constructor
  · rintro ⟨hsingle, hdetached, htogether⟩
    rw [hforms hsingle hdetached]
    exact ⟨⟨hne, htogether⟩, rfl⟩
  · rintro ⟨⟨-, htogether⟩, hlower⟩
    obtain ⟨hsingle, hdetached⟩ := (Running.map_toLower_forms_spaced_iff hwords).mp hlower
    rw [hforms hsingle hdetached] at htogether
    exact ⟨hsingle, hdetached, htogether⟩

/-- **Which names are found in running text**: a name that is added makes rules find the whole of it
exactly if its words are findable; if they are not, the rules find it only if they did so before. -/
theorem findsWhole_addName_iff (rules : Rules π) (label : String) {name : Text}
    (hname : name.words ≠ []) :
    (rules.addName label name).FindsWhole label (spaced name.words) ↔
      Findable name.words ∨ rules.FindsWhole label (spaced name.words) := by
  have hwords : ∀ w ∈ name.words, IsWord w := fun w => Text.isWord_of_mem_words
  rw [findsWhole_spaced_iff hwords hname, findsWhole_spaced_iff hwords hname,
    whole_mem_entities_addName_iff hname, findable_iff hwords hname, and_or_left]

/-- Words of letters are findable. -/
theorem findsWhole_addName_letters :
    Text.words "Rio de Janeiro".toList ≠ [] ∧
      (addName ({} : Rules Pattern) "LOC" "Rio de Janeiro".toList).FindsWhole "LOC"
        (spaced (Text.words "Rio de Janeiro".toList)) := by
  have hname : Text.words "Rio de Janeiro".toList ≠ [] := by decide +kernel
  have hfindable : Findable (Text.words "Rio de Janeiro".toList) :=
    ⟨by decide +kernel, by decide +kernel, by decide +kernel⟩
  exact ⟨hname, (findsWhole_addName_iff {} "LOC" hname).mpr (Or.inl hfindable)⟩

/-- A word with a hyphen is three tokens, and not found. -/
theorem not_forall_findsWhole_addName :
    ¬ ∀ (rules : Rules Pattern) (label : String) (name : Text), name.words ≠ [] →
      (rules.addName label name).FindsWhole label (spaced name.words) := by
  intro h
  have hfound := h {} "MISC" "COVID-19".toList (by decide +kernel)
  rw [findsWhole_spaced_iff (fun w => Text.isWord_of_mem_words) (by decide +kernel)] at hfound
  revert hfound
  decide +kernel

end Rules

end EntityMarkup
