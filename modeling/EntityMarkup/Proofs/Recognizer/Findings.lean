import EntityMarkup.Proofs.Entity.Nesting
import EntityMarkup.Recognizer.Rules

/-!
# What rules find

Rules are built by calls, one rule each; a call that fails or that gives a blank name adds nothing.
So no name is without words (`ne_nil_of_knows`), and each kind of rule tells where an entity stands
that it finds.

* `knows_ofCalls_iff`, `mem_patterns_ofCalls_iff`: the names and patterns that calls have added.
* `mem_knownNames_iff`, `mem_titledPersons_iff`, `mem_markedOrganizations_iff`,
  `mem_patternMatches_iff`: what each kind of rule finds.
* **`isSpanOf_of_mem_entities`**: all that is found are spans of the sentence.
-/

namespace EntityMarkup.Rules

variable {π : Type}

/-! ## Building rules -/

/-- A call that adds a rule. -/
inductive Call where
  | name (label : String) (name : Text)
  | pattern (label pattern : String)

/-- The rules after a call. -/
def call [PatternLanguage π] (rules : Rules π) : Call → Rules π
  | .name label name => rules.addName label name
  | .pattern label pattern =>
    match rules.addPattern label pattern with
    | .ok rules => rules
    | .error _ => rules

/-- The rules that calls build, one after the other, when there are none before. -/
def ofCalls [PatternLanguage π] (calls : List Call) : Rules π :=
  calls.foldl call {}

/-- Words, in lower case, stand under a label. -/
def KnownIn (known : List (String × List (List Text))) (label : String)
    (words : List Text) : Prop :=
  ∃ names, (label, names) ∈ known ∧ words ∈ names

/-- A name with these words, in lower case, is known under a label. -/
def Knows (rules : Rules π) : String → List Text → Prop :=
  KnownIn rules.gazetteers

variable {rules : Rules π} {calls : List Call} {label l : String} {words lowered forms : List Text}
  {e : Entity}

theorem not_knownIn_nil : ¬ KnownIn [] l words := by
  rintro ⟨names, hmem, -⟩
  cases hmem

theorem knownIn_cons_iff {names : List (List Text)} {rest : List (String × List (List Text))} :
    KnownIn ((label, names) :: rest) l words ↔
      (l = label ∧ words ∈ names) ∨ KnownIn rest l words := by
  constructor
  · rintro ⟨found, hmem, hwords⟩
    rcases List.mem_cons.mp hmem with heq | hmem
    · obtain ⟨rfl, rfl⟩ := Prod.mk.inj heq
      exact Or.inl ⟨rfl, hwords⟩
    · exact Or.inr ⟨found, hmem, hwords⟩
  · rintro (⟨rfl, hwords⟩ | ⟨found, hmem, hwords⟩)
    · exact ⟨names, List.mem_cons_self, hwords⟩
    · exact ⟨found, List.mem_cons_of_mem _ hmem, hwords⟩

theorem knownIn_insertName_iff {name : List Text} {known : List (String × List (List Text))} :
    KnownIn (insertName label name known) l words ↔
      (l = label ∧ words = name) ∨ KnownIn known l words := by
  induction known with
  | nil =>
    unfold insertName
    rw [knownIn_cons_iff, List.mem_singleton]
  | cons entry rest ih =>
    obtain ⟨other, names⟩ := entry
    unfold insertName
    split
    · rw [knownIn_cons_iff, List.mem_singleton]
    · split
      · rename_i heq
        subst heq
        rw [knownIn_cons_iff, knownIn_cons_iff, List.mem_append, List.mem_singleton, and_or_left,
          or_assoc, or_left_comm]
      · rw [knownIn_cons_iff, knownIn_cons_iff, ih, or_left_comm]

theorem knows_addName_iff {name : Text} :
    (rules.addName label name).Knows l words ↔
      (l = label ∧ words = name.words.map Unicode.toLower ∧ words ≠ []) ∨ rules.Knows l words := by
  unfold addName
  split
  · rename_i hblank
    rw [hblank]
    simp
  · rename_i hwords
    refine knownIn_insertName_iff.trans (or_congr_left (and_congr_right fun _ => ?_))
    exact ⟨fun h => ⟨h, fun hnil => hwords (h ▸ hnil)⟩, And.left⟩

theorem patterns_addName (rules : Rules π) (label : String) (name : Text) :
    (rules.addName label name).patterns = rules.patterns := by
  unfold addName
  split <;> rfl

section Language

variable [PatternLanguage π]

theorem knows_call_pattern_iff {label pattern : String} :
    (rules.call (.pattern label pattern)).Knows l words ↔ rules.Knows l words := by
  unfold call addPattern
  simp only
  split <;> rename_i h <;> split at h <;> cases h <;> exact Iff.rfl

/-- What holds of rules once a call asked for it, and else only if it held before, holds after a
run of calls if one of them asked for it. -/
theorem foldl_call_iff (P : Rules π → Prop) (D : Call → Prop)
    (hcall : ∀ rules c, P (rules.call c) ↔ D c ∨ P rules) (calls : List Call) (rules : Rules π) :
    P (calls.foldl call rules) ↔ (∃ c ∈ calls, D c) ∨ P rules := by
  induction calls generalizing rules with
  | nil => simp
  | cons c calls ih =>
    simp only [List.foldl_cons, ih, hcall, List.mem_cons, or_and_right, exists_or,
      exists_eq_left, or_assoc, or_left_comm]

/-- A name is known after a call that gives it words, or if it was known before. -/
theorem knows_call_iff (c : Call) :
    (rules.call c).Knows label words ↔
      (∃ name, c = .name label name ∧ words = name.words.map Unicode.toLower ∧ words ≠ []) ∨
        rules.Knows label words := by
  cases c with
  | name other name =>
    refine knows_addName_iff.trans (or_congr_left ⟨?_, ?_⟩)
    · rintro ⟨rfl, hwords⟩
      exact ⟨name, rfl, hwords⟩
    · rintro ⟨_, hc, hwords⟩
      obtain ⟨rfl, rfl⟩ := Call.name.inj hc
      exact ⟨rfl, hwords⟩
  | pattern other text =>
    refine knows_call_pattern_iff.trans (or_iff_right ?_).symm
    rintro ⟨_, hc, -⟩
    cases hc

/-- A pattern is looked for after a call whose text is read as it, or if it was before. -/
theorem mem_patterns_call_iff {p : π} (c : Call) :
    (label, p) ∈ (rules.call c).patterns ↔
      (∃ text, c = .pattern label text ∧ PatternLanguage.read text = .ok p) ∨
        (label, p) ∈ rules.patterns := by
  cases c with
  | name other name =>
    rw [call, patterns_addName, or_iff_right]
    rintro ⟨_, hc, -⟩
    cases hc
  | pattern other text =>
    cases hread : (PatternLanguage.read text : Except String π) with
    | error fault =>
      simp only [call, addPattern, hread]
      refine (or_iff_right ?_).symm
      rintro ⟨_, hc, hp⟩
      obtain ⟨-, rfl⟩ := Call.pattern.inj hc
      rw [hread] at hp
      cases hp
    | ok q =>
      simp only [call, addPattern, hread, List.mem_append, List.mem_singleton, Prod.mk.injEq]
      refine or_comm.trans (or_congr_left ⟨?_, ?_⟩)
      · rintro ⟨rfl, rfl⟩
        exact ⟨text, rfl, hread⟩
      · rintro ⟨_, hc, hp⟩
        obtain ⟨rfl, rfl⟩ := Call.pattern.inj hc
        exact ⟨rfl, (Except.ok.inj (hread.symm.trans hp)).symm⟩

theorem knows_ofCalls_iff :
    (ofCalls calls : Rules π).Knows label words ↔
      ∃ name, .name label name ∈ calls ∧ words = name.words.map Unicode.toLower ∧ words ≠ [] := by
  refine (foldl_call_iff (Knows · label words) _ (fun _ => knows_call_iff) calls {}).trans ?_
  rw [or_iff_left (show ¬ Knows {} label words from not_knownIn_nil)]
  constructor
  · rintro ⟨_, hmem, name, rfl, hwords⟩
    exact ⟨name, hmem, hwords⟩
  · rintro ⟨name, hmem, hwords⟩
    exact ⟨_, hmem, name, rfl, hwords⟩

theorem mem_patterns_ofCalls_iff {p : π} :
    (label, p) ∈ (ofCalls calls).patterns ↔
      ∃ text, .pattern label text ∈ calls ∧ PatternLanguage.read text = .ok p := by
  refine (foldl_call_iff ((label, p) ∈ patterns ·) _ (fun _ => mem_patterns_call_iff)
    calls {}).trans ?_
  rw [or_iff_left List.not_mem_nil]
  constructor
  · rintro ⟨_, hmem, text, rfl, hread⟩
    exact ⟨text, hmem, hread⟩
  · rintro ⟨text, hmem, hread⟩
    exact ⟨_, hmem, text, rfl, hread⟩

/-- **No known name is without words.** -/
theorem ne_nil_of_knows (calls : List Call) (h : (ofCalls calls : Rules π).Knows l words) :
    words ≠ [] := by
  obtain ⟨-, -, -, hne⟩ := knows_ofCalls_iff.mp h
  exact hne

end Language

/-! ## What each kind of rule finds -/

theorem mem_occurrences_iff :
    e ∈ occurrences label words lowered ↔
      e.label = label ∧ e.length = words.length ∧ e.stop ≤ lowered.length ∧
        (lowered.drop e.start).take e.length = words := by
  unfold occurrences
  rw [List.mem_filterMap]
  constructor
  · rintro ⟨start, hstart, hfound⟩
    obtain ⟨hwords, hfound⟩ := Option.ite_none_right_eq_some.mp hfound
    obtain rfl := Option.some.inj hfound
    have hlt := List.mem_range.mp hstart
    refine ⟨rfl, rfl, ?_, hwords⟩
    simp only [Entity.stop]
    omega
  · rintro ⟨rfl, hlength, hstop, hwords⟩
    rw [Entity.stop] at hstop
    refine ⟨e.start, List.mem_range.mpr (by omega), ?_⟩
    rw [← hlength, if_pos hwords]

/-- Known names are found wherever their words stand, in any case. -/
theorem mem_knownNames_iff :
    e ∈ rules.knownNames lowered ↔
      ∃ words, rules.Knows e.label words ∧ e.length = words.length ∧ e.stop ≤ lowered.length ∧
        (lowered.drop e.start).take e.length = words := by
  simp only [knownNames, List.mem_flatMap, mem_occurrences_iff]
  constructor
  · rintro ⟨⟨label, names⟩, hentry, words, hwords, rfl, hfound⟩
    exact ⟨words, ⟨names, hentry, hwords⟩, hfound⟩
  · rintro ⟨words, ⟨names, hentry, hwords⟩, hfound⟩
    exact ⟨(e.label, names), hentry, words, hwords, rfl, hfound⟩

/-- Persons are found where capitalized forms follow a title. -/
theorem mem_titledPersons_iff :
    e ∈ titledPersons forms lowered ↔
      ∃ i, i + 1 < forms.length ∧ personTitles.contains (lowered.getD i []) = true ∧
        0 < ((forms.drop (i + 1)).takeWhile isCapitalized).length ∧
        e = ⟨i + 1, ((forms.drop (i + 1)).takeWhile isCapitalized).length, personLabel⟩ := by
  unfold titledPersons
  rw [List.mem_filterMap]
  constructor
  · rintro ⟨i, hi, hfound⟩
    obtain ⟨htitle, hfound⟩ := Option.ite_none_right_eq_some.mp hfound
    obtain ⟨htitle, hpos⟩ := Bool.and_eq_true_iff.mp htitle
    have hlt := List.mem_range.mp hi
    exact ⟨i, by omega, htitle, of_decide_eq_true hpos, (Option.some.inj hfound).symm⟩
  · rintro ⟨i, hi, htitle, hpos, rfl⟩
    refine ⟨i, List.mem_range.mpr (by omega), ?_⟩
    simp only [htitle, decide_eq_true hpos, Bool.and_self, if_true]

/-- Organizations are found where a mark follows a capitalized form. -/
theorem mem_markedOrganizations_iff :
    e ∈ markedOrganizations forms lowered ↔
      ∃ i, i + 1 < forms.length ∧ organizationMarks.contains (lowered.getD (i + 1) []) = true ∧
        isCapitalized (forms.getD i []) = true ∧ e = ⟨i, 2, organizationLabel⟩ := by
  unfold markedOrganizations
  rw [List.mem_filterMap]
  constructor
  · rintro ⟨i, hi, hfound⟩
    obtain ⟨hmark, hfound⟩ := Option.ite_none_right_eq_some.mp hfound
    obtain ⟨hmark, hcapital⟩ := Bool.and_eq_true_iff.mp hmark
    have hlt := List.mem_range.mp hi
    exact ⟨i, by omega, hmark, hcapital, (Option.some.inj hfound).symm⟩
  · rintro ⟨i, hi, hmark, hcapital, rfl⟩
    refine ⟨i, List.mem_range.mpr (by omega), ?_⟩
    simp only [hmark, hcapital, Bool.and_self, if_true]

theorem mem_patternMatches_iff [PatternLanguage π] :
    e ∈ rules.patternMatches forms ↔
      ∃ pattern, (e.label, pattern) ∈ rules.patterns ∧ e.length = 1 ∧
        ∃ form, forms[e.start]? = some form ∧ PatternLanguage.isMatch pattern form = true := by
  simp only [patternMatches, List.mem_flatMap, List.mem_filterMap]
  constructor
  · rintro ⟨⟨label, pattern⟩, hentry, ⟨form, i⟩, hform, hfound⟩
    obtain ⟨hmatch, hfound⟩ := Option.ite_none_right_eq_some.mp hfound
    obtain rfl := Option.some.inj hfound
    exact ⟨pattern, hentry, rfl, form, List.mk_mem_zipIdx_iff_getElem?.mp hform, hmatch⟩
  · rintro ⟨pattern, hentry, hlength, form, hform, hmatch⟩
    refine ⟨(e.label, pattern), hentry, (form, e.start),
      List.mk_mem_zipIdx_iff_getElem?.mpr hform, ?_⟩
    rw [if_pos hmatch, ← hlength]

theorem mem_entities_iff [PatternLanguage π] :
    e ∈ rules.entities forms ↔
      e ∈ rules.knownNames (forms.map Unicode.toLower) ∨
        e ∈ titledPersons forms (forms.map Unicode.toLower) ∨
        e ∈ markedOrganizations forms (forms.map Unicode.toLower) ∨
        e ∈ rules.patternMatches forms := by
  simp only [entities, List.mem_eraseDups, List.mem_append, or_assoc]

/-- **All that is found are spans of the sentence**, where no name is without words. -/
theorem isSpanOf_of_mem_entities [PatternLanguage π]
    (hknown : ∀ l words, rules.Knows l words → words ≠ []) (h : e ∈ rules.entities forms) :
    e.isSpanOf forms.length = true := by
  rw [Entity.isSpanOf_iff]
  rcases mem_entities_iff.mp h with h | h | h | h
  · obtain ⟨words, hwords, hlength, hstop, -⟩ := mem_knownNames_iff.mp h
    have hpos := List.length_pos_iff.mpr (hknown _ _ hwords)
    rw [Entity.stop, List.length_map] at hstop
    omega
  · obtain ⟨i, hi, -, hpos, rfl⟩ := mem_titledPersons_iff.mp h
    have hle := ((forms.drop (i + 1)).takeWhile_sublist isCapitalized).length_le
    rw [List.length_drop] at hle
    simp only
    omega
  · obtain ⟨i, hi, -, -, rfl⟩ := mem_markedOrganizations_iff.mp h
    simp only
    omega
  · obtain ⟨pattern, -, hlength, form, hform, -⟩ := mem_patternMatches_iff.mp h
    have hlt := (List.getElem?_eq_some_iff.mp hform).1
    omega

end EntityMarkup.Rules
