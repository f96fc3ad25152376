import EntityMarkup.Proofs.Recognizer.Criteria
import EntityMarkup.Proofs.Recognizer.Labels
import Mathlib.Data.List.Basic
import Mathlib.Data.List.Induction

/-!
# The order in which rules are added

Names are kept by label and patterns in one list, so rules tell the names of one label apart by
their order, and the patterns, but nothing else of the order in which they were added. What they
find is a list without repetitions: the first finding of an entity gives its place.

* `gazetteers_ofCalls`, `patterns_ofCalls`: the tables that calls build, told from the calls.
* `ofCalls_congr`: calls whose names agree label by label, and whose patterns agree, build the same
  rules.
* `Due.mono`: more calls, more to be found.
* `SameFirsts`: two lists whose elements occur in the same order for the first time, in whatever
  they are put.
* **`recognize_of_rearranged`**: what happens to the entities found when calls are rearranged, when
  others are added, and when one is added that says nothing new.
-/

namespace EntityMarkup.Rules

variable {π : Type} {calls calls' before after : List Call} {c : Call} {label l : String}
  {words lowered forms : List Text} {e : Entity} {rules : Rules π}

/-! ## The tables that calls build -/

/-- The label and the words, in lower case, of the name that a call adds. -/
def Call.name? : Call → Option (String × List Text)
  | .name label text =>
    match text.words.map Unicode.toLower with
    | [] => none
    | words => some (label, words)
  | .pattern _ _ => none

/-- The label and the pattern that a call adds. -/
def Call.pattern? [PatternLanguage π] : Call → Option (String × π)
  | .name _ _ => none
  | .pattern label text => (PatternLanguage.read text).toOption.map (Prod.mk label)

/-- The words that stand under a label among named words. -/
def wordsUnder (label : String) (names : List (String × List Text)) : List (List Text) :=
  (names.filter fun entry => entry.1 = label).map Prod.snd

/-- Named words by ascending label. -/
def grouped (names : List (String × List Text)) : List (String × List (List Text)) :=
  (ascendingLabels (names.map Prod.fst)).map fun label => (label, wordsUnder label names)

theorem wordsUnder_append (names names' : List (String × List Text)) :
    wordsUnder label (names ++ names') = wordsUnder label names ++ wordsUnder label names' := by
  unfold wordsUnder
  rw [List.filter_append, List.map_append]

theorem wordsUnder_singleton (entry : String × List Text) :
    wordsUnder label [entry] = if entry.1 = label then [entry.2] else [] := by
  unfold wordsUnder
  split <;> rename_i h <;> simp [h]

theorem mem_wordsUnder_iff {names : List (String × List Text)} :
    words ∈ wordsUnder label names ↔ (label, words) ∈ names := by
  simp [wordsUnder]

/-- A name goes to the others of its label, wherever the labels are in ascending order and only
labels that are there have names. -/
theorem insertName_map (name : List Text) {labels : List String} {f : String → List (List Text)}
    (hlabels : labels.Pairwise (· < ·)) (hf : label ∉ labels → f label = []) :
    insertName label name (labels.map fun l => (l, f l)) =
      (insertLabel label labels).map fun l =>
        (l, f l ++ if label = l then [name] else []) := by
  have hother : ∀ rest : List String, label ∉ rest →
      (rest.map fun l => (l, f l ++ if label = l then [name] else [])) =
        rest.map fun l => (l, f l) := by
    intro rest hrest
    refine List.map_congr_left fun l hl => ?_
    have hne : label ≠ l := fun heq => hrest (heq ▸ hl)
    rw [if_neg hne, List.append_nil]
  induction labels with
  | nil => simp [insertName, insertLabel, hf]
  | cons other rest ih =>
    obtain ⟨habove, hrest⟩ := List.pairwise_cons.mp hlabels
    rw [List.map_cons, insertName, insertLabel]
    split
    · rename_i hlt
      have hnew : label ∉ other :: rest := by
        rintro (_ | ⟨_, hmem⟩)
        · exact String.lt_irrefl _ hlt
        · exact String.lt_asymm hlt (habove _ hmem)
      rw [List.map_cons, if_pos rfl, hf hnew, List.nil_append, hother _ hnew, List.map_cons]
    · split
      · rename_i heq
        subst heq
        have hnew : label ∉ rest := fun hmem => String.lt_irrefl _ (habove _ hmem)
        rw [List.map_cons, if_pos rfl, hother _ hnew]
      · rename_i hne
        rw [List.map_cons, if_neg hne, List.append_nil, ih hrest]
        intro hnew
        exact hf (List.not_mem_cons_of_ne_of_not_mem hne hnew)

theorem grouped_append_singleton (names : List (String × List Text)) (words : List Text) :
    grouped (names ++ [(label, words)]) = insertName label words (grouped names) := by
  have hlabels : ascendingLabels ((names ++ [(label, words)]).map Prod.fst) =
      insertLabel label (ascendingLabels (names.map Prod.fst)) := by
    refine eq_of_ascending (pairwise_ascendingLabels _)
      (pairwise_insertLabel (pairwise_ascendingLabels _)) fun l => ?_
    rw [mem_ascendingLabels, mem_insertLabel, mem_ascendingLabels, List.map_append,
      List.mem_append, List.map_singleton, List.mem_singleton, or_comm]
  unfold grouped
  rw [insertName_map words (pairwise_ascendingLabels _), hlabels]
  · simp only [wordsUnder_append, wordsUnder_singleton]
  · intro hnew
    rw [List.eq_nil_iff_forall_not_mem]
    intro words hwords
    exact hnew (mem_ascendingLabels.mpr (List.mem_map_of_mem (mem_wordsUnder_iff.mp hwords)))

section Language

variable [PatternLanguage π]

theorem call_eq (rules : Rules π) (c : Call) :
    rules.call c =
      { gazetteers := c.name?.elim rules.gazetteers fun n => insertName n.1 n.2 rules.gazetteers
        patterns := rules.patterns ++ c.pattern?.toList } := by
  cases c with
  | name label name =>
    simp only [call, addName, Call.name?, Call.pattern?, Option.toList, List.append_nil]
    cases name.words.map Unicode.toLower <;> rfl
  | pattern label text =>
    simp only [call, addPattern, Call.name?, Call.pattern?]
    split <;> rename_i h <;> split at h <;> cases h <;>
      simp_all [Except.toOption]

theorem ofCalls_append_singleton (calls : List Call) (c : Call) :
    (ofCalls (calls ++ [c]) : Rules π) = (ofCalls calls).call c := by
  unfold ofCalls
  rw [List.foldl_append, List.foldl_cons, List.foldl_nil]

/-- **The known names, by ascending label, are the names of the calls.** -/
theorem gazetteers_ofCalls (calls : List Call) :
    (ofCalls calls : Rules π).gazetteers = grouped (calls.filterMap Call.name?) := by
  induction calls using List.reverseRecOn with
  | nil => rfl
  | append_singleton calls c ih =>
    rw [ofCalls_append_singleton, call_eq, List.filterMap_append, List.filterMap_cons,
      List.filterMap_nil]
    simp only [ih]
    cases c.name? with
    | none => rw [Option.elim_none, List.append_nil]
    | some name => exact (grouped_append_singleton _ _).symm

/-- **The patterns are those of the calls.** -/
theorem patterns_ofCalls (calls : List Call) :
    (ofCalls calls : Rules π).patterns = calls.filterMap Call.pattern? := by
  induction calls using List.reverseRecOn with
  | nil => rfl
  | append_singleton calls c ih =>
    rw [ofCalls_append_singleton, call_eq, List.filterMap_append, List.filterMap_cons,
      List.filterMap_nil]
    simp only [ih]
    cases (c.pattern? : Option (String × π)) <;> rfl

end Language

/-! ## Calls in another order -/

/-- Whether a call gives a name under a label. -/
def Call.isNameOf (label : String) : Call → Bool
  | .name l _ => l = label
  | .pattern _ _ => false

/-- Whether a call gives a pattern. -/
def Call.isPattern : Call → Bool
  | .name _ _ => false
  | .pattern _ _ => true

/-- The same names in the same order under each label, and the same patterns in the same order. -/
structure SameByKind (calls calls' : List Call) : Prop where
  names : ∀ label, calls.filter (Call.isNameOf label) = calls'.filter (Call.isNameOf label)
  patterns : calls.filter Call.isPattern = calls'.filter Call.isPattern

theorem filterMap_pattern?_filter [PatternLanguage π] (calls : List Call) :
    ((calls.filter Call.isPattern).filterMap Call.pattern? : List (String × π))
      = calls.filterMap Call.pattern? := by
  rw [List.filterMap_filter]
  refine List.filterMap_congr fun c _ => ?_
  cases c <;> rfl

theorem wordsUnder_filterMap_name? (label : String) (calls : List Call) :
    wordsUnder label (calls.filterMap Call.name?) =
      ((calls.filter (Call.isNameOf label)).filterMap Call.name?).map Prod.snd := by
  rw [wordsUnder, List.filter_filterMap, List.filterMap_filter]
  congr 1
  refine List.filterMap_congr fun c _ => ?_
  cases c with
  | pattern _ _ => rfl
  | name l name =>
    simp only [Call.name?, Call.isNameOf, decide_eq_true_eq]
    split
    · simp
    · rw [Option.filter_some]
      simp only [decide_eq_true_eq]

theorem grouped_congr {names names' : List (String × List Text)}
    (h : ∀ label, wordsUnder label names = wordsUnder label names') :
    grouped names = grouped names' := by
  have hlabels : ascendingLabels (names.map Prod.fst) = ascendingLabels (names'.map Prod.fst) := by
    refine eq_of_ascending (pairwise_ascendingLabels _) (pairwise_ascendingLabels _) fun l => ?_
    simp only [mem_ascendingLabels, List.mem_map, Prod.exists, exists_and_right, exists_eq_right,
      ← mem_wordsUnder_iff, h]
  unfold grouped
  rw [hlabels]
  simp only [h]

section Language

variable [PatternLanguage π]

/-- **The names of different labels, and the patterns, may come in any order among each other.** -/
theorem ofCalls_congr (h : SameByKind calls calls') :
    (ofCalls calls : Rules π) = ofCalls calls' := by
  have hnames : (ofCalls calls : Rules π).gazetteers = (ofCalls calls' : Rules π).gazetteers := by
    rw [gazetteers_ofCalls, gazetteers_ofCalls]
    refine grouped_congr fun label => ?_
    rw [wordsUnder_filterMap_name?, h.names, ← wordsUnder_filterMap_name?]
  have hpatterns : (ofCalls calls : Rules π).patterns = (ofCalls calls' : Rules π).patterns := by
    rw [patterns_ofCalls, ← filterMap_pattern?_filter, h.patterns, filterMap_pattern?_filter,
      ← patterns_ofCalls]
  cases hrules : (ofCalls calls : Rules π)
  cases hrules' : (ofCalls calls' : Rules π)
  rw [hrules, hrules'] at hnames hpatterns
  congr

/-- What is due stays due when there are more calls, in any order. -/
theorem Due.mono (hcalls : calls ⊆ calls') (h : Due π calls forms e) : Due π calls' forms e := by
  cases h with
  | name hname hlength hpos hstop hwords => exact .name (hcalls hname) hlength hpos hstop hwords
  | titled hstart htitle hmem hpos hrun => exact .titled hstart htitle hmem hpos hrun
  | marked hform hcapital hmark hmem => exact .marked hform hcapital hmark hmem
  | pattern htext hread hform hmatch => exact .pattern (hcalls htext) hread hform hmatch

theorem entities_subset (hcalls : calls ⊆ calls') (forms : List Text) :
    (ofCalls calls : Rules π).entities forms ⊆ (ofCalls calls' : Rules π).entities forms :=
  fun _ he => mem_entities_of_due (Due.mono hcalls (due_of_mem_entities he))

theorem entities_perm (h : calls.Perm calls') (forms : List Text) :
    ((ofCalls calls : Rules π).entities forms).Perm
      ((ofCalls calls' : Rules π).entities forms) := by
  refine (List.perm_ext_iff_of_nodup (nodup_entities _ _) (nodup_entities _ _)).mpr fun e => ?_
  exact ⟨@entities_subset π _ _ _ h.subset forms e, @entities_subset π _ _ _ h.symm.subset forms e⟩

end Language

/-! ## First occurrences -/

/-- The elements of both lists occur in the same order for the first time, whatever stands before
the lists and after them. -/
def SameFirsts {α : Type} [BEq α] (x y : List α) : Prop :=
  ∀ front back, (front ++ x ++ back).eraseDups = (front ++ y ++ back).eraseDups

section SameFirsts

variable {α β : Type} [BEq α] {x y x' y' d : List α}

theorem SameFirsts.refl (x : List α) : SameFirsts x x :=
  fun _ _ => rfl

theorem SameFirsts.append (h : SameFirsts x y) (h' : SameFirsts x' y') :
    SameFirsts (x ++ x') (y ++ y') := by
  intro front back
  calc (front ++ (x ++ x') ++ back).eraseDups
      = (front ++ x ++ (x' ++ back)).eraseDups := by simp only [List.append_assoc]
    _ = (front ++ y ++ x' ++ back).eraseDups := by rw [h, ← List.append_assoc]
    _ = (front ++ y ++ y' ++ back).eraseDups := h' _ _
    _ = (front ++ (y ++ y') ++ back).eraseDups := by simp only [List.append_assoc]

theorem SameFirsts.flatMap {f g : β → List α} {l : List β}
    (h : ∀ b ∈ l, SameFirsts (f b) (g b)) : SameFirsts (l.flatMap f) (l.flatMap g) := by
  induction l with
  | nil => exact .refl []
  | cons b l ih =>
    rw [List.flatMap_cons, List.flatMap_cons]
    exact (h b List.mem_cons_self).append (ih fun b hb => h b (List.mem_cons_of_mem _ hb))

/-- What has occurred may occur again. -/
theorem SameFirsts.append_of_subset [LawfulBEq α] (h : d ⊆ x) : SameFirsts (x ++ d) x := by
  intro front back
  have hnone : (d ++ back).removeAll (front ++ x) = back.removeAll (front ++ x) := by
    rw [List.removeAll, List.removeAll, List.filter_append, List.filter_eq_nil_iff.mpr,
      List.nil_append]
    intro a ha
    simp [h ha]
  rw [← List.append_assoc, List.append_assoc _ d, List.eraseDups_append, hnone,
    ← List.eraseDups_append]

theorem SameFirsts.eraseDups_eq (h : SameFirsts x y) : x.eraseDups = y.eraseDups := by
  simpa using h [] []

end SameFirsts

/-- Entities are first found in the same order, if each kind of rule first finds them so. -/
theorem entities_congr [PatternLanguage π] {rules rules' : Rules π}
    (hnames : SameFirsts (rules.knownNames (forms.map Unicode.toLower))
      (rules'.knownNames (forms.map Unicode.toLower)))
    (hpatterns : SameFirsts (rules.patternMatches forms) (rules'.patternMatches forms)) :
    rules.entities forms = rules'.entities forms :=
  (((hnames.append (.refl _)).append (.refl _)).append hpatterns).eraseDups_eq

/-! ## Calls that say nothing new -/

/-- A call that adds nothing to what was added before: its name has no words, its pattern is
refused, or the same call was made before. -/
inductive Idle (π : Type) [PatternLanguage π] (before : List Call) : Call → Prop where
  | blank {label : String} {name : Text} : name.words = [] → Idle π before (.name label name)
  | refused {label text : String} {fault : MarkupError} :
      (ofCalls before : Rules π).addPattern label text = .error fault →
      Idle π before (.pattern label text)
  | repeated {c : Call} : c ∈ before → Idle π before c

section Language

variable [PatternLanguage π]

theorem call_of_blank {name : Text} (h : name.words = []) :
    rules.call (.name label name) = rules := by
  simp only [call, addName, h, List.map_nil]

theorem call_of_refused {text : String} {fault : MarkupError}
    (h : rules.addPattern label text = .error fault) :
    rules.call (.pattern label text) = rules := by
  simp only [call, h]

/-- What has occurred among the arguments may occur again. -/
theorem SameFirsts.flatMap_insert {α β : Type} [BEq α] [LawfulBEq α] {x d : List β} (h : d ⊆ x)
    (y : List β) (f : β → List α) :
    SameFirsts ((x ++ d ++ y).flatMap f) ((x ++ y).flatMap f) := by
  simp only [List.flatMap_append]
  refine SameFirsts.append (.append_of_subset fun a ha => ?_) (.refl _)
  obtain ⟨b, hb, ha⟩ := List.mem_flatMap.mp ha
  exact List.mem_flatMap.mpr ⟨b, h hb, ha⟩

theorem filterMap_singleton_subset {β : Type} (f : Call → Option β) (h : c ∈ before) :
    [c].filterMap f ⊆ before.filterMap f :=
  List.filterMap_subset f (List.cons_subset.mpr ⟨h, List.nil_subset _⟩)

/-- A name that was added before, in any place, is first found where it was. -/
theorem knownNames_of_repeated (h : c ∈ before) (after : List Call) (lowered : List Text) :
    SameFirsts ((ofCalls (before ++ [c] ++ after) : Rules π).knownNames lowered)
      ((ofCalls (before ++ after) : Rules π).knownNames lowered) := by
  have hnames := filterMap_singleton_subset Call.name? h
  have hlabels : ascendingLabels (((before ++ [c] ++ after).filterMap Call.name?).map Prod.fst) =
      ascendingLabels (((before ++ after).filterMap Call.name?).map Prod.fst) := by
    refine eq_of_ascending (pairwise_ascendingLabels _) (pairwise_ascendingLabels _) fun l => ?_
    have hl := @List.map_subset _ _ _ _ Prod.fst hnames l
    simp only [mem_ascendingLabels, List.filterMap_append, List.map_append, List.mem_append]
    tauto
  simp only [knownNames, gazetteers_ofCalls, grouped, List.flatMap_map, hlabels]
  refine SameFirsts.flatMap fun label _ => ?_
  simp only [List.filterMap_append, wordsUnder_append]
  refine SameFirsts.flatMap_insert (fun words hwords => ?_) _ _
  exact mem_wordsUnder_iff.mpr (hnames (mem_wordsUnder_iff.mp hwords))

/-- So is a pattern. -/
theorem patternMatches_of_repeated (h : c ∈ before) (after : List Call) (forms : List Text) :
    SameFirsts ((ofCalls (before ++ [c] ++ after) : Rules π).patternMatches forms)
      ((ofCalls (before ++ after) : Rules π).patternMatches forms) := by
  simp only [patternMatches, patterns_ofCalls, List.filterMap_append]
  exact SameFirsts.flatMap_insert (filterMap_singleton_subset Call.pattern? h) _ _

theorem ofCalls_append_cons (before after : List Call) (c : Call) :
    (ofCalls (before ++ c :: after) : Rules π) = after.foldl call ((ofCalls before).call c) := by
  unfold ofCalls
  rw [List.foldl_append, List.foldl_cons]

/-- **A call that adds nothing new changes nothing of what is found**, wherever it is made. -/
theorem entities_of_idle (h : Idle π before c) (after : List Call) (forms : List Text) :
    (ofCalls (before ++ c :: after) : Rules π).entities forms =
      (ofCalls (before ++ after) : Rules π).entities forms := by
  have hsame : (ofCalls before : Rules π).call c = ofCalls before →
      (ofCalls (before ++ c :: after) : Rules π) = ofCalls (before ++ after) := fun hcall => by
    rw [ofCalls_append_cons, hcall, ofCalls, ofCalls, ← List.foldl_append]
  cases h with
  | blank hwords => rw [hsame (call_of_blank hwords)]
  | refused hfault => rw [hsame (call_of_refused hfault)]
  | repeated hmem =>
    rw [List.append_cons]
    exact entities_congr (knownNames_of_repeated hmem after _)
      (patternMatches_of_repeated hmem after forms)

/-! ## What is found -/

/-- **Rules built by the same calls in another order find the same entities**, and find them in the
same order if the names keep their order under each label and the patterns keep theirs. More calls
lose no entity, and a call that adds nothing new leaves all that is found as it was. So it is in
every language of patterns. -/
theorem recognize_of_rearranged (calls calls' : List Call) (forms : List Text) :
    let rules : Rules π := ofCalls calls
    let rules' : Rules π := ofCalls calls'
    ∃ found found', recognizer.recognize rules forms = (.ok found, rules) ∧
      recognizer.recognize rules' forms = (.ok found', rules') ∧
      (calls.Perm calls' → found.Perm found') ∧
      (SameByKind calls calls' → found = found') ∧
      (calls.Sublist calls' → ∀ e ∈ found, e ∈ found') ∧
      ∀ before c after, calls = before ++ after → calls' = before ++ c :: after →
        Idle π before c → found' = found := by
  intro rules rules'
  refine ⟨rules.entities forms, rules'.entities forms, rfl, rfl,
    fun h => entities_perm h forms, fun h => congrArg (entities · forms) (ofCalls_congr h),
    fun h => entities_subset h.subset forms, ?_⟩
  rintro before c after rfl rfl h
  exact entities_of_idle h after forms

end Language

/-- Two names and a pattern: in other orders, with one of them, with the first name twice, and with
a text that is no pattern. -/
theorem recognize_of_rearranged_small :
    let find : List Call → List Text → Except MarkupError (List Entity) := fun calls forms =>
      (recognizer.recognize (ofCalls calls : Rules Pattern) forms).1
    let ana : Call := .name "PER" "ana".toList
    let bia : Call := .name "PER" "bia".toList
    let one : Call := .pattern "NUM" "^1$"
    (∃ found found', find [ana, bia] ["Bia".toList, "Ana".toList] = .ok found ∧
      find [bia, ana] ["Bia".toList, "Ana".toList] = .ok found' ∧ found.Perm found') ∧
    find [ana, one] ["Ana".toList, "1".toList] = find [one, ana] ["Ana".toList, "1".toList] ∧
    (∃ found found', find [one] ["Ana".toList, "1".toList] = .ok found ∧
      find [one, ana] ["Ana".toList, "1".toList] = .ok found' ∧ ∀ e ∈ found, e ∈ found') ∧
    ∀ c ∈ [ana, .name "PER" " ".toList, .pattern "NUM" "("],
      find [ana, c, bia] ["Bia".toList, "Ana".toList] =
        find [ana, bia] ["Bia".toList, "Ana".toList] := by
  intro find ana bia one
  have hrearranged := @recognize_of_rearranged Pattern _
  refine ⟨?_, ?_, ?_, ?_⟩
  · obtain ⟨found, found', h, h', hperm, -⟩ :=
      hrearranged [ana, bia] [bia, ana] ["Bia".toList, "Ana".toList]
    exact ⟨found, found', congrArg Prod.fst h, congrArg Prod.fst h', hperm (.swap _ _ _)⟩
  · obtain ⟨found, found', h, h', -, hsame, -⟩ :=
      hrearranged [ana, one] [one, ana] ["Ana".toList, "1".toList]
    have hkinds : SameByKind [ana, one] [one, ana] := ⟨fun _ => rfl, rfl⟩
    rw [show find [ana, one] _ = .ok found from congrArg Prod.fst h,
      show find [one, ana] _ = .ok found' from congrArg Prod.fst h', hsame hkinds]
  · obtain ⟨found, found', h, h', -, -, hmore, -⟩ :=
      hrearranged [one] [one, ana] ["Ana".toList, "1".toList]
    exact ⟨found, found', congrArg Prod.fst h, congrArg Prod.fst h',
      hmore (List.sublist_append_left _ [_])⟩
  · intro c hc
    obtain ⟨found, found', h, h', -, -, -, hidle⟩ :=
      hrearranged [ana, bia] [ana, c, bia] ["Bia".toList, "Ana".toList]
    have hc : Idle Pattern [ana] c := by
      simp only [List.mem_cons, List.not_mem_nil, or_false] at hc
      rcases hc with rfl | rfl | rfl
      · exact .repeated List.mem_cons_self
      · exact .blank (by decide)
      · exact .refused rfl
    rw [show find [ana, bia] _ = .ok found from congrArg Prod.fst h,
      show find [ana, c, bia] _ = .ok found' from congrArg Prod.fst h',
      hidle [ana] c [bia] rfl rfl hc]

-- The names of one label are found in the order in which they were added.
example :
    let find : List Call → List Entity := fun calls =>
      (ofCalls calls : Rules Pattern).entities (["Bia", "Ana"].map String.toList)
    find [.name "PER" "ana".toList, .name "PER" "bia".toList] =
        [⟨1, 1, "PER"⟩, ⟨0, 1, "PER"⟩] ∧
      find [.name "PER" "bia".toList, .name "PER" "ana".toList] =
        [⟨0, 1, "PER"⟩, ⟨1, 1, "PER"⟩] := by
  decide +kernel

end EntityMarkup.Rules
