import EntityMarkup.Pattern.Language
import EntityMarkup.Proofs.Recognizer.Findings

/-!
# What rules are to find

`Due` says of an entity that it is to be found among the forms of a sentence, in terms of the calls
that built the rules: a name that was added stands there, or a title stands before capitalized
forms, or a mark after one, or a pattern that was added matches. Nothing is said in it of tables,
scans or the order of things. Which texts are patterns and what matches them is up to the language.

* `isRun_iff`: capitalized forms up to the first that is not, and the scan that counts them.
* `mem_entities_ofCalls_iff`: the entities found are those that are due.
* **`recognize_ofCalls`**: the recognizer answers, finds all that is due and nothing else, and each
  entity once; all are spans of the sentence.
-/

namespace EntityMarkup.Rules

variable {π : Type} {calls : List Call} {forms : List Text} {e : Entity}

/-! ## Runs of capitalized forms -/

/-- The `length` forms from `start` on are capitalized, and none follows them that is. -/
structure IsRun (forms : List Text) (start length : Nat) : Prop where
  capitalized : ∀ i < length, ∃ form, forms[start + i]? = some form ∧ isCapitalized form = true
  maximal : ∀ form, forms[start + length]? = some form → isCapitalized form = false

theorem length_takeWhile_eq_iff {α : Type} {p : α → Bool} {l : List α} {n : Nat} :
    (l.takeWhile p).length = n ↔
      (∀ i < n, ∃ a, l[i]? = some a ∧ p a = true) ∧ ∀ a, l[n]? = some a → p a = false := by
  induction l generalizing n with
  | nil =>
    cases n with
    | zero => simp
    | succ n => exact iff_of_false (by simp) fun h => by simpa using h.1 0 n.succ_pos
  | cons x l ih =>
    rw [List.takeWhile_cons]
    cases hx : p x with
    | false =>
      cases n with
      | zero => simpa using hx
      | succ n =>
        refine iff_of_false (by simp) fun h => ?_
        obtain ⟨a, ha, hpa⟩ := h.1 0 n.succ_pos
        obtain rfl := Option.some.inj ha
        exact absurd (hpa.symm.trans hx) (by decide)
    | true =>
      cases n with
      | zero =>
        refine iff_of_false (by simp) fun h => ?_
        exact absurd ((h.2 x rfl).symm.trans hx) (by decide)
      | succ n =>
        rw [if_pos rfl, List.length_cons, Nat.add_right_cancel_iff, ih]
        refine and_congr_left fun _ => ⟨fun h i hi => ?_, fun h i hi => ?_⟩
        · cases i with
          | zero => exact ⟨x, rfl, hx⟩
          | succ i => exact h i (Nat.lt_of_succ_lt_succ hi)
        · exact h (i + 1) (Nat.succ_lt_succ hi)

/-- A run is as long as the scan from its start goes. -/
theorem isRun_iff {start length : Nat} :
    IsRun forms start length ↔ ((forms.drop start).takeWhile isCapitalized).length = length := by
  simp only [length_takeWhile_eq_iff, List.getElem?_drop]
  exact ⟨fun h => ⟨h.capitalized, h.maximal⟩, fun h => ⟨h.1, h.2⟩⟩

/-! ## What is due -/

/-- An entity that rules built by these calls, with patterns in the language `π`, are to find among
these forms. -/
inductive Due (π : Type) [PatternLanguage π] (calls : List Call) (forms : List Text) :
    Entity → Prop where
  /-- The words of a name that was added stand here, in any case. -/
  | name {start length : Nat} {label : String} {name : Text} :
      .name label name ∈ calls → length = name.words.length → 1 ≤ length →
      start + length ≤ forms.length →
      ((forms.drop start).take length).map Unicode.toLower = name.words.map Unicode.toLower →
      Due π calls forms ⟨start, length, label⟩
  /-- A title stands before a run of capitalized forms. -/
  | titled {start length : Nat} {title : Text} :
      1 ≤ start → forms[start - 1]? = some title → Unicode.toLower title ∈ personTitles →
      1 ≤ length → IsRun forms start length →
      Due π calls forms ⟨start, length, personLabel⟩
  /-- A mark of an organization stands after a capitalized form. -/
  | marked {start : Nat} {form mark : Text} :
      forms[start]? = some form → isCapitalized form = true →
      forms[start + 1]? = some mark → Unicode.toLower mark ∈ organizationMarks →
      Due π calls forms ⟨start, 2, organizationLabel⟩
  /-- A pattern that was added matches the form here. -/
  | pattern {start : Nat} {label text : String} {p : π} {form : Text} :
      .pattern label text ∈ calls → PatternLanguage.read text = .ok p →
      forms[start]? = some form → PatternLanguage.isMatch p form = true →
      Due π calls forms ⟨start, 1, label⟩

theorem contains_lowered_iff {known : List Text} (hnil : [] ∉ known) {i : Nat} :
    known.contains ((forms.map Unicode.toLower).getD i []) = true ↔
      ∃ form, forms[i]? = some form ∧ Unicode.toLower form ∈ known := by
  rw [List.contains_iff_mem, List.getD_eq_getElem?_getD, List.getElem?_map]
  cases forms[i]? with
  | none => simpa using hnil
  | some form => simp

theorem isCapitalized_getD_iff {i : Nat} :
    isCapitalized (forms.getD i []) = true ↔
      ∃ form, forms[i]? = some form ∧ isCapitalized form = true := by
  rw [List.getD_eq_getElem?_getD]
  cases forms[i]? with
  | none => simp [isCapitalized]
  | some form => simp

section Language

variable [PatternLanguage π]

theorem due_of_mem_entities (h : e ∈ (ofCalls calls : Rules π).entities forms) :
    Due π calls forms e := by
  rcases mem_entities_iff.mp h with h | h | h | h
  · obtain ⟨words, hknows, hlength, hstop, hwords⟩ := mem_knownNames_iff.mp h
    obtain ⟨name, hname, rfl, hne⟩ := knows_ofCalls_iff.mp hknows
    rw [← List.map_drop, ← List.map_take] at hwords
    rw [Entity.stop, List.length_map] at hstop
    have hpos := List.length_pos_iff.mpr hne
    rw [← hlength] at hpos
    exact .name hname (hlength.trans (List.length_map _)) hpos hstop hwords
  · obtain ⟨i, -, htitle, hpos, rfl⟩ := mem_titledPersons_iff.mp h
    obtain ⟨title, htitle, hmem⟩ := (contains_lowered_iff (by decide)).mp htitle
    exact .titled (Nat.le_add_left 1 i) htitle hmem hpos (isRun_iff.mpr rfl)
  · obtain ⟨i, -, hmark, hcapital, rfl⟩ := mem_markedOrganizations_iff.mp h
    obtain ⟨mark, hmark, hmem⟩ := (contains_lowered_iff (by decide)).mp hmark
    obtain ⟨form, hform, hcapital⟩ := isCapitalized_getD_iff.mp hcapital
    exact .marked hform hcapital hmark hmem
  · obtain ⟨p, hp, hlength, form, hform, hmatch⟩ := mem_patternMatches_iff.mp h
    obtain ⟨text, htext, hread⟩ := mem_patterns_ofCalls_iff.mp hp
    obtain ⟨start, length, label⟩ := e
    obtain rfl : length = 1 := hlength
    exact .pattern htext hread hform hmatch

theorem mem_entities_of_due (h : Due π calls forms e) :
    e ∈ (ofCalls calls : Rules π).entities forms := by
  rw [mem_entities_iff]
  cases h with
  | name hname hlength hpos hstop hwords =>
    refine Or.inl (mem_knownNames_iff.mpr
      ⟨_, knows_ofCalls_iff.mpr ⟨_, hname, rfl, ?_⟩, ?_, ?_, ?_⟩)
    · rw [Ne, List.map_eq_nil_iff, ← List.length_eq_zero_iff]
      omega
    · rw [List.length_map, hlength]
    · rw [Entity.stop, List.length_map]
      exact hstop
    · rw [← List.map_drop, ← List.map_take]
      exact hwords
  | @titled start length title hstart htitle hmem hpos hrun =>
    obtain ⟨i, rfl⟩ := Nat.exists_eq_add_of_le' hstart
    have hlength := isRun_iff.mp hrun
    obtain ⟨form, hform, -⟩ := hrun.capitalized 0 hpos
    refine Or.inr (Or.inl (mem_titledPersons_iff.mpr
      ⟨i, (List.getElem?_eq_some_iff.mp hform).1, ?_, ?_, ?_⟩))
    · exact (contains_lowered_iff (by decide)).mpr ⟨title, htitle, hmem⟩
    · rw [hlength]
      exact hpos
    · rw [hlength]
  | @marked start form mark hform hcapital hmark hmem =>
    refine Or.inr (Or.inr (Or.inl (mem_markedOrganizations_iff.mpr
      ⟨start, (List.getElem?_eq_some_iff.mp hmark).1, ?_, ?_, rfl⟩)))
    · exact (contains_lowered_iff (by decide)).mpr ⟨mark, hmark, hmem⟩
    · exact isCapitalized_getD_iff.mpr ⟨form, hform, hcapital⟩
  | pattern htext hread hform hmatch =>
    exact Or.inr (Or.inr (Or.inr (mem_patternMatches_iff.mpr
      ⟨_, mem_patterns_ofCalls_iff.mpr ⟨_, htext, hread⟩, rfl, _, hform, hmatch⟩)))

/-- **The entities found are those that are due.** -/
theorem mem_entities_ofCalls_iff :
    e ∈ (ofCalls calls : Rules π).entities forms ↔ Due π calls forms e :=
  ⟨due_of_mem_entities, mem_entities_of_due⟩

end Language

/-! ## Each entity once -/

theorem nodup_eraseDups {α : Type} [BEq α] [LawfulBEq α] : ∀ l : List α, l.eraseDups.Nodup
  | [] => List.nodup_nil
  | a :: l => by
    rw [List.eraseDups_cons, List.nodup_cons, List.mem_eraseDups, List.mem_filter]
    refine ⟨?_, nodup_eraseDups _⟩
    rintro ⟨-, hne⟩
    simp at hne
termination_by l => l.length
decreasing_by exact Nat.lt_succ_of_le (List.length_filter_le _ _)

theorem nodup_entities [PatternLanguage π] (rules : Rules π) (forms : List Text) :
    (rules.entities forms).Nodup :=
  nodup_eraseDups _

/-- **Rules find all that is due, nothing else, and each entity once**, whatever calls built them
and whatever the language of their patterns is. What they find are spans of the sentence, and to
find it changes no rule. -/
theorem recognize_ofCalls [PatternLanguage π] (calls : List Call) (forms : List Text) :
    let rules : Rules π := ofCalls calls
    ∃ found, recognizer.recognize rules forms = (.ok found, rules) ∧
      found.Nodup ∧
      (∀ e, e ∈ found ↔ Due π calls forms e) ∧
      ∀ e ∈ found, 1 ≤ e.length ∧ e.start + e.length ≤ forms.length := by
  intro rules
  refine ⟨rules.entities forms, rfl, nodup_entities _ _,
    fun _ => mem_entities_ofCalls_iff, fun e he => ?_⟩
  have hspan := isSpanOf_of_mem_entities (fun _ _ => ne_nil_of_knows calls) he
  obtain ⟨hpos, hstop⟩ := Entity.isSpanOf_iff.mp hspan
  exact ⟨Nat.one_le_iff_ne_zero.mpr hpos, hstop⟩

-- A known name that also stands before the mark of an organization is found once.
example :
    let rules : Rules Pattern := ofCalls [.name "ORG" "ana inc".toList]
    rules.entities (["DR.", "Ana", "Inc"].map String.toList) =
      [⟨1, 2, "ORG"⟩, ⟨1, 2, "PER"⟩] := by
  decide +kernel

end EntityMarkup.Rules
