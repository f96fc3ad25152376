import EntityMarkup.Proofs.Render.Literals

/-!
# Reading inline markup

What the inline renderers write is read back here as whoever receives it would: `read?` splits the
text at its tags, `isBalanced` matches every tag with the one that ends it, and `elements` lists the
entities, each from the tag that begins it to the last unmatched tag that ends one. None of this
looks at how the markup came about.

Positions in markup are counted by a measure of marks: `tokensIn` counts the tokens that begin,
`bytesIn` the bytes of text that are copied.

* **`read?_flatMap_text`**: what marks write is read as these marks, the text between two tags in
  one piece.
* `elements_joined`, `isBalanced_joined`: that has the elements of these marks, and they are
  balanced if these marks are.
-/

namespace EntityMarkup.Mark

open Text

/-! ## Splitting text at its tags -/

/-- The label in a tag that begins an entity. -/
def labelOf? (tag : Text) : Option String :=
  match tag.splitOn '"' with
  | [name, label, []] =>
    if name = ['n', 'e', ' ', 't', 'y', 'p', 'e', '='] then some (String.ofList label) else none
  | _ => none

/-- The mark a tag stands for, given what is between its angle brackets. -/
def ofTag? (tag : Text) : Option Mark :=
  if tag = ['s', 'e', 'n', 't', 'e', 'n', 'c', 'e'] then some .beginSentence
  else if tag = ['/', 's', 'e', 'n', 't', 'e', 'n', 'c', 'e'] then some .endSentence
  else if tag = ['t', 'o', 'k', 'e', 'n'] then some .beginToken
  else if tag = ['/', 't', 'o', 'k', 'e', 'n'] then some .endToken
  else if tag = ['/', 'n', 'e'] then some .endEntity
  else (labelOf? tag).map .beginEntity

/-- Where a reader stands, with what it has read of the text or of the tag it stands in. -/
inductive Place where
  | outside (text : Text)
  | inside (tag : Text)

/-- The marks in a text, from a place on; `none` if a tag is unknown or does not end. -/
def readFrom : Place → Text → Option (List Mark)
  | .outside t, [] => some [.literal t.unescape]
  | .inside _, [] => none
  | .outside t, c :: rest =>
    if c = '<' then (readFrom (.inside []) rest).map (.literal t.unescape :: ·)
    else readFrom (.outside (t ++ [c])) rest
  | .inside tag, c :: rest =>
    if c = '>' then (ofTag? tag).bind fun m => (readFrom (.outside []) rest).map (m :: ·)
    else readFrom (.inside (tag ++ [c])) rest

/-- The marks in a text. -/
def read? (t : Text) : Option (List Mark) :=
  readFrom (.outside []) t

/-! ## Balanced tags -/

/-- Whether a mark begins something. -/
def isBegin : Mark → Bool
  | .beginSentence => true
  | .beginToken => true
  | .beginEntity _ => true
  | _ => false

/-- Whether a mark ends what another begins. -/
def isEndOf : Mark → Mark → Bool
  | .endSentence, .beginSentence => true
  | .endToken, .beginToken => true
  | .endEntity, .beginEntity _ => true
  | _, _ => false

/-- Whether every tag ends what was begun last and nothing is left open, `opened` being open
already, the innermost first. -/
def isBalancedFrom : (opened : List Mark) → List Mark → Bool
  | opened, [] => opened.isEmpty
  | opened, .literal _ :: rest => isBalancedFrom opened rest
  | opened, m :: rest =>
    if m.isBegin then isBalancedFrom (m :: opened) rest
    else
      match opened with
      | [] => false
      | innermost :: outer => m.isEndOf innermost && isBalancedFrom outer rest

/-- Whether all tags are balanced. -/
def isBalanced (marks : List Mark) : Bool :=
  isBalancedFrom [] marks

/-! ## Elements -/

/-- How many tokens a mark begins. -/
def tokensIn : Mark → Nat
  | .beginToken => 1
  | _ => 0

/-- How many bytes of text a mark copies. -/
def bytesIn (m : Mark) : Nat :=
  m.copied.size

/-- A tag of an entity, with its position. -/
inductive Bracket where
  | opening (label : String) (position : Nat)
  | closing (position : Nat)
  deriving DecidableEq, Repr

/-- The tags of entities in marks, the first of which stands at a position. -/
def brackets (measure : Mark → Nat) (position : Nat) : List Mark → List Bracket
  | [] => []
  | .beginEntity label :: rest => .opening label position :: brackets measure position rest
  | .endEntity :: rest => .closing position :: brackets measure position rest
  | m :: rest => brackets measure (position + measure m) rest

/-- Where the entity ends that is open at a depth, 0 being the innermost. -/
def stopOf : (depth : Nat) → List Bracket → Option Nat
  | _, [] => none
  | depth, .opening _ _ :: rest => stopOf (depth + 1) rest
  | 0, .closing position :: _ => some position
  | depth + 1, .closing _ :: rest => stopOf depth rest

/-- How many entities begin before the one that is open at a depth ends. -/
def innerOf : (depth : Nat) → List Bracket → Nat
  | _, [] => 0
  | depth, .opening _ _ :: rest => innerOf (depth + 1) rest + 1
  | 0, .closing _ :: _ => 0
  | depth + 1, .closing _ :: rest => innerOf depth rest

/-- What stands from a tag that begins an entity to the tag that ends it. -/
structure Element where
  label : String
  /-- The position of the tag that begins it. -/
  start : Nat
  /-- The position of the tag that ends it, if there is one. -/
  stop : Option Nat
  /-- The number of elements inside it, which are those that come next in the order of beginning. -/
  inner : Nat
  deriving DecidableEq, Repr

/-- The elements, in the order in which they begin. -/
def elementsOf : List Bracket → List Element
  | [] => []
  | .opening label position :: rest =>
    ⟨label, position, stopOf 0 rest, innerOf 0 rest⟩ :: elementsOf rest
  | .closing _ :: rest => elementsOf rest

/-- The elements in marks, with positions counted by a measure from a position on. -/
def elements (measure : Mark → Nat) (position : Nat) (marks : List Mark) : List Element :=
  elementsOf (brackets measure position marks)

/-! ## Reading what marks write -/

/-- A label that can be read back from its tag. -/
def IsPlain (label : String) : Prop :=
  '<' ∉ label.toList ∧ '>' ∉ label.toList ∧ '"' ∉ label.toList

theorem IsPlain.keepsTag {label : String} (h : IsPlain label) : KeepsTag label :=
  h.2.1

/-- Marks as a reader has them, the text that stands between two tags being one stretch; `t` is
what stands before them. -/
def joined : Text → List Mark → List Mark
  | t, [] => [.literal t]
  | t, .literal u :: rest => joined (t ++ u) rest
  | t, m :: rest => .literal t :: m :: joined [] rest

theorem readFrom_outside_append {t : Text} (h : '<' ∉ t) (u rest : Text) :
    readFrom (.outside u) (t ++ rest) = readFrom (.outside (u ++ t)) rest := by
  induction t generalizing u with
  | nil => rw [List.nil_append, List.append_nil]
  | cons c t ih =>
    have hc : c ≠ '<' := fun e => h (e ▸ List.mem_cons_self)
    rw [List.cons_append, readFrom, if_neg hc, ih fun hmem => h (List.mem_cons_of_mem _ hmem),
      List.append_assoc, List.singleton_append]

theorem readFrom_inside_append {t : Text} (h : '>' ∉ t) (u rest : Text) :
    readFrom (.inside u) (t ++ rest) = readFrom (.inside (u ++ t)) rest := by
  induction t generalizing u with
  | nil => rw [List.nil_append, List.append_nil]
  | cons c t ih =>
    have hc : c ≠ '>' := fun e => h (e ▸ List.mem_cons_self)
    rw [List.cons_append, readFrom, if_neg hc, ih fun hmem => h (List.mem_cons_of_mem _ hmem),
      List.append_assoc, List.singleton_append]

theorem labelOf?_tag {label : String} (h : IsPlain label) :
    labelOf? (['n', 'e', ' ', 't', 'y', 'p', 'e', '=', '"'] ++ label.toList ++ ['"'])
      = some label := by
  have hname : ∀ c ∈ ['n', 'e', ' ', 't', 'y', 'p', 'e', '='], (c == '"') = false := by simp
  have hlabel : ∀ c ∈ label.toList, (c == '"') = false :=
    fun c hc => beq_false_of_ne fun e => h.2.2 (e ▸ hc)
  have htag : ['n', 'e', ' ', 't', 'y', 'p', 'e', '=', '"'] ++ label.toList ++ ['"']
      = ['n', 'e', ' ', 't', 'y', 'p', 'e', '='] ++ '"' :: (label.toList ++ '"' :: []) := by simp
  rw [labelOf?, htag, List.splitOn_eq_splitOnP, List.splitOnP_append_cons (p := (· == '"')) _ _ rfl,
    List.splitOnP_append_cons (p := (· == '"')) _ _ rfl, List.splitOnP_eq_singleton hname,
    List.splitOnP_eq_singleton hlabel, List.splitOnP_nil]
  simp

theorem exists_tag {m : Mark} (hm : ∀ t, m ≠ .literal t) (hlabel : LabelsAre IsPlain [m]) :
    ∃ tag, m.text = '<' :: tag ++ ['>'] ∧ '>' ∉ tag ∧ ofTag? tag = some m := by
  cases m with
  | literal t => exact absurd rfl (hm t)
  | beginSentence => exact ⟨['s', 'e', 'n', 't', 'e', 'n', 'c', 'e'], rfl, by decide, rfl⟩
  | endSentence => exact ⟨['/', 's', 'e', 'n', 't', 'e', 'n', 'c', 'e'], rfl, by decide, rfl⟩
  | beginToken => exact ⟨['t', 'o', 'k', 'e', 'n'], rfl, by decide, rfl⟩
  | endToken => exact ⟨['/', 't', 'o', 'k', 'e', 'n'], rfl, by decide, rfl⟩
  | endEntity => exact ⟨['/', 'n', 'e'], rfl, by decide, rfl⟩
  | beginEntity label =>
    have h : IsPlain label := hlabel label List.mem_cons_self
    refine ⟨['n', 'e', ' ', 't', 'y', 'p', 'e', '=', '"'] ++ label.toList ++ ['"'], by simp,
      by simp [h.2.1], ?_⟩
    rw [ofTag?, labelOf?_tag h]
    simp

/-- A tag is read as the mark it was written for. -/
theorem readFrom_tag_append {m : Mark} (hm : ∀ t, m ≠ .literal t)
    (hlabel : LabelsAre IsPlain [m]) (t rest : Text) :
    readFrom (.outside t) (m.text ++ rest)
      = (readFrom (.outside []) rest).map (.literal t.unescape :: m :: ·) := by
  obtain ⟨tag, htext, htag, hof⟩ := exists_tag hm hlabel
  rw [htext, List.cons_append, List.cons_append, List.append_assoc, readFrom, if_pos rfl,
    readFrom_inside_append htag, List.nil_append, List.singleton_append, readFrom, if_pos rfl, hof,
    Option.bind_some, Option.map_map]
  rfl

theorem joined_cons_of_ne_literal {m : Mark} (hm : ∀ t, m ≠ .literal t) (t : Text)
    (rest : List Mark) : joined t (m :: rest) = .literal t :: m :: joined [] rest := by
  cases m with
  | literal u => exact absurd rfl (hm u)
  | _ => rfl

theorem readFrom_flatMap_text {marks : List Mark} (hlabels : LabelsAre IsPlain marks) (t : Text) :
    readFrom (.outside t.escape) (marks.flatMap text) = some (joined t marks) := by
  induction marks generalizing t with
  | nil =>
    rw [List.flatMap_nil, readFrom, unescape_escape, joined]
  | cons m marks ih =>
    obtain ⟨hlabel, hrest⟩ := labelsAre_cons.mp hlabels
    rw [List.flatMap_cons]
    by_cases hm : ∃ u, m = .literal u
    · obtain ⟨u, rfl⟩ := hm
      rw [text_literal, readFrom_outside_append (not_mem_escape (Or.inl rfl) u), ← escape_append,
        ih hrest, joined]
    · have hm : ∀ u, m ≠ .literal u := fun u e => hm ⟨u, e⟩
      have h := ih hrest []
      rw [escape_nil] at h
      rw [readFrom_tag_append hm hlabel, h, unescape_escape, Option.map_some,
        joined_cons_of_ne_literal hm]

/-- **What marks write is read as these marks**, the text between two tags in one piece. -/
theorem read?_flatMap_text {marks : List Mark} (hlabels : LabelsAre IsPlain marks) :
    read? (marks.flatMap text) = some (joined [] marks) :=
  readFrom_flatMap_text hlabels []

/-! ## Elements of marks that are read -/

theorem isBalancedFrom_joined (opened : List Mark) (t : Text) (marks : List Mark) :
    isBalancedFrom opened (joined t marks) = isBalancedFrom opened marks := by
  induction marks generalizing opened t with
  | nil => rfl
  | cons m marks ih =>
    cases m with
    | literal u => exact ih opened (t ++ u)
    | _ => cases opened <;> simp [joined, isBalancedFrom, ih]

/-- Tags are balanced when they are read if they were when they were written. -/
theorem isBalanced_joined (marks : List Mark) : isBalanced (joined [] marks) = isBalanced marks :=
  isBalancedFrom_joined [] [] marks

theorem brackets_joined {measure : Mark → Nat}
    (hmeasure : ∀ t u, measure (.literal (t ++ u)) = measure (.literal t) + measure (.literal u))
    (position : Nat) (t : Text) (marks : List Mark) :
    brackets measure position (joined t marks)
      = brackets measure (position + measure (.literal t)) marks := by
  have hnil : measure (.literal []) = 0 := by
    have h := hmeasure [] []
    rw [List.append_nil] at h
    omega
  induction marks generalizing position t with
  | nil => rfl
  | cons m marks ih =>
    cases m with
    | literal u => simp [joined, brackets, ih, hmeasure, Nat.add_assoc]
    | _ => simp [joined, brackets, ih, hnil]

/-- Elements are where they were written, as long as the measure of text is that of its parts. -/
theorem elements_joined {measure : Mark → Nat}
    (hmeasure : ∀ t u, measure (.literal (t ++ u)) = measure (.literal t) + measure (.literal u))
    (position : Nat) (marks : List Mark) :
    elements measure position (joined [] marks) = elements measure position marks := by
  have hnil : measure (.literal []) = 0 := by
    have h := hmeasure [] []
    rw [List.append_nil] at h
    omega
  rw [elements, brackets_joined hmeasure, hnil, Nat.add_zero, elements]

end EntityMarkup.Mark
