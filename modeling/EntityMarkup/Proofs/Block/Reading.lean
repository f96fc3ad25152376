import EntityMarkup.Block
import EntityMarkup.Proofs.Text.Lines

/-!
# The blocks of a text

Every line of encoded text can be read, so that reading it yields blocks only: `ofText` says which.

* `items_utf8`: reading encoded text yields its blocks; `items_utf8_of_lineFeed_not_mem`: a line is
  one.
* **`flatten_ofText`**: the blocks of a text, put together, are the text.
* **`ofText_append`**: the blocks of a text that is put together behind a blank line.
* `exists_lines_of_ofLines`: the lines of a block, and those that are left for the blocks behind it.
* `ofLines_induction`: induction over the blocks that lines form.
-/

namespace EntityMarkup.Block

/-- The blocks that lines form, `gathered` being those of the block under way. -/
def ofLines (gathered : List Text) : List Text → List Text
  | [] => if gathered.isEmpty then [] else [gathered.flatten]
  | line :: rest =>
    if line.isBlankLine then (gathered ++ [line]).flatten :: ofLines [] rest
    else ofLines (gathered ++ [line]) rest

/-- The blocks of a text. -/
def ofText (t : Text) : List Text :=
  ofLines [] t.lines

theorem group_map_some (gathered lines : List Text) :
    group gathered (lines.map some) = (ofLines gathered lines).map .block := by
  induction lines generalizing gathered with
  | nil =>
    rw [List.map_nil, group, ofLines]
    split <;> rfl
  | cons line rest ih =>
    rw [List.map_cons, group, ofLines]
    split
    · rw [ih, List.map_cons]
    · exact ih _

/-- Reading encoded text yields the blocks of the text. -/
theorem items_utf8 (t : Text) : items t.utf8 = (ofText t).map .block := by
  rw [items, Text.map_ofUtf8?_cutAfter_utf8, group_map_some, ofText]

theorem items_utf8_of_lineFeed_not_mem {t : Text} (hfeed : '\n' ∉ t)
    (hblank : t.isBlankLine = false) : items t.utf8 = [.block t] := by
  have hne : t ≠ [] := by
    rintro rfl
    cases hblank
  have hlines : Text.lines [t].flatten = [t] :=
    Text.lines_flatten ⟨Or.inr ⟨rfl, hne, hfeed⟩, trivial⟩
  rw [List.flatten_singleton] at hlines
  rw [items_utf8, ofText, hlines]
  simp [ofLines, hblank]

theorem flatten_ofLines (gathered lines : List Text) :
    (ofLines gathered lines).flatten = gathered.flatten ++ lines.flatten := by
  induction lines generalizing gathered with
  | nil =>
    rw [ofLines]
    split
    · rename_i h
      rw [List.isEmpty_iff.mp h]
      rfl
    · simp
  | cons line rest ih =>
    rw [ofLines]
    split <;> simp [ih]

/-- **No block is lost or changed.** -/
theorem flatten_ofText (t : Text) : (ofText t).flatten = t := by
  rw [ofText, flatten_ofLines, Text.flatten_lines]
  rfl

theorem ofLines_of_body {body : List Text} {line : Text}
    (hbody : ∀ line ∈ body, line.isBlankLine = false) (hblank : line.isBlankLine = true)
    (gathered : List Text) :
    ofLines gathered (body ++ [line]) = [(gathered ++ (body ++ [line])).flatten] := by
  induction body generalizing gathered with
  | nil => simp [ofLines, hblank]
  | cons first body ih =>
    obtain ⟨hfirst, hbody⟩ := List.forall_mem_cons.mp hbody
    rw [List.cons_append, ofLines, hfirst, if_neg Bool.false_ne_true, ih hbody,
      List.append_assoc, List.singleton_append]

/-! ## Where blocks end -/

theorem ofLines_append {gathered ls : List Text} {line : Text} (hlast : ls.getLast? = some line)
    (hblank : line.isBlankLine = true) (rest : List Text) :
    ofLines gathered (ls ++ rest) = ofLines gathered ls ++ ofLines [] rest := by
  induction ls generalizing gathered with
  | nil => cases hlast
  | cons first ls ih =>
    cases ls with
    | nil =>
      obtain rfl : first = line := Option.some.inj hlast
      simp [ofLines, hblank]
    | cons second ls =>
      have hrest : (second :: ls).getLast? = some line := hlast
      rw [List.cons_append, ofLines, ofLines]
      split
      · rw [ih hrest, List.cons_append]
      · exact ih hrest

/-- A text that holds nothing, or ends with a blank line, line feed included. -/
def EndsBlank (t : Text) : Prop :=
  t = [] ∨ ∃ line, t.lines.getLast? = some line ∧ line.isBlankLine = true ∧
    line.getLast? = some '\n'

/-- **Blocks begin anew behind a blank line**: the blocks of a text that ends with one are not
changed by what follows, and neither are those that follow. -/
theorem ofText_append {x : Text} (hx : EndsBlank x) (y : Text) :
    ofText (x ++ y) = ofText x ++ ofText y := by
  rcases hx with rfl | ⟨line, hlast, hblank, hfeed⟩
  · rfl
  · have hend : x.getLast? = some '\n' := by
      obtain ⟨before, hlines⟩ := List.getLast?_eq_some_iff.mp hlast
      obtain ⟨start, rfl⟩ := List.getLast?_eq_some_iff.mp hfeed
      rw [← Text.flatten_lines x, hlines]
      simp
    rw [ofText, Text.lines_append (Or.inr hend), ofLines_append hlast hblank, ofText, ofText]

/-- The lines of a block are not blank, but for one at its end. Only the last block can lack it. -/
theorem exists_lines_of_ofLines {gathered lines blocks : List Text} {block : Text}
    (h : ofLines gathered lines = block :: blocks) :
    ∃ body ending rest, lines = body ++ (ending ++ rest) ∧
      block = (gathered ++ body ++ ending).flatten ∧ blocks = ofLines [] rest ∧
      (∀ line ∈ body, line.isBlankLine = false) ∧
      ((∃ line, ending = [line] ∧ line.isBlankLine = true) ∨ ending = [] ∧ rest = []) := by
  induction lines generalizing gathered with
  | nil =>
    rw [ofLines] at h
    split at h
    · cases h
    · obtain ⟨rfl, rfl⟩ := List.cons_eq_cons.mp h
      exact ⟨[], [], [], rfl, by simp, rfl, by simp, Or.inr ⟨rfl, rfl⟩⟩
  | cons line rest ih =>
    rw [ofLines] at h
    split at h
    · rename_i hblank
      obtain ⟨rfl, rfl⟩ := List.cons_eq_cons.mp h
      exact ⟨[], [line], rest, rfl, by simp, rfl, by simp, Or.inl ⟨line, rfl, hblank⟩⟩
    · rename_i hfull
      obtain ⟨body, ending, rest, rfl, rfl, rfl, hbody, hending⟩ := ih h
      refine ⟨line :: body, ending, rest, rfl, by simp, rfl, ?_, hending⟩
      exact List.forall_mem_cons.mpr ⟨Bool.eq_false_iff.mpr hfull, hbody⟩

/-- Induction over the blocks that lines form: it is enough to put the lines of one block before
those of others. -/
theorem ofLines_induction {motive : List Text → List Text → Prop} (nil : motive [] [])
    (block : ∀ {body ending rest : List Text}, Text.AreLines (body ++ ending) →
      (∀ line ∈ body, line.isBlankLine = false) →
      ((∃ line, ending = [line] ∧ line.isBlankLine = true) ∨ ending = [] ∧ rest = []) →
      motive rest (ofLines [] rest) →
      motive (body ++ ending ++ rest) ((body ++ ending).flatten :: ofLines [] rest))
    {ls : List Text} (h : Text.AreLines ls) : motive ls (ofLines [] ls) := by
  generalize hblocks : ofLines [] ls = blocks
  induction blocks generalizing ls with
  | nil =>
    have hflat := flatten_ofLines [] ls
    rw [hblocks, List.flatten_nil, List.nil_append] at hflat
    rw [← Text.lines_flatten h, ← hflat]
    exact nil
  | cons first blocks ih =>
    obtain ⟨body, ending, rest, rfl, rfl, rfl, hbody, hending⟩ := exists_lines_of_ofLines hblocks
    rw [← List.append_assoc] at h ⊢
    obtain ⟨hfirst, hrest⟩ := h.of_append
    exact block hfirst hbody hending (ih hrest rfl)

end EntityMarkup.Block
