import EntityMarkup.Text
import Mathlib.Data.List.TakeWhile

/-!
# Lines of encoded text

Input is cut into lines as bytes, before it is known to be text. The byte of a line feed is part of
no other character's encoded form, so that the lines of encoded text are the encoded lines of the
text.

* **`cutAfter_utf8`**: cutting the bytes is cutting the characters.
* `map_ofUtf8?_cutAfter_utf8`: every line of encoded text can be read.
* `utf8_of_ofUtf8?`: what can be read is encoded text.
* `lines_append`: the lines of a text that is put together where a line ends.
* **`lines_flatten`**: what has the form of lines are the lines of the text that they make up, so
  that any run of lines of a text are the lines of that part of it.
* `trimLineEnd_eq_nil_iff`: blank lines are those without content.
* `trimLineEnd_append`: the content of a line, whatever ends the line.
-/

namespace EntityMarkup.Text

theorem eq_lineFeed_of_mem {c : Char} (h : UInt8.ofNat 10 ∈ String.utf8EncodeChar c) :
    c = '\n' := by
  have hbyte : ∀ n, n < 256 → UInt8.ofNat 10 = UInt8.ofNat n → n = 10 := by
    intro n hn he
    have := congrArg UInt8.toNat he
    simp only [UInt8.toNat_ofNat'] at this
    omega
  have hval : c.val.toNat = 10 := by
    unfold String.utf8EncodeChar at h
    simp only at h
    split at h
    · rw [List.mem_singleton] at h
      exact hbyte _ (by omega) h
    · -- a longer form is made of bytes from 128 on
      split at h
      · simp only [List.mem_cons, List.not_mem_nil, or_false] at h
        rcases h with h | h <;> have := hbyte _ (by omega) h <;> omega
      · split at h
        · simp only [List.mem_cons, List.not_mem_nil, or_false] at h
          rcases h with h | h | h <;> have := hbyte _ (by omega) h <;> omega
        · simp only [List.mem_cons, List.not_mem_nil, or_false] at h
          rcases h with h | h | h | h <;> have := hbyte _ (by omega) h <;> omega
  exact Char.ext (UInt32.toNat.inj hval)

theorem ne_nil_of_mem_cutAfter {α : Type} [DecidableEq α] {sep : α} {xs piece : List α}
    (h : piece ∈ cutAfter sep xs) : piece ≠ [] := by
  fun_induction cutAfter sep xs <;> grind

/-- What stands before a line break belongs to the first line. -/
theorem cutAfter_append {α : Type} [DecidableEq α] {sep : α} {xs : List α} (hne : xs ≠ [])
    (hsep : sep ∉ xs) (ys : List α) :
    cutAfter sep (xs ++ ys) =
      match cutAfter sep ys with
      | [] => [xs]
      | piece :: pieces => (xs ++ piece) :: pieces := by
  induction xs with
  | nil => exact absurd rfl hne
  | cons x xs ih =>
    have hx : x ≠ sep := fun e => hsep (e ▸ List.mem_cons_self)
    rw [List.cons_append, cutAfter, if_neg hx]
    cases xs with
    | nil => rfl
    | cons y xs =>
      rw [ih (List.cons_ne_nil _ _) fun hmem => hsep (List.mem_cons_of_mem _ hmem)]
      cases cutAfter sep ys <;> rfl

/-- **The lines of encoded text are the encoded lines of the text.** -/
theorem cutAfter_utf8 (t : Text) : cutAfter (UInt8.ofNat 10) t.utf8 = t.lines.map utf8 := by
  induction t with
  | nil => rfl
  | cons c t ih =>
    have hutf8 : utf8 (c :: t) = String.utf8EncodeChar c ++ utf8 t := List.flatMap_cons
    by_cases hc : c = '\n'
    · have hlines : lines (c :: t) = [c] :: lines t := by rw [lines, cutAfter, if_pos hc, ← lines]
      have hbytes : String.utf8EncodeChar c = [UInt8.ofNat 10] := by rw [hc]; rfl
      rw [hutf8, hlines, hbytes, List.singleton_append, cutAfter, if_pos rfl, ih, List.map_cons, hc]
      rfl
    · have hne : String.utf8EncodeChar c ≠ [] := by simp
      rw [hutf8, cutAfter_append hne (fun h => hc (eq_lineFeed_of_mem h)), ih, lines, lines,
        cutAfter, if_neg hc]
      cases cutAfter '\n' t with
      | nil => simp [utf8]
      | cons line rest => simp [utf8]

/-- Every line of encoded text can be read. -/
theorem map_ofUtf8?_cutAfter_utf8 (t : Text) :
    (cutAfter (UInt8.ofNat 10) t.utf8).map ofUtf8? = t.lines.map some := by
  rw [cutAfter_utf8, List.map_map]
  exact List.map_congr_left fun line _ => ofUtf8?_utf8 line

/-- A line that can be read is the encoded form of what is read. -/
theorem utf8_of_ofUtf8? {bytes : Bytes} {t : Text} (h : ofUtf8? bytes = some t) :
    t.utf8 = bytes := by
  obtain ⟨chars, hchars, rfl⟩ := Option.map_eq_some_iff.mp h
  have hsome : bytes.toByteArray.utf8Decode?.isSome := by rw [hchars]; rfl
  have hencode := ByteArray.utf8Encode_get_utf8Decode? (h := hsome)
  simp only [hchars, Option.get_some] at hencode
  have hbytes : (utf8 chars.toList).toByteArray = bytes.toByteArray := hencode
  simpa using congrArg (fun b : ByteArray => b.data.toList) hbytes

theorem flatten_lines (t : Text) : t.lines.flatten = t :=
  flatten_cutAfter '\n' t

theorem lines_lineFeed_cons (t : Text) : lines ('\n' :: t) = ['\n'] :: lines t := by
  rw [lines, cutAfter, if_pos rfl, lines]

/-- The lines of a text that ends with a line are followed by those of the text behind it. -/
theorem lines_append {x : Text} (h : x = [] ∨ x.getLast? = some '\n') (y : Text) :
    lines (x ++ y) = lines x ++ lines y := by
  induction x with
  | nil => rfl
  | cons c x ih =>
    have hlast : (c :: x).getLast? = some '\n' := h.resolve_left (List.cons_ne_nil c x)
    by_cases hc : c = '\n'
    · have hrest : x = [] ∨ x.getLast? = some '\n' := by
        cases x with
        | nil => exact Or.inl rfl
        | cons d x => exact Or.inr hlast
      rw [hc, List.cons_append, lines_lineFeed_cons, lines_lineFeed_cons, ih hrest,
        List.cons_append]
    · -- the line of the first character ends in the rest of the text
      cases x with
      | nil => exact absurd (Option.some.inj hlast) hc
      | cons d x =>
        have hne : lines (d :: x) ≠ [] := by
          intro hnil
          have hflat := flatten_cutAfter '\n' (d :: x)
          rw [← lines, hnil] at hflat
          cases hflat
        have hrest := ih (Or.inr hlast)
        obtain ⟨line, more, hlines⟩ := List.exists_cons_of_ne_nil hne
        rw [hlines] at hrest
        have hwhole : lines (c :: (d :: x ++ y)) = (c :: line) :: (more ++ lines y) := by
          rw [lines, cutAfter, if_neg hc, ← lines, hrest]
          rfl
        have hfirst : lines (c :: d :: x) = (c :: line) :: more := by
          rw [lines, cutAfter, if_neg hc, ← lines, hlines]
        rw [List.cons_append, hwhole, hfirst, List.cons_append]

/-! ## What has the form of lines -/

/-- Each line ends in its only line feed; the last can lack it, but is not empty. -/
def AreLines : List Text → Prop
  | [] => True
  | line :: rest =>
    ((∃ body, '\n' ∉ body ∧ line = body ++ ['\n']) ∨ rest = [] ∧ line ≠ [] ∧ '\n' ∉ line)
      ∧ AreLines rest

/-- Texts that end in their only line feed have the form of lines. -/
theorem areLines_of_forall {ls : List Text}
    (h : ∀ line ∈ ls, ∃ body, '\n' ∉ body ∧ line = body ++ ['\n']) : AreLines ls := by
  induction ls with
  | nil => trivial
  | cons line rest ih =>
    obtain ⟨hline, hrest⟩ := List.forall_mem_cons.mp h
    exact ⟨Or.inl hline, ih hrest⟩

theorem AreLines.of_append {xs ys : List Text} (h : AreLines (xs ++ ys)) :
    AreLines xs ∧ AreLines ys := by
  induction xs with
  | nil => exact ⟨trivial, h⟩
  | cons x xs ih =>
    obtain ⟨hx, hrest⟩ := h
    obtain ⟨hxs, hys⟩ := ih hrest
    refine ⟨⟨hx.imp_right fun ⟨hlast, hline⟩ => ⟨?_, hline⟩, hxs⟩, hys⟩
    exact (List.append_eq_nil_iff.mp hlast).1

theorem areLines_lines (t : Text) : AreLines t.lines := by
  induction t with
  | nil => trivial
  | cons c t ih =>
    by_cases hc : c = '\n'
    · rw [hc, lines_lineFeed_cons]
      exact ⟨Or.inl ⟨[], List.not_mem_nil, rfl⟩, ih⟩
    · have hone : '\n' ∉ [c] := fun h => hc (List.mem_singleton.mp h).symm
      rw [lines, ← List.singleton_append, cutAfter_append (List.cons_ne_nil c []) hone, ← lines]
      cases hlines : lines t with
      | nil => exact ⟨Or.inr ⟨rfl, List.cons_ne_nil c [], hone⟩, trivial⟩
      | cons line rest =>
        rw [hlines] at ih
        obtain ⟨hline, hrest⟩ := ih
        refine ⟨hline.imp ?_ ?_, hrest⟩
        · rintro ⟨body, hbody, rfl⟩
          exact ⟨c :: body, by simp [Ne.symm hc, hbody], rfl⟩
        · rintro ⟨hlast, -, hfree⟩
          exact ⟨hlast, List.cons_ne_nil c line, by simp [Ne.symm hc, hfree]⟩

/-- **What has the form of lines are the lines of the text that they make up.** -/
theorem lines_flatten {ls : List Text} (h : AreLines ls) : lines ls.flatten = ls := by
  induction ls with
  | nil => rfl
  | cons line rest ih =>
    obtain ⟨hline, hrest⟩ := h
    rw [List.flatten_cons]
    rcases hline with ⟨body, hbody, rfl⟩ | ⟨rfl, hne, hfree⟩
    · rw [List.append_assoc, List.singleton_append]
      cases body with
      | nil => rw [List.nil_append, lines_lineFeed_cons, ih hrest, List.nil_append]
      | cons c body =>
        rw [lines, cutAfter_append (List.cons_ne_nil c body) hbody, ← lines, lines_lineFeed_cons,
          ih hrest]
    · rw [List.flatten_nil, lines, cutAfter_append hne hfree]
      rfl

theorem trimLineEnd_eq_nil_iff {line : Text} :
    line.trimLineEnd = [] ↔ line.isBlankLine = true := by
  simp [trimLineEnd, isBlankLine, List.dropWhile_eq_nil_iff]

/-- A line's content is found again, unless it ends with a character of a line end itself. -/
theorem trimLineEnd_append {content ending : Text}
    (hcontent : ∀ c, content.getLast? = some c → c ≠ '\n' ∧ c ≠ '\r')
    (hending : ending.isBlankLine = true) : trimLineEnd (content ++ ending) = content := by
  have hblank : ∀ c ∈ ending.reverse, (c = '\n' || c = '\r') = true := fun c hc =>
    List.all_eq_true.mp hending c (List.mem_reverse.mp hc)
  rw [trimLineEnd, List.reverse_append, List.dropWhile_append_of_pos hblank]
  rcases List.eq_nil_or_concat content with rfl | ⟨start, c, rfl⟩
  · rfl
  · have hc := hcontent c (by simp)
    rw [List.concat_eq_append, List.reverse_append, List.reverse_singleton, List.singleton_append,
      List.dropWhile_cons_of_neg (by simpa using hc), List.reverse_cons, List.reverse_reverse]

end EntityMarkup.Text
