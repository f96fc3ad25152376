/-!
# Text, and positions in it

A `Text` is a list of characters. Positions and lengths in it are counted in the bytes of its
UTF-8 form, so that they are the offsets of the encoded text a caller holds: `size` is the length
of `utf8`, and `slice?` cuts between two offsets. An offset that is out of range, that lies inside
a character, or that comes after the other end has no slice.

* `size_append`, `utf8_append`: both views are additive, so offsets of parts add up.
* **`slice?_eq_some_iff`**: a slice is a middle part of the text, with parts of the right sizes
  before it and after it.
* `length_utf8`: the size is the length of the encoded form.
* `ofUtf8?_utf8`: encoded text reads back.
* `flatten_cutAfter`: cutting a sequence into its lines loses nothing.
-/

namespace EntityMarkup

/-- Running text. -/
abbrev Text := List Char

/-- Encoded text, or bytes that were meant to be. -/
abbrev Bytes := List UInt8

namespace Text

/-! ## Sizes and slices -/

/-- The length in bytes. -/
def size (t : Text) : Nat :=
  t.foldr (fun c n => c.utf8Size + n) 0

@[simp] theorem size_nil : size [] = 0 := rfl

@[simp] theorem size_cons (c : Char) (t : Text) : size (c :: t) = c.utf8Size + size t :=
  rfl

@[simp] theorem size_append (t u : Text) : size (t ++ u) = size t + size u := by
  induction t with
  | nil => simp
  | cons c t ih => rw [List.cons_append, size_cons, size_cons, ih, Nat.add_assoc]

theorem size_eq_zero_iff {t : Text} : size t = 0 ↔ t = [] := by
  cases t with
  | nil => simp
  | cons c t => simpa using fun h => absurd h (Nat.ne_of_gt c.utf8Size_pos)

theorem length_le_size (t : Text) : t.length ≤ size t := by
  induction t with
  | nil => exact Nat.le_refl 0
  | cons c t ih =>
    have hpos := c.utf8Size_pos
    rw [List.length_cons, size_cons]
    omega

theorem size_le_four_mul_length (t : Text) : size t ≤ 4 * t.length := by
  induction t with
  | nil => exact Nat.le_refl 0
  | cons c t ih =>
    have hmax := c.utf8Size_le_four
    rw [List.length_cons, size_cons]
    omega

/-- What is left after the first `n` bytes, if a character ends there. -/
def drop? : Text → Nat → Option Text
  | [], n => if n = 0 then some [] else none
  | c :: t, n =>
    if n = 0 then some (c :: t)
    else if c.utf8Size ≤ n then drop? t (n - c.utf8Size)
    else none

/-- The first `n` bytes, if a character ends there. -/
def take? : Text → Nat → Option Text
  | [], n => if n = 0 then some [] else none
  | c :: t, n =>
    if n = 0 then some []
    else if c.utf8Size ≤ n then (take? t (n - c.utf8Size)).map (c :: ·)
    else none

/-- The text from byte `start` to byte `stop`, if both are ends of characters in that order. -/
def slice? (t : Text) (start stop : Nat) : Option Text :=
  if start ≤ stop then (t.drop? start).bind (take? · (stop - start)) else none

/-- The text from byte `start` to byte `stop`; nothing where there is no such slice. -/
def slice (t : Text) (start stop : Nat) : Text :=
  (t.slice? start stop).getD []

/-! ## What a slice is -/

@[simp] theorem drop?_zero (t : Text) : t.drop? 0 = some t := by
  cases t <;> simp [drop?]

@[simp] theorem take?_zero (t : Text) : t.take? 0 = some [] := by
  cases t <;> simp [take?]

@[simp] theorem drop?_cons_add (c : Char) (t : Text) (n : Nat) :
    drop? (c :: t) (c.utf8Size + n) = t.drop? n := by
  have := c.utf8Size_pos
  rw [drop?, if_neg (by omega), if_pos (by omega), Nat.add_sub_cancel_left]

@[simp] theorem take?_cons_add (c : Char) (t : Text) (n : Nat) :
    take? (c :: t) (c.utf8Size + n) = (t.take? n).map (c :: ·) := by
  have := c.utf8Size_pos
  rw [take?, if_neg (by omega), if_pos (by omega), Nat.add_sub_cancel_left]

theorem drop?_size_append (u v : Text) : drop? (u ++ v) u.size = some v := by
  induction u with
  | nil => simp
  | cons c u ih => simpa using ih

theorem take?_size_append (u v : Text) : take? (u ++ v) u.size = some u := by
  induction u with
  | nil => simp
  | cons c u ih => simpa using ih

theorem eq_append_of_drop? {t v : Text} {n : Nat} (h : t.drop? n = some v) :
    ∃ u, t = u ++ v ∧ u.size = n := by
  fun_induction drop? t n with
  | case1 => exact ⟨[], by simpa using h⟩
  | case2 => simp at h
  | case3 => exact ⟨[], by simpa using h⟩
  | case4 c t n _ hle ih =>
    obtain ⟨u, rfl, hu⟩ := ih h
    exact ⟨c :: u, rfl, by simp only [size_cons]; omega⟩
  | case5 => simp at h

theorem eq_append_of_take? {t u : Text} {n : Nat} (h : t.take? n = some u) :
    ∃ v, t = u ++ v ∧ u.size = n := by
  fun_induction take? t n generalizing u with
  | case1 => exact ⟨[], by simp_all⟩
  | case2 => simp at h
  | case3 c t => exact ⟨c :: t, by simp_all⟩
  | case4 c t n _ hle ih =>
    obtain ⟨u, hu, rfl⟩ := Option.map_eq_some_iff.1 h
    obtain ⟨v, rfl, hs⟩ := ih hu
    exact ⟨v, rfl, by simp only [size_cons]; omega⟩
  | case5 => simp at h

/-- **A slice is a middle part**: what stands between two offsets stands between parts that end
and begin there. -/
theorem slice?_eq_some_iff {t m : Text} {start stop : Nat} :
    t.slice? start stop = some m ↔
      ∃ u v, t = u ++ m ++ v ∧ u.size = start ∧ u.size + m.size = stop := by
  rw [slice?]
  constructor
  · intro h
    split at h
    · obtain ⟨_, hd, ht⟩ := Option.bind_eq_some_iff.1 h
      obtain ⟨u, rfl, hu⟩ := eq_append_of_drop? hd
      obtain ⟨v, rfl, hm⟩ := eq_append_of_take? ht
      exact ⟨u, v, (List.append_assoc ..).symm, hu, by omega⟩
    · simp at h
  · rintro ⟨u, v, rfl, rfl, rfl⟩
    rw [if_pos (by omega), Nat.add_sub_cancel_left, List.append_assoc, drop?_size_append]
    exact take?_size_append m v

/-! ## The encoded form -/

/-- The UTF-8 form of a text. -/
def utf8 (t : Text) : Bytes :=
  t.flatMap String.utf8EncodeChar

@[simp] theorem utf8_nil : utf8 [] = [] := rfl

@[simp] theorem utf8_append (t u : Text) : utf8 (t ++ u) = utf8 t ++ utf8 u := by
  simp [utf8]

@[simp] theorem length_utf8 (t : Text) : t.utf8.length = t.size := by
  induction t with
  | nil => rfl
  | cons c t ih => simpa [utf8] using ih

/-- The text that has these bytes as its UTF-8 form, if there is one. -/
def ofUtf8? (bytes : Bytes) : Option Text :=
  bytes.toByteArray.utf8Decode?.map Array.toList

/-- Encoded text reads back. -/
@[simp] theorem ofUtf8?_utf8 (t : Text) : ofUtf8? t.utf8 = some t := by
  have h : t.utf8.toByteArray = t.utf8Encode := rfl
  simp [ofUtf8?, h]

/-! ## Lines -/

/-- Cuts a sequence after each `sep`; only the last piece can lack it, and no piece is empty. -/
def cutAfter {α : Type} [DecidableEq α] (sep : α) : List α → List (List α)
  | [] => []
  | a :: rest =>
    if a = sep then [a] :: cutAfter sep rest
    else
      match cutAfter sep rest with
      | [] => [[a]]
      | piece :: pieces => (a :: piece) :: pieces

/-- Cutting loses nothing. -/
@[simp] theorem flatten_cutAfter {α : Type} [DecidableEq α] (sep : α) (xs : List α) :
    (cutAfter sep xs).flatten = xs := by
  fun_induction cutAfter sep xs <;> simp_all

/-- Cuts a sequence after its first `sep` only. -/
def cutFirst {α : Type} [DecidableEq α] (sep : α) : List α → List α × List α
  | [] => ([], [])
  | a :: rest =>
    if a = sep then ([a], rest) else (a :: (cutFirst sep rest).1, (cutFirst sep rest).2)

theorem length_cutFirst_cons_le {α : Type} [DecidableEq α] (sep a : α) (rest : List α) :
    (cutFirst sep (a :: rest)).2.length ≤ rest.length := by
  induction rest generalizing a with
  | nil => rw [cutFirst]; split <;> simp [cutFirst]
  | cons b rest ih =>
    rw [cutFirst]
    split
    · exact Nat.le_refl _
    · exact Nat.le_trans (ih b) (Nat.le_succ _)

/-- Cutting once gives the first piece and what the others are cut from. -/
theorem cutAfter_cons_eq {α : Type} [DecidableEq α] (sep a : α) (rest : List α) :
    cutAfter sep (a :: rest)
      = (cutFirst sep (a :: rest)).1 :: cutAfter sep (cutFirst sep (a :: rest)).2 := by
  induction rest generalizing a with
  | nil => rw [cutAfter, cutFirst]; split <;> rfl
  | cons b rest ih =>
    rw [cutAfter, cutFirst]
    split
    · rfl
    · rw [ih b]

/-- The lines of a text, each with its line feed. -/
def lines (t : Text) : List Text :=
  cutAfter '\n' t

/-- A line's content: the line without the carriage returns and line feeds at its end. -/
def trimLineEnd (line : Text) : Text :=
  (line.reverse.dropWhile fun c => c = '\n' || c = '\r').reverse

/-- A line that holds nothing but carriage returns and line feeds. -/
def isBlankLine (line : Text) : Bool :=
  line.all fun c => c = '\n' || c = '\r'

end Text

end EntityMarkup
