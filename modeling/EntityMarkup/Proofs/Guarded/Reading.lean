import EntityMarkup.Proofs.Block.Reading
import EntityMarkup.Proofs.Guarded.Word
import EntityMarkup.Proofs.Token.InOrder

/-!
# Reading in words

Blocks and tokens are found by counting bytes, from the beginning of a block on. No offset is
further than the end of its block, so all of them are words where the size of the block is one.

The blocks of an input take no more room than the input. Counted with each of them is a line more
than it has bytes, for the blank line at its end (`Block.weight`).

* **`InputFormat.sentences?_eq`**: both tokenizers.
* `Block.items?_eq`: the last line of what has been read is looked at again.
* **`Block.weight_items_le`**: the room that the blocks of an input take.
-/

namespace EntityMarkup

/-! ## Pieces -/

namespace Placed

/-- The offset at which a piece ends. -/
def stop? (p : Placed) : Option Nat :=
  Word.add? p.start p.form.size

/-- Consecutive pieces, the first of which starts at an offset. -/
def ofPieces? (start : Nat) : List Text → Option (List Placed)
  | [] => return []
  | piece :: rest => do
    let next ← Word.add? start piece.size
    let placed ← ofPieces? next rest
    return ⟨start, piece⟩ :: placed

theorem ofPieces?_eq {start : Nat} {pieces : List Text}
    (h : start + Text.size pieces.flatten < Word.bound) :
    ofPieces? start pieces = some (ofPieces start pieces) := by
  induction pieces generalizing start with
  | nil => rfl
  | cons piece rest ih =>
    rw [List.flatten_cons, Text.size_append, ← Nat.add_assoc] at h
    have hnext : start + piece.size < Word.bound := by omega
    simp only [ofPieces?, Word.add?_of_lt hnext, ih h, Option.bind_eq_bind, Option.bind_some,
      Option.pure_def]
    rfl

end Placed

/-! ## Running text -/

namespace Running

/-- A full stop that belongs to the abbreviation right before it. Where other pieces end is not
asked. -/
def isAbbreviationStop? (p q : Placed) : Option Bool :=
  if q.form == ['.'] then do
    let stop ← p.stop?
    return stop == q.start && abbreviations.contains p.form
  else return false

/-- Joins each full stop to the abbreviation it belongs to, which is one byte longer then. Where it
ends is asked if another full stop follows. -/
def joinAbbreviations? : List Placed → Option (List Placed)
  | [] => return []
  | [p] => return [p]
  | p :: q :: rest => do
    if ← isAbbreviationStop? p q then
      let size ← Word.add? p.form.size 1
      let _ ← Word.add? p.start size
      let joined ← joinAbbreviations? rest
      return ⟨p.start, p.form ++ ['.']⟩ :: joined
    else
      let joined ← joinAbbreviations? (q :: rest)
      return p :: joined

/-- The sentences of running text. -/
def sentences? (t : Text) : Option (List Sentence) := do
  let pieces ← Placed.ofPieces? 0 t.segments
  let joined ← joinAbbreviations? (pieces.filter fun p => !p.form.isAllBlank)
  return (joined.splitBy sameSentence).map Placed.sentence

variable {t : Text} {n : Nat} {p q : Placed} {ps : List Placed} (ht : t.size < Word.bound)

include ht

theorem isAbbreviationStop?_eq (hp : t.IsBoundary p.stop) :
    isAbbreviationStop? p q = some (isAbbreviationStop p q) := by
  have hstop : p.stop? = some p.stop := Word.add?_of_lt (Nat.lt_of_le_of_lt hp.le_size ht)
  unfold isAbbreviationStop? isAbbreviationStop
  by_cases hform : (q.form == ['.']) = true
  · rw [if_pos hform, hform, hstop]
    rfl
  · rw [if_neg hform, Bool.eq_false_iff.mpr hform]
    rfl

theorem joinAbbreviations?_eq (h : t.InOrder n (ps.map Placed.range)) :
    joinAbbreviations? ps = some (joinAbbreviations ps) := by
  fun_induction joinAbbreviations ps generalizing n with
  | case1 => rfl
  | case2 p => rfl
  | case3 p q rest hjoin ih =>
    obtain ⟨-, -, -, hp, -, -, -, hq, hrest⟩ := h
    -- the joined token ends where the full stop does
    have hbound : q.stop < Word.bound := Nat.lt_of_le_of_lt hq.le_size ht
    have hstop : p.start + (p.form.size + 1) = q.stop := by
      simp only [isAbbreviationStop, Bool.and_eq_true, beq_iff_eq] at hjoin
      obtain ⟨⟨hform, hadjacent⟩, -⟩ := hjoin
      rw [Placed.stop, hform, ← hadjacent, Placed.stop, Nat.add_assoc]
      rfl
    have hsize : p.form.size + 1 < Word.bound := by omega
    have hend : p.start + (p.form.size + 1) < Word.bound := by omega
    simp only [joinAbbreviations?, isAbbreviationStop?_eq ht hp, hjoin, Word.add?_of_lt hsize,
      Word.add?_of_lt hend, ih hrest, Option.bind_eq_bind, Option.bind_some, Option.pure_def,
      if_true]
  | case4 p q rest hjoin ih =>
    obtain ⟨-, -, -, hp, hrest⟩ := h
    simp only [joinAbbreviations?, isAbbreviationStop?_eq ht hp, hjoin, ih hrest,
      Option.bind_eq_bind, Option.bind_some, Option.pure_def]
    rfl

theorem sentences?_eq : sentences? t = some (sentences t) := by
  have hplaced : Placed.ofPieces? 0 t.segments = some (Placed.ofPieces 0 t.segments) :=
    Placed.ofPieces?_eq (by rwa [Text.flatten_segments, Nat.zero_add])
  have hjoined : joinAbbreviations? (words t) = some (joinAbbreviations (words t)) :=
    joinAbbreviations?_eq ht (inOrder_words t)
  rw [sentences?, hplaced]
  exact congrArg (· >>= fun joined => some ((joined.splitBy sameSentence).map Placed.sentence))
    hjoined

end Running

/-! ## Listed text -/

/-- The sentences of listed text. -/
def Listed.sentences? (t : Text) : Option (List Sentence) := do
  let pieces ← Placed.ofPieces? 0 t.lines
  let contents := pieces.map fun p => { p with form := p.form.trimLineEnd }
  return ((contents.splitOnP fun p => p.form.isEmpty).filter (!·.isEmpty)).map Placed.sentence

theorem Listed.sentences?_eq {t : Text} (ht : t.size < Word.bound) :
    sentences? t = some (sentences t) := by
  have hplaced : Placed.ofPieces? 0 t.lines = some (Placed.ofPieces 0 t.lines) :=
    Placed.ofPieces?_eq (by rwa [Text.flatten_lines, Nat.zero_add])
  rw [sentences?, hplaced]
  rfl

/-- The sentences of a block in an input format. -/
def InputFormat.sentences? : InputFormat → Text → Option (List Sentence)
  | .untokenized => Running.sentences?
  | .vertical => Listed.sentences?

/-- **Both tokenizers stay in words.** -/
theorem InputFormat.sentences?_eq {t : Text} (ht : t.size < Word.bound) (input : InputFormat) :
    input.sentences? t = some (input.sentences t) := by
  cases input with
  | untokenized => exact Running.sentences?_eq ht
  | vertical => exact Listed.sentences?_eq ht

/-! ## Blocks -/

namespace Block

/-- Groups lines into blocks; `gathered` are the lines of the block under way. Each line is looked
at behind those that were gathered before it. -/
def group? (gathered : List Text) : List (Option Text) → Option (List Item)
  | [] => return if gathered.isEmpty then [] else [.block gathered.flatten]
  | none :: rest => do
    let items ← group? [] rest
    return .unreadable :: items
  | some line :: rest => do
    let block := (gathered ++ [line]).flatten
    let last ← Text.slice? block (Text.size gathered.flatten) (Text.size block)
    if last.isBlankLine then
      let items ← group? [] rest
      return .block block :: items
    else group? (gathered ++ [line]) rest

/-- The items of an input. -/
def items? (input : Bytes) : Option (List Item) :=
  group? [] ((Text.cutAfter (UInt8.ofNat 10) input).map Text.ofUtf8?)

theorem group?_eq (gathered : List Text) (lines : List (Option Text)) :
    group? gathered lines = some (group gathered lines) := by
  induction lines generalizing gathered with
  | nil => rfl
  | cons line rest ih =>
    cases line with
    | none =>
      rw [group?, ih]
      rfl
    | some line =>
      have hflatten : (gathered ++ [line]).flatten = gathered.flatten ++ line := by simp
      have hslice : Text.slice? (gathered.flatten ++ line) (Text.size gathered.flatten)
          (Text.size (gathered.flatten ++ line)) = some line :=
        Text.slice?_eq_some_iff.mpr ⟨gathered.flatten, [], by simp, rfl, by simp⟩
      simp only [group?, group, hflatten, hslice, ih, Option.bind_eq_bind, Option.bind_some,
        Option.pure_def]
      cases line.isBlankLine <;> rfl

/-- **Reading blocks does not fail**, but for lines that cannot be read. -/
theorem items?_eq (input : Bytes) : items? input = some (items input) :=
  group?_eq [] _

/-! ## The room that blocks take -/

/-- The room for an item: its bytes, and one for the line at its end. -/
def Item.weight : Item → Nat
  | .block text => text.size + 1
  | .unreadable => 1

/-- The room for items. -/
def weight (items : List Item) : Nat :=
  (items.map Item.weight).sum

@[simp] theorem weight_nil : weight [] = 0 := rfl

@[simp] theorem weight_cons (item : Item) (items : List Item) :
    weight (item :: items) = item.weight + weight items :=
  List.sum_cons

/-- The room for a line that is read, and for its end. -/
def lineWeight (line : Option Text) : Nat :=
  (line.getD []).size + 1

/-- Blocks take no more room than the lines they are made of. -/
theorem weight_group_le (gathered : List Text) (lines : List (Option Text)) :
    weight (group gathered lines)
      ≤ Text.size gathered.flatten + gathered.length + (lines.map lineWeight).sum := by
  induction lines generalizing gathered with
  | nil =>
    cases gathered with
    | nil => simp [group]
    | cons line rest => simp [group, Item.weight]
  | cons line rest ih =>
    rw [List.map_cons, List.sum_cons]
    cases line with
    | none =>
      have hrest := ih []
      simp only [group, weight_cons, Item.weight, lineWeight, List.flatten_nil, Text.size_nil,
        List.length_nil, Option.getD_none] at hrest ⊢
      omega
    | some line =>
      rw [group]
      split
      · have hrest := ih []
        simp only [weight_cons, Item.weight, lineWeight, List.flatten_append, List.flatten_cons,
          List.flatten_nil, List.append_nil, Text.size_append, Text.size_nil, List.length_nil,
          Option.getD_some] at hrest ⊢
        omega
      · have hrest := ih (gathered ++ [line])
        simp only [lineWeight, List.flatten_append, List.flatten_cons, List.flatten_nil,
          List.append_nil, Text.size_append, List.length_append, List.length_singleton,
          Option.getD_some] at hrest ⊢
        omega

theorem lineWeight_ofUtf8?_le (bytes : Bytes) :
    lineWeight (Text.ofUtf8? bytes) ≤ bytes.length + 1 := by
  cases h : Text.ofUtf8? bytes with
  | none => exact Nat.le_add_left _ _
  | some t =>
    rw [← Text.utf8_of_ofUtf8? h, Text.length_utf8]
    exact le_refl _

/-- Lines hold a byte at least, so that their ends take no more room than they do. -/
theorem sum_lineWeight_le {lines : List Bytes} (hne : ∀ bytes ∈ lines, bytes ≠ []) :
    ((lines.map Text.ofUtf8?).map lineWeight).sum ≤ 2 * lines.flatten.length := by
  induction lines with
  | nil => exact le_refl 0
  | cons bytes rest ih =>
    obtain ⟨hbytes, hrest⟩ := List.forall_mem_cons.mp hne
    have hsum := ih hrest
    have hpos := List.length_pos_iff.mpr hbytes
    have hle := lineWeight_ofUtf8?_le bytes
    rw [List.map_cons, List.map_cons, List.sum_cons, List.flatten_cons, List.length_append]
    omega

/-- **The blocks of an input take no more than twice its room.** -/
theorem weight_items_le (input : Bytes) : weight (items input) ≤ 2 * input.length := by
  have hgroup := weight_group_le [] ((Text.cutAfter (UInt8.ofNat 10) input).map Text.ofUtf8?)
  have hlines : _ ≤ 2 * (Text.cutAfter (UInt8.ofNat 10) input).flatten.length :=
    sum_lineWeight_le fun _ => Text.ne_nil_of_mem_cutAfter
  rw [Text.flatten_cutAfter] at hlines
  simp only [List.flatten_nil, Text.size_nil, List.length_nil, Nat.zero_add] at hgroup
  exact hgroup.trans hlines

end Block

end EntityMarkup
