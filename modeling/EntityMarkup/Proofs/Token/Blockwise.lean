import EntityMarkup.Proofs.Block.Reading
import EntityMarkup.Proofs.Token.Listed

/-!
# Listed text, read block by block

A blank line ends both a block and a sentence. So listed text has the same sentences whether it is
read as a whole or block by block, and a block never has more than one. Only offsets differ: in a
block they are counted from where the block begins, so that each token has to be shifted by what
stands before its block (`Token.shift`).

* `sentencesOfLines_add`: the sentences of lines that stand further behind.
* `sentencesOfLines_append`: lines behind a blank one have sentences of their own.
* **`blockwise_ofText`**: the sentences of the blocks, shifted, are those of the text.
* `map_forms_sentences_append`: what stands behind a blank line has sentences of its own.
* `length_sentences_of_mem_ofText`: each block has one of them at most.
-/

namespace EntityMarkup

/-! ## Sentences elsewhere -/

/-- A token of a block, as a token of a text in which `n` bytes stand before the block. -/
def Token.shift (n : Nat) (t : Token) : Token :=
  { t with start := t.start + n }

/-- A sentence of a block, as a sentence of a text in which `n` bytes stand before the block. -/
def Sentence.shift (n : Nat) (tokens : Sentence) : Sentence :=
  tokens.map (Token.shift n)

@[simp] theorem Sentence.forms_shift (n : Nat) (tokens : Sentence) :
    (tokens.shift n).forms = tokens.forms := by
  rw [forms, shift, List.map_map]
  rfl

theorem Placed.sentence_map_shift (n : Nat) (pieces : List Placed) :
    sentence (pieces.map (shift n)) = Sentence.shift n (sentence pieces) := by
  apply List.ext_getElem (by simp [sentence, Sentence.shift])
  intro i _ _
  simp [sentence, Sentence.shift, Token.shift, Token.ofForm, shift]

namespace Listed

open Text (AreLines)

/-! ## Sentences of lines -/

/-- The sentences of the contents of lines. -/
def sentencesOf (pieces : List Placed) : List Sentence :=
  ((pieces.splitOnP fun p => p.form.isEmpty).filter (!·.isEmpty)).map Placed.sentence

/-- Where the lines stand makes no difference but for the offsets. -/
theorem sentencesOf_map_shift (n : Nat) (pieces : List Placed) :
    sentencesOf (pieces.map (Placed.shift n)) = (sentencesOf pieces).map (Sentence.shift n) := by
  rw [sentencesOf, splitOnP_map, List.filter_map, List.map_map]
  simp [sentencesOf, Placed.shift, Function.comp_def, Placed.sentence_map_shift]

/-- What stands behind a line without content has sentences of its own. -/
theorem sentencesOf_append {p : Placed} (hp : p.form = []) (ps qs : List Placed) :
    sentencesOf (ps ++ p :: qs) = sentencesOf ps ++ sentencesOf qs := by
  have hempty : (fun q : Placed => q.form.isEmpty) p = true := List.isEmpty_iff.mpr hp
  rw [sentencesOf, List.splitOnP_append_cons ps qs hempty, List.filter_append, List.map_append]
  rfl

/-- The sentences of lines, the first of which starts at an offset. -/
def sentencesOfLines (n : Nat) (ls : List Text) : List Sentence :=
  sentencesOf ((Placed.ofPieces n ls).map content)

theorem sentences_flatten {ls : List Text} (h : AreLines ls) :
    sentences ls.flatten = sentencesOfLines 0 ls := by
  rw [sentences, contents, Text.lines_flatten h]
  rfl

theorem sentencesOfLines_add (n k : Nat) (ls : List Text) :
    sentencesOfLines (n + k) ls = (sentencesOfLines n ls).map (Sentence.shift k) := by
  have hcontent : ((Placed.ofPieces n ls).map (Placed.shift k)).map content
      = ((Placed.ofPieces n ls).map content).map (Placed.shift k) := by
    rw [List.map_map, List.map_map]
    rfl
  rw [sentencesOfLines, Placed.ofPieces_add, hcontent, sentencesOf_map_shift, sentencesOfLines]

theorem sentencesOfLines_append {line : Text} (hblank : line.isBlankLine = true) (n : Nat)
    (xs ys : List Text) :
    sentencesOfLines n (xs ++ line :: ys) =
      sentencesOfLines n xs ++ sentencesOfLines (n + Text.size (xs ++ [line]).flatten) ys := by
  have hform : (content ⟨n + Text.size xs.flatten, line⟩).form = [] :=
    Text.trimLineEnd_eq_nil_iff.mpr hblank
  have hoffset : n + Text.size (xs ++ [line]).flatten = n + Text.size xs.flatten + line.size := by
    rw [List.flatten_append, List.flatten_singleton, Text.size_append, Nat.add_assoc]
  rw [sentencesOfLines, Placed.ofPieces_append, List.map_append, hoffset]
  exact sentencesOf_append hform _ _

/-! ## Sentences of blocks -/

/-- The sentences of a block that stands somewhere in a text, as sentences of that text. -/
def sentencesIn (block : Placed) : List Sentence :=
  (sentences block.form).map (Sentence.shift block.start)

/-- The sentences of blocks that stand one behind the other, as sentences of the text that the
blocks make up. -/
def blockwise (blocks : List Text) : List Sentence :=
  (Placed.ofPieces 0 blocks).flatMap sentencesIn

/-- Apart from offsets, these are the sentences that each block has by itself. -/
theorem map_forms_blockwise (blocks : List Text) :
    (blockwise blocks).map Sentence.forms = (blocks.flatMap sentences).map Sentence.forms := by
  have hforms : ∀ block, (sentencesIn block).map Sentence.forms
      = (sentences block.form).map Sentence.forms := by
    intro block
    rw [sentencesIn, List.map_map]
    exact List.map_congr_left fun tokens _ => Sentence.forms_shift _ tokens
  rw [blockwise, List.map_flatMap, List.map_flatMap, ← Placed.map_form_ofPieces 0 blocks,
    List.flatMap_map, Placed.map_form_ofPieces]
  exact List.flatMap_congr fun block _ => hforms block

theorem flatMap_sentencesIn {ls : List Text} (h : AreLines ls) (n : Nat) :
    (Placed.ofPieces n (Block.ofLines [] ls)).flatMap sentencesIn = sentencesOfLines n ls := by
  refine Block.ofLines_induction (motive := fun ls blocks => ∀ n,
    (Placed.ofPieces n blocks).flatMap sentencesIn = sentencesOfLines n ls) (fun n => rfl) ?_ h n
  intro body ending rest hlines _ hending ih n
  have hblock :
      sentencesIn ⟨n, (body ++ ending).flatten⟩ = sentencesOfLines n (body ++ ending) := by
    rw [sentencesIn, sentences_flatten hlines, ← sentencesOfLines_add, Nat.zero_add]
  rw [Placed.ofPieces, List.flatMap_cons, hblock, ih]
  rcases hending with ⟨line, rfl, hblank⟩ | ⟨rfl, rfl⟩
  · have hnone : ∀ m, sentencesOfLines m [] = [] := fun _ => rfl
    rw [List.append_assoc, List.singleton_append, sentencesOfLines_append hblank,
      sentencesOfLines_append hblank, hnone, List.append_nil]
  · rw [List.append_nil, List.append_nil]
    exact List.append_nil _

/-- **Read block by block, a text has the sentences that it has as a whole.** -/
theorem blockwise_ofText (t : Text) : blockwise (Block.ofText t) = sentences t :=
  flatMap_sentencesIn t.areLines_lines 0

/-- What stands behind a blank line has sentences of its own. -/
theorem map_forms_sentences_append {x : Text} (hx : Block.EndsBlank x) (y : Text) :
    (sentences (x ++ y)).map Sentence.forms
      = (sentences x).map Sentence.forms ++ (sentences y).map Sentence.forms := by
  simp only [← blockwise_ofText, map_forms_blockwise, Block.ofText_append hx, List.flatMap_append,
    List.map_append]

/-- A block has one sentence at most. -/
theorem length_sentences_of_mem_ofText {t block : Text} (h : block ∈ Block.ofText t) :
    (sentences block).length ≤ 1 := by
  refine Block.ofLines_induction (motive := fun _ blocks => ∀ block ∈ blocks,
    (sentences block).length ≤ 1) (fun _ hnone => absurd hnone List.not_mem_nil) ?_
    t.areLines_lines block h
  intro body ending rest hlines hbody hending ih
  refine List.forall_mem_cons.mpr ⟨length_sentences_le_one hlines hbody ?_, ih⟩
  rcases hending with ⟨line, rfl, hblank⟩ | ⟨rfl, -⟩
  · exact List.forall_mem_singleton.mpr hblank
  · exact fun _ hnone => absurd hnone List.not_mem_nil

end Listed

end EntityMarkup
