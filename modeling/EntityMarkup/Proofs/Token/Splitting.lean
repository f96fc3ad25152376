import EntityMarkup.Proofs.Token.Tiling

/-!
# Where sentences of running text end

Running text is split behind runs of final punctuation: `IsSplit` says of sentences what such a
split is, and there is only one of any sequence of tokens. The tokens themselves are the words of
the text, of which a full stop right behind an abbreviation has been joined to it, and no others
(`JoinsStops`).

* **`isSplit_iff`**: the splits are what `List.splitBy` gives for neighbours of one sentence, so
  that there is exactly one of each sequence.
* `joinsStops_joinAbbreviations`: which words are joined.
* `not_stopsAbbreviation_of_mem`: no full stop is left behind an abbreviation.
* **`Running.sentences_split`**: all of this, of the sentences of any text.
-/

namespace EntityMarkup.Running

/-! ## Splits -/

/-- A split of a sequence into sentences. None is empty; behind an element that ends a sentence
there are only such elements in it; each sentence but the last has one, and each but the first
begins with another. -/
structure IsSplit {α : Type} (ends : α → Bool) (sentences : List (List α)) : Prop where
  nonempty : ∀ s ∈ sentences, s ≠ []
  behind : ∀ s ∈ sentences, s.Pairwise fun a b => ends a = true → ends b = true
  ended : ∀ s ∈ sentences.dropLast, ∃ a ∈ s, ends a = true
  begins : ∀ s ∈ sentences.tail, ∃ a, s.head? = some a ∧ ends a = false

variable {α β : Type} {ends : α → Bool} {s s' : List α} {rest : List (List α)}

theorem isSplit_nil : IsSplit ends ([] : List (List α)) :=
  ⟨by simp, by simp, by simp, by simp⟩

theorem isSplit_singleton :
    IsSplit ends [s] ↔ s ≠ [] ∧ s.Pairwise fun a b => ends a = true → ends b = true :=
  ⟨fun h => ⟨h.nonempty s List.mem_cons_self, h.behind s List.mem_cons_self⟩,
    fun h => ⟨by simpa using h.1, by simpa using h.2, by simp, by simp⟩⟩

theorem isSplit_cons_cons :
    IsSplit ends (s :: s' :: rest) ↔
      s ≠ [] ∧ (s.Pairwise fun a b => ends a = true → ends b = true) ∧
        (∃ a ∈ s, ends a = true) ∧ (∃ a, s'.head? = some a ∧ ends a = false) ∧
        IsSplit ends (s' :: rest) := by
  constructor
  · rintro ⟨hnonempty, hbehind, hended, hbegins⟩
    rw [List.dropLast_cons_cons] at hended
    rw [List.tail_cons] at hbegins
    obtain ⟨hs, hnonempty⟩ := List.forall_mem_cons.mp hnonempty
    obtain ⟨hbehind, hbehinds⟩ := List.forall_mem_cons.mp hbehind
    obtain ⟨hended, hendeds⟩ := List.forall_mem_cons.mp hended
    obtain ⟨hbegins, hrest⟩ := List.forall_mem_cons.mp hbegins
    exact ⟨hs, hbehind, hended, hbegins, hnonempty, hbehinds, hendeds, hrest⟩
  · rintro ⟨hs, hbehind, hended, hbegins, hnonempty, hbehinds, hendeds, hrest⟩
    exact ⟨List.forall_mem_cons.mpr ⟨hs, hnonempty⟩, List.forall_mem_cons.mpr ⟨hbehind, hbehinds⟩,
      List.forall_mem_cons.mpr ⟨hended, hendeds⟩, List.forall_mem_cons.mpr ⟨hbegins, hrest⟩⟩

/-- What is a split when the elements are looked at in a certain way is one of the elements. -/
theorem IsSplit.of_map {f : β → α} {sentences : List (List β)}
    (h : IsSplit ends (sentences.map (List.map f))) : IsSplit (ends ∘ f) sentences := by
  obtain ⟨hnonempty, hbehind, hended, hbegins⟩ := h
  rw [← List.map_dropLast] at hended
  rw [← List.map_tail] at hbegins
  rw [List.forall_mem_map] at hnonempty hbehind hended hbegins
  refine ⟨fun s hs => ?_, fun s hs => List.pairwise_map.mp (hbehind s hs), fun s hs => ?_,
    fun s hs => ?_⟩
  · exact fun hnil => hnonempty s hs (List.map_eq_nil_iff.mpr hnil)
  · obtain ⟨a, ha, hends⟩ := hended s hs
    obtain ⟨b, hb, rfl⟩ := List.mem_map.mp ha
    exact ⟨b, hb, hends⟩
  · obtain ⟨a, ha, hends⟩ := hbegins s hs
    rw [List.head?_map] at ha
    obtain ⟨b, hb, rfl⟩ := Option.map_eq_some_iff.mp ha
    exact ⟨b, hb, hends⟩

/-! ## There is one split -/

/-- Two neighbours are in one sentence unless the second begins the next. -/
def staysIn (ends : α → Bool) (a b : α) : Bool :=
  !ends a || ends b

theorem staysIn_eq_true_iff {a b : α} :
    staysIn ends a b = true ↔ (ends a = true → ends b = true) := by
  unfold staysIn
  cases ends a <;> simp

theorem staysIn_eq_false_iff {a b : α} :
    staysIn ends a b = false ↔ ends a = true ∧ ends b = false := by
  unfold staysIn
  cases ends a <;> simp

/-- What holds of neighbours in a sentence holds of any two elements of it. -/
theorem isChain_staysIn_iff :
    (s.IsChain fun a b => staysIn ends a b = true) ↔
      s.Pairwise fun a b => ends a = true → ends b = true := by
  simp only [staysIn_eq_true_iff]
  have htrans : IsTrans α fun a b => ends a = true → ends b = true :=
    ⟨fun _ _ _ hab hbc ha => hbc (hab ha)⟩
  exact List.isChain_iff_pairwise

theorem ends_getLast (hbehind : s.Pairwise fun a b => ends a = true → ends b = true)
    (hended : ∃ a ∈ s, ends a = true) (hs : s ≠ []) : ends (s.getLast hs) = true := by
  obtain ⟨a, ha, hends⟩ := hended
  obtain ⟨start, last, rfl⟩ := List.eq_nil_or_concat s |>.resolve_left hs
  rw [List.concat_eq_append] at hbehind ha
  simp only [List.concat_eq_append, List.getLast_append_singleton]
  rcases List.mem_append.mp ha with ha | ha
  · exact (List.pairwise_append.mp hbehind).2.2 a ha last (List.mem_singleton_self last) hends
  · rwa [List.mem_singleton.mp ha] at hends

/-- **A sequence has exactly one split**, which is that into runs of neighbours that stay in one
sentence. -/
theorem isSplit_iff {sentences : List (List α)} :
    IsSplit ends sentences ↔ sentences.flatten.splitBy (staysIn ends) = sentences := by
  rw [List.splitBy_eq_iff]
  simp only [true_and, isChain_staysIn_iff]
  induction sentences with
  | nil => simp [isSplit_nil]
  | cons s rest ih =>
    cases rest with
    | nil =>
      rw [isSplit_singleton, List.mem_singleton, eq_comm]
      simp
    | cons s' rest =>
      rw [isSplit_cons_cons, ih, List.isChain_cons_cons]
      constructor
      · rintro ⟨hs, hbehind, hended, ⟨a, ha, hends⟩, hnil, hbehinds, hchain⟩
        obtain ⟨start, rfl⟩ := List.head?_eq_some_iff.mp ha
        have hlast := ends_getLast hbehind hended hs
        exact ⟨List.not_mem_cons_of_ne_of_not_mem hs.symm hnil,
          List.forall_mem_cons.mpr ⟨hbehind, hbehinds⟩,
          ⟨hs, List.cons_ne_nil a start, staysIn_eq_false_iff.mpr ⟨hlast, hends⟩⟩, hchain⟩
      · rintro ⟨hnil, hbehind, ⟨hs, hs', hstays⟩, hchain⟩
        obtain ⟨hbehind, hbehinds⟩ := List.forall_mem_cons.mp hbehind
        obtain ⟨hlast, hhead⟩ := staysIn_eq_false_iff.mp hstays
        exact ⟨hs, hbehind, ⟨_, List.getLast_mem hs, hlast⟩,
          ⟨_, List.head?_eq_some_head hs', hhead⟩, List.not_mem_of_not_mem_cons hnil, hbehinds,
          hchain⟩

/-! ## Full stops of abbreviations -/

/-- A full stop stands right behind an abbreviation. -/
def StopsAbbreviation (p q : Placed) : Prop :=
  p.form ∈ abbreviations ∧ q.form = ['.'] ∧ p.stop = q.start

/-- A token is made of a word, or of an abbreviation and the full stop right behind it. -/
inductive MadeOf : Placed → List Placed → Prop
  | word (p : Placed) : MadeOf p [p]
  | stopped {p q : Placed} : StopsAbbreviation p q → MadeOf ⟨p.start, p.form ++ ['.']⟩ [p, q]

/-- Tokens are made of all words in order, and no full stop right behind an abbreviation has been
left out: the words that are neighbours but belong to different tokens are no such pair. -/
def JoinsStops (words tokens : List Placed) : Prop :=
  ∃ groups : List (List Placed), groups.flatten = words ∧ List.Forall₂ MadeOf tokens groups ∧
    groups.IsChain fun g g' => ∀ p ∈ g.getLast?, ∀ q ∈ g'.head?, ¬ StopsAbbreviation p q

variable {p q : Placed} {ps : List Placed}

theorem isAbbreviationStop_iff : isAbbreviationStop p q = true ↔ StopsAbbreviation p q := by
  simp only [isAbbreviationStop, StopsAbbreviation, Bool.and_eq_true, beq_iff_eq,
    List.contains_iff_mem]
  tauto

/-- No abbreviation ends with a full stop. -/
theorem append_stop_not_mem_abbreviations (form : Text) : form ++ ['.'] ∉ abbreviations := by
  intro hmem
  have hlast : ∀ a ∈ abbreviations, a.getLast? ≠ some '.' := by decide
  exact hlast _ hmem (by simp)

theorem not_stopsAbbreviation_append_stop {start : Nat} {form : Text} :
    ¬ StopsAbbreviation ⟨start, form ++ ['.']⟩ q :=
  fun h => append_stop_not_mem_abbreviations form h.1

/-- What a full stop has been joined to is not nothing. -/
theorem StopsAbbreviation.form_append_ne (h : StopsAbbreviation p q) : p.form ++ ['.'] ≠ ['.'] := by
  intro hform
  have hnil : p.form = [] := by simpa using hform
  have hmem := h.1
  rw [hnil] at hmem
  revert hmem
  decide

/-- **Exactly the full stops right behind abbreviations are joined to them.** -/
theorem joinsStops_joinAbbreviations (words : List Placed) :
    JoinsStops words (joinAbbreviations words) := by
  fun_induction joinAbbreviations words with
  | case1 => exact ⟨[], rfl, .nil, .nil⟩
  | case2 p => exact ⟨[[p]], rfl, .cons (.word p) .nil, .singleton _⟩
  | case3 p q rest hjoin ih =>
    obtain ⟨groups, hflat, hmade, hchain⟩ := ih
    have hstop := isAbbreviationStop_iff.mp hjoin
    refine ⟨[p, q] :: groups, by rw [List.flatten_cons, hflat]; rfl,
      .cons (.stopped hstop) hmade, List.isChain_cons.mpr ⟨fun g _ p' hp' q' _ => ?_, hchain⟩⟩
    -- the full stop is no abbreviation that has another one behind it
    obtain rfl : q = p' := by simpa using hp'
    have hform : q = ⟨q.start, [] ++ ['.']⟩ := by rw [List.nil_append, ← hstop.2.1]
    rw [hform]
    exact not_stopsAbbreviation_append_stop
  | case4 p q rest hjoin ih =>
    obtain ⟨groups, hflat, hmade, hchain⟩ := ih
    refine ⟨[p] :: groups, by rw [List.flatten_cons, hflat]; rfl, .cons (.word p) hmade,
      List.isChain_cons.mpr ⟨fun g hg p' hp' q' hq' => ?_, hchain⟩⟩
    obtain rfl : p = p' := by simpa using hp'
    obtain ⟨more, rfl⟩ := List.head?_eq_some_iff.mp hg
    obtain ⟨others, rfl⟩ := List.head?_eq_some_iff.mp hq'
    obtain ⟨rfl, -⟩ := List.cons_eq_cons.mp hflat
    exact fun hstop => hjoin (isAbbreviationStop_iff.mpr hstop)

/-- The first token is the first word, or has it with its full stop. -/
theorem of_mem_head?_joinAbbreviations {rest : List Placed}
    (h : q ∈ (joinAbbreviations (p :: rest)).head?) :
    q = p ∨ ∃ r, StopsAbbreviation p r ∧ q = ⟨p.start, p.form ++ ['.']⟩ := by
  cases rest with
  | nil => exact Or.inl (Option.some.inj h).symm
  | cons r rest =>
    rw [joinAbbreviations] at h
    split at h
    · rename_i hjoin
      exact Or.inr ⟨r, isAbbreviationStop_iff.mp hjoin, (Option.some.inj h).symm⟩
    · exact Or.inl (Option.some.inj h).symm

/-- Of two neighbouring tokens the second is no full stop right behind an abbreviation. -/
theorem isChain_joinAbbreviations (words : List Placed) :
    (joinAbbreviations words).IsChain fun p q => ¬ StopsAbbreviation p q := by
  fun_induction joinAbbreviations words with
  | case1 => exact .nil
  | case2 p => exact .singleton p
  | case3 p q rest _ ih =>
    exact List.isChain_cons.mpr ⟨fun _ _ => not_stopsAbbreviation_append_stop, ih⟩
  | case4 p q rest hjoin ih =>
    refine List.isChain_cons.mpr ⟨fun q' hq' hstop => ?_, ih⟩
    rcases of_mem_head?_joinAbbreviations hq' with rfl | ⟨r, hr, rfl⟩
    · exact hjoin (isAbbreviationStop_iff.mpr hstop)
    · exact hr.form_append_ne hstop.2.1

/-- Pieces of a text that touch are neighbours, so that what holds of neighbours holds of them. -/
theorem of_stop_eq_start {R : Placed → Placed → Prop} (hchain : ps.IsChain R)
    (hapart : ps.Pairwise fun p q => p.stop ≤ q.start) (hsize : ∀ p ∈ ps, p.start < p.stop)
    (hp : p ∈ ps) (hq : q ∈ ps) (htouch : p.stop = q.start) : R p q := by
  induction ps with
  | nil => cases hp
  | cons r rest ih =>
    obtain ⟨hnext, hrest⟩ := List.isChain_cons.mp hchain
    obtain ⟨hbehind, haparts⟩ := List.pairwise_cons.mp hapart
    obtain ⟨hroom, hsizes⟩ := List.forall_mem_cons.mp hsize
    rcases List.mem_cons.mp hp with rfl | hp'
    · rcases List.mem_cons.mp hq with rfl | hq'
      · omega
      · cases rest with
        | nil => cases hq'
        | cons x rest =>
          rcases List.mem_cons.mp hq' with rfl | hq'
          · exact hnext q rfl
          · -- the piece between them would have no room
            have hbefore := hbehind x List.mem_cons_self
            have hafter := (List.pairwise_cons.mp haparts).1 q hq'
            have hmiddle := hsizes x List.mem_cons_self
            omega
    · rcases List.mem_cons.mp hq with rfl | hq'
      · have hbefore := hbehind p hp'
        have hmiddle := hsizes p hp'
        omega
      · exact ih hrest haparts hsizes hp' hq'

/-- **No full stop is left right behind an abbreviation.** -/
theorem not_stopsAbbreviation_of_mem {t : Text} {a b : Token}
    (ha : a ∈ (sentences t).flatten) (hb : b ∈ (sentences t).flatten) :
    ¬ StopsAbbreviation a.piece b.piece := by
  have htiled := tiled_sentences t
  have hsize : ∀ p ∈ (sentences t).flatten.map Token.piece, p.start < p.stop := by
    intro p hp
    obtain ⟨-, -, -, -, hform⟩ := htiled.exists_append_of_mem hp
    have hpos : p.form.size ≠ 0 := fun h => hform (Text.size_eq_zero_iff.mp h)
    rw [Placed.stop]
    omega
  have hchain : ((sentences t).flatten.map Token.piece).IsChain
      fun p q => ¬ StopsAbbreviation p q := by
    rw [map_piece_sentences]
    exact isChain_joinAbbreviations (words t)
  exact fun hstop => of_stop_eq_start hchain htiled.pairwise hsize (List.mem_map_of_mem ha)
    (List.mem_map_of_mem hb) hstop.2.2 hstop

/-! ## The sentences of a text -/

theorem map_map_piece_sentences (t : Text) :
    (sentences t).map (List.map Token.piece)
      = (joinAbbreviations (words t)).splitBy (staysIn isTerminal) := by
  rw [sentences, List.map_map]
  refine (List.map_congr_left fun pieces _ => ?_).trans (List.map_id _)
  exact Placed.map_piece_sentence pieces

/-- **Sentences end with their final punctuation.** The sentences of a text are the one split of its
tokens at final punctuation; a full stop right behind an abbreviation is no token of its own; and
the tokens are the words of the text that are not all white space, with exactly such full stops
joined to the abbreviations before them. -/
theorem sentences_split (t : Text) :
    IsSplit (fun token : Token => decide (token.form ∈ terminals)) (sentences t) ∧
      (∀ groups : List (List Placed), groups.flatten = (sentences t).flatten.map Token.piece →
        IsSplit (fun p : Placed => decide (p.form ∈ terminals)) groups →
        groups = (sentences t).map (List.map Token.piece)) ∧
      (∀ a ∈ (sentences t).flatten, ∀ b ∈ (sentences t).flatten,
        a.form ∈ abbreviations → b.form = ['.'] → a.start + a.length ≠ b.start) ∧
      JoinsStops ((Placed.ofPieces 0 t.segments).filter fun p => !p.form.isAllBlank)
        ((sentences t).flatten.map Token.piece) := by
  have hends : (fun p : Placed => decide (p.form ∈ terminals)) = isTerminal := by
    funext p
    exact (List.contains_eq_mem p.form terminals).symm
  have hsplit : IsSplit isTerminal ((sentences t).map (List.map Token.piece)) := by
    rw [isSplit_iff, map_map_piece_sentences, List.flatten_splitBy]
  refine ⟨?_, fun groups hflat hgroups => ?_, fun a ha b hb hform hstop htouch => ?_, ?_⟩
  · rw [← hends] at hsplit
    exact hsplit.of_map
  · rw [hends, isSplit_iff] at hgroups
    rw [← hgroups, hflat, List.map_flatten, isSplit_iff.mp hsplit]
  · have hpiece : a.piece.stop = b.piece.start :=
      (@InputFormat.stop_piece .untokenized t a ha).trans htouch
    exact not_stopsAbbreviation_of_mem ha hb ⟨hform, hstop, hpiece⟩
  · rw [map_piece_sentences]
    exact joinsStops_joinAbbreviations (words t)

/-- A second full stop stays alone, and so does one that white space divides from an abbreviation;
final punctuation can also begin a text. -/
example : (sentences "?! Dr.. Eng . fim".toList).map (·.map fun token => String.ofList token.form)
    = [["?", "!"], ["Dr.", "."], ["Eng", "."], ["fim"]] := by
  decide +kernel

end EntityMarkup.Running
