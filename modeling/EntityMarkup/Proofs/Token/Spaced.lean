import EntityMarkup.Proofs.Text.Spaced
import EntityMarkup.Proofs.Token.Listed
import EntityMarkup.Proofs.Token.Splitting

/-!
# Tokens of words one space apart

The words of a text are what stands between white space; its tokens are cut at word boundaries. Put
one space apart, words have the tokens that each of them has by itself, unless a word begins with a
character that is attached to the space before it: then a token holds that space.

* `segments_spaced`: the segments of words one space apart.
* **`forms_spaced`**: and their tokens, which are those of each word.
* `exists_space_mem_forms`: a space with a character attached to it is in a token.
* **`map_toLower_forms_spaced_iff`**: when the tokens are the words again.
-/

namespace EntityMarkup

namespace Text

open Unicode

/-- Words one space apart. -/
def spaced (words : List Text) : Text :=
  [' '].intercalate words

/-- A text that is a word: it is not empty, and white space is not in it. -/
structure IsWord (t : Text) : Prop where
  nonempty : t ≠ []
  noBlank : ∀ c ∈ t, isBlank c = false

/-- A text whose first character is attached to what stands before it. -/
def isAttached (t : Text) : Bool :=
  (t.head?.map fun c => (WordClass.ofChar c).isAttached).getD false

variable {w v : Text} {ws : List Text}

theorem spaced_singleton (w : Text) : spaced [w] = w := by
  simp [spaced]

theorem spaced_cons_cons (w v : Text) (ws : List Text) :
    spaced (w :: v :: ws) = w ++ ' ' :: spaced (v :: ws) := by
  simp [spaced, List.intercalate]

theorem exists_spaced_cons (c : Char) (w : Text) (ws : List Text) :
    ∃ rest, spaced ((c :: w) :: ws) = c :: rest := by
  cases ws with
  | nil => exact ⟨w, spaced_singleton _⟩
  | cons v ws => exact ⟨_, spaced_cons_cons _ v ws⟩

theorem exists_head?_spaced (hws : ∀ w ∈ ws, w ≠ []) (hne : ws ≠ []) :
    ∃ w ∈ ws, ∃ c ∈ w, (spaced ws).head? = some c := by
  obtain ⟨w, ws, rfl⟩ := List.exists_cons_of_ne_nil hne
  obtain ⟨c, w, rfl⟩ := List.exists_cons_of_ne_nil (hws w List.mem_cons_self)
  obtain ⟨rest, hrest⟩ := exists_spaced_cons c w ws
  exact ⟨c :: w, List.mem_cons_self, c, List.mem_cons_self, by rw [hrest]; rfl⟩

theorem exists_getLast?_spaced (hws : ∀ w ∈ ws, w ≠ []) (hne : ws ≠ []) :
    ∃ w ∈ ws, ∃ c ∈ w, (spaced ws).getLast? = some c := by
  induction ws with
  | nil => exact absurd rfl hne
  | cons w ws ih =>
    obtain ⟨hw, hws⟩ := List.forall_mem_cons.mp hws
    cases ws with
    | nil =>
      rw [spaced_singleton]
      exact ⟨w, List.mem_cons_self, _, List.getLast_mem hw, List.getLast?_eq_some_getLast hw⟩
    | cons v ws =>
      obtain ⟨u, hu, c, hc, hlast⟩ := ih hws (List.cons_ne_nil v ws)
      refine ⟨u, List.mem_cons_of_mem _ hu, c, hc, ?_⟩
      rw [spaced_cons_cons, List.getLast?_append, List.getLast?_cons, hlast]
      rfl

theorem eq_space_or_mem_of_mem_spaced {c : Char} (h : c ∈ spaced ws) :
    c = ' ' ∨ ∃ w ∈ ws, c ∈ w := by
  induction ws with
  | nil => cases h
  | cons w ws ih =>
    cases ws with
    | nil =>
      rw [spaced_singleton] at h
      exact Or.inr ⟨w, List.mem_cons_self, h⟩
    | cons v ws =>
      rw [spaced_cons_cons, List.mem_append, List.mem_cons] at h
      rcases h with h | h | h
      · exact Or.inr ⟨w, List.mem_cons_self, h⟩
      · exact Or.inl h
      · exact (ih h).imp_right fun ⟨u, hu, hc⟩ => ⟨u, List.mem_cons_of_mem _ hu, hc⟩

theorem not_of_mem_splitOnP {α : Type} {p : α → Bool} {xs piece : List α}
    (h : piece ∈ xs.splitOnP p) : ∀ a ∈ piece, p a = false := by
  induction xs generalizing piece with
  | nil =>
    rw [List.splitOnP_nil, List.mem_singleton] at h
    simp [h]
  | cons x xs ih =>
    rw [List.splitOnP_cons_eq_if_modifyHead] at h
    split at h
    · rcases List.mem_cons.mp h with rfl | h
      · simp
      · exact ih h
    · rename_i hx
      obtain ⟨first, rest, hfirst⟩ := List.exists_cons_of_ne_nil (List.splitOnP_ne_nil p xs)
      rw [hfirst, List.modifyHead_cons] at h
      rw [hfirst] at ih
      rcases List.mem_cons.mp h with rfl | h
      · exact List.forall_mem_cons.mpr ⟨Bool.eq_false_iff.mpr hx, ih List.mem_cons_self⟩
      · exact ih (List.mem_cons_of_mem _ h)

theorem isWord_of_mem_words {t : Text} (h : w ∈ t.words) : IsWord w := by
  obtain ⟨hpiece, hne⟩ := List.mem_filter.mp h
  refine ⟨?_, not_of_mem_splitOnP hpiece⟩
  rintro rfl
  cases hne

/-! ## Segments -/

/-- A word that is not attached has its own segments behind a space. -/
theorem segments_spaced (hw : IsWord w) (hv : IsWord v) (hattached : v.isAttached = false)
    (ws : List Text) :
    segments (spaced (w :: v :: ws)) = segments w ++ [' '] :: segments (spaced (v :: ws)) := by
  obtain ⟨c, u, rfl⟩ := List.exists_cons_of_ne_nil hv.nonempty
  obtain ⟨rest, hrest⟩ := exists_spaced_cons c u ws
  rw [spaced_cons_cons, segments_append_space hw.noBlank, hrest,
    segments_space_cons (hv.noBlank c List.mem_cons_self) hattached]

/-- Where a word is attached to the space before it, a segment holds that space. -/
theorem exists_space_mem_segments (hws : ∀ w ∈ ws, IsWord w)
    (h : ∃ v ∈ ws.tail, v.isAttached = true) :
    ∃ s ∈ segments (spaced ws), ' ' ∈ s ∧ s.isAllBlank = false := by
  induction ws with
  | nil =>
    obtain ⟨v, hv, -⟩ := h
    cases hv
  | cons w ws ih =>
    cases ws with
    | nil =>
      obtain ⟨v, hv, -⟩ := h
      cases hv
    | cons v ws =>
      obtain ⟨hw, hws⟩ := List.forall_mem_cons.mp hws
      have hv := hws v List.mem_cons_self
      cases hattached : v.isAttached with
      | true =>
        obtain ⟨c, u, rfl⟩ := List.exists_cons_of_ne_nil hv.nonempty
        obtain ⟨rest, hrest⟩ := exists_spaced_cons c u ws
        obtain ⟨more, others, hsegments⟩ := exists_segments_space_cons hattached rest
        rw [spaced_cons_cons, segments_append_space hw.noBlank, hrest, hsegments]
        refine ⟨' ' :: c :: more, List.mem_append_right _ List.mem_cons_self,
          List.mem_cons_self, ?_⟩
        refine List.all_eq_false.mpr ⟨c, List.mem_cons_of_mem _ List.mem_cons_self, ?_⟩
        rw [hv.noBlank c List.mem_cons_self]
        nofun
      | false =>
        rw [segments_spaced hw hv hattached]
        have hlater : ∃ v' ∈ (v :: ws).tail, v'.isAttached = true := by
          obtain ⟨v', hv', hattached'⟩ := h
          rcases List.mem_cons.mp hv' with rfl | hv'
          · rw [hattached] at hattached'
            cases hattached'
          · exact ⟨v', hv', hattached'⟩
        obtain ⟨s, hs, hspace⟩ := ih hws hlater
        exact ⟨s, List.mem_append_right _ (List.mem_cons_of_mem _ hs), hspace⟩

end Text

namespace Running

open Text (IsWord spaced Tiled)

variable {ps qs : List Placed} {w v t : Text} {ws : List Text}

theorem isAbbreviationStop_shift (k : Nat) (p q : Placed) :
    isAbbreviationStop (p.shift k) (q.shift k) = isAbbreviationStop p q := by
  simp only [isAbbreviationStop, Placed.shift, Placed.stop, Nat.add_right_comm _ k,
    Bool.beq_eq_decide_eq, Nat.add_right_cancel_iff]

/-- Where a text stands does not matter to its abbreviations. -/
theorem joinAbbreviations_map_shift (k : Nat) (ps : List Placed) :
    joinAbbreviations (ps.map (Placed.shift k)) =
      (joinAbbreviations ps).map (Placed.shift k) := by
  fun_induction joinAbbreviations ps with
  | case1 => rfl
  | case2 => rfl
  | case3 p q rest hjoin ih =>
    rw [List.map_cons, List.map_cons, joinAbbreviations, isAbbreviationStop_shift, if_pos hjoin, ih]
    rfl
  | case4 p q rest hjoin ih =>
    rw [List.map_cons, List.map_cons, joinAbbreviations, isAbbreviationStop_shift, if_neg hjoin,
      ← List.map_cons, ih, List.map_cons]

theorem joinAbbreviations_append
    (h : ∀ p ∈ ps, ∀ q ∈ qs, isAbbreviationStop p q = false) :
    joinAbbreviations (ps ++ qs) = joinAbbreviations ps ++ joinAbbreviations qs := by
  fun_induction joinAbbreviations ps with
  | case1 => rfl
  | case2 p =>
    cases qs with
    | nil => rfl
    | cons q qs =>
      rw [List.singleton_append, joinAbbreviations,
        h p List.mem_cons_self q List.mem_cons_self, if_neg Bool.false_ne_true,
        List.singleton_append]
  | case3 p q rest hjoin ih =>
    rw [List.cons_append, List.cons_append, joinAbbreviations, if_pos hjoin, List.cons_append,
      ih fun p hp => h p (List.mem_cons_of_mem _ (List.mem_cons_of_mem _ hp))]
  | case4 p q rest hjoin ih =>
    rw [List.cons_append, List.cons_append, joinAbbreviations, if_neg hjoin, List.cons_append,
      ← List.cons_append, ih fun p hp => h p (List.mem_cons_of_mem _ hp)]

/-! ## Forms -/

/-- The forms of all tokens of a text. -/
def forms (t : Text) : List Text :=
  (joinAbbreviations (words t)).map Placed.form

theorem map_form_flatten_sentences (t : Text) :
    (sentences t).flatten.map Token.form = forms t := by
  rw [forms, ← map_piece_sentences, List.map_map]
  rfl

/-- A word that is not attached has its own pieces behind a space. -/
theorem words_spaced (hw : IsWord w) (hv : IsWord v) (hattached : v.isAttached = false)
    (ws : List Text) :
    words (spaced (w :: v :: ws)) =
      words w ++ (words (spaced (v :: ws))).map (Placed.shift (w.size + 1)) := by
  have hsize : 0 + Text.size (Text.segments w).flatten + Text.size [' '] = 0 + (w.size + 1) := by
    rw [Text.flatten_segments]
    rfl
  have hspace : Text.isAllBlank [' '] = true := by decide
  rw [words, Text.segments_spaced hw hv hattached, Placed.ofPieces_append, List.filter_append,
    Placed.ofPieces, List.filter_cons, hspace, hsize, Placed.ofPieces_add, List.filter_map]
  rfl

theorem forms_spaced_cons (hw : IsWord w) (hv : IsWord v) (hattached : v.isAttached = false)
    (ws : List Text) : forms (spaced (w :: v :: ws)) = forms w ++ forms (spaced (v :: ws)) := by
  have happart : ∀ p ∈ words w,
      ∀ q ∈ (words (spaced (v :: ws))).map (Placed.shift (w.size + 1)),
        isAbbreviationStop p q = false := by
    intro p hp q hq
    obtain ⟨u, after, ht, hstart, -⟩ := (tiled_words w).exists_append_of_mem hp
    obtain ⟨q, -, rfl⟩ := List.mem_map.mp hq
    have hsize := congrArg Text.size ht
    rw [Text.size_append, Text.size_append] at hsize
    have hne : p.stop ≠ (q.shift (w.size + 1)).start := by
      simp only [Placed.stop, Placed.shift]
      omega
    rw [isAbbreviationStop, beq_false_of_ne hne, Bool.and_false, Bool.false_and]
  rw [forms, words_spaced hw hv hattached, joinAbbreviations_append happart,
    joinAbbreviations_map_shift, List.map_append, Placed.map_form_map_shift]
  rfl

/-- **Words one space apart have the tokens that each of them has by itself**, if no word is
attached to the space before it. -/
theorem forms_spaced (hws : ∀ w ∈ ws, IsWord w) (hdetached : ∀ v ∈ ws.tail, v.isAttached = false) :
    forms (spaced ws) = ws.flatMap forms := by
  induction ws with
  | nil =>
    rw [forms, words, spaced]
    simp [Text.segments, Placed.ofPieces, joinAbbreviations]
  | cons w ws ih =>
    cases ws with
    | nil => rw [Text.spaced_singleton, List.flatMap_singleton]
    | cons v ws =>
      obtain ⟨hw, hws⟩ := List.forall_mem_cons.mp hws
      rw [forms_spaced_cons hw (hws v List.mem_cons_self) (hdetached v List.mem_cons_self),
        ih hws fun u hu => hdetached u (List.mem_cons_of_mem _ hu)]
      exact List.flatMap_cons.symm

/-- No character of a piece is lost when full stops are joined. -/
theorem exists_mem_form_joinAbbreviations {c : Char} (hc : c ≠ '.')
    (h : ∃ p ∈ ps, c ∈ p.form) : ∃ p ∈ joinAbbreviations ps, c ∈ p.form := by
  fun_induction joinAbbreviations ps with
  | case1 => exact h
  | case2 => exact h
  | case3 p q rest hjoin ih =>
    obtain ⟨-, hq, -⟩ := isAbbreviationStop_iff.mp hjoin
    obtain ⟨r, hr, hcr⟩ := h
    rcases List.mem_cons.mp hr with rfl | hr
    · exact ⟨_, List.mem_cons_self, List.mem_append_left _ hcr⟩
    · rcases List.mem_cons.mp hr with rfl | hr
      · rw [hq, List.mem_singleton] at hcr
        exact absurd hcr hc
      · obtain ⟨r, hr, hcr⟩ := ih ⟨r, hr, hcr⟩
        exact ⟨r, List.mem_cons_of_mem _ hr, hcr⟩
  | case4 p q rest hjoin ih =>
    obtain ⟨r, hr, hcr⟩ := h
    rcases List.mem_cons.mp hr with rfl | hr
    · exact ⟨_, List.mem_cons_self, hcr⟩
    · obtain ⟨r, hr, hcr⟩ := ih ⟨r, hr, hcr⟩
      exact ⟨r, List.mem_cons_of_mem _ hr, hcr⟩

/-- **A space with a word attached to it is in a token.** -/
theorem exists_space_mem_forms (hws : ∀ w ∈ ws, IsWord w)
    (h : ∃ v ∈ ws.tail, v.isAttached = true) : ∃ form ∈ forms (spaced ws), ' ' ∈ form := by
  obtain ⟨s, hs, hspace, hblank⟩ := Text.exists_space_mem_segments hws h
  rw [← Placed.map_form_ofPieces 0 (Text.segments _)] at hs
  obtain ⟨p, hp, rfl⟩ := List.mem_map.mp hs
  have hword : p ∈ words (spaced ws) :=
    List.mem_filter.mpr ⟨hp, (Bool.not_eq_true' _).mpr hblank⟩
  obtain ⟨q, hq, hspace⟩ := exists_mem_form_joinAbbreviations (by decide) ⟨p, hword, hspace⟩
  exact ⟨q.form, List.mem_map_of_mem hq, hspace⟩

end Running

/-! ## What the forms of a text are made of -/

namespace Text.Tiled

variable {gap : Char → Bool} {n : Nat} {t : Text} {ps : List Placed}

/-- Pieces hold what is not left out, in order. -/
theorem filter_flatten (h : Tiled gap n t ps) :
    (ps.map Placed.form).flatten.filter (!gap ·) = t.filter (!gap ·) := by
  have hgap : ∀ u : Text, u.all gap = true → u.filter (!gap ·) = [] := by
    intro u hu
    refine List.filter_eq_nil_iff.mpr fun c hc => ?_
    rw [List.all_eq_true.mp hu c hc]
    nofun
  induction ps generalizing n t with
  | nil => exact (hgap t h).symm
  | cons p rest ih =>
    obtain ⟨before, after, rfl, hbefore, -, -, hrest⟩ := h
    rw [List.map_cons, List.flatten_cons, List.filter_append, ih hrest, List.filter_append,
      List.filter_append, hgap before hbefore, List.nil_append]

/-- And nothing that is not in the text. -/
theorem flatten_sublist (h : Tiled gap n t ps) : (ps.map Placed.form).flatten.Sublist t := by
  induction ps generalizing n t with
  | nil => exact List.nil_sublist t
  | cons p rest ih =>
    obtain ⟨before, after, rfl, -, -, -, hrest⟩ := h
    rw [List.map_cons, List.flatten_cons]
    exact ((ih hrest).append_left p.form).trans (List.sublist_append_right before _)

end Text.Tiled

namespace Running

open Text (IsWord spaced)
open Unicode (isBlank toLower)

variable {w t : Text} {ws : List Text}

theorem filter_flatten_forms (t : Text) :
    (forms t).flatten.filter (!isBlank ·) = t.filter (!isBlank ·) :=
  (Text.tiled_joinAbbreviations (tiled_words t)).filter_flatten

theorem filter_of_noBlank (h : ∀ c ∈ t, isBlank c = false) : t.filter (!isBlank ·) = t :=
  List.filter_eq_self.mpr fun c hc => by rw [h c hc]; rfl

/-- The tokens of a word, put together, are the word. -/
theorem flatten_forms (hw : IsWord w) : (forms w).flatten = w := by
  have hsublist := (Text.tiled_joinAbbreviations (tiled_words w)).flatten_sublist
  have hnone : ∀ c ∈ (forms w).flatten, isBlank c = false :=
    fun c hc => hw.noBlank c (hsublist.subset hc)
  rw [← filter_of_noBlank hnone, filter_flatten_forms, filter_of_noBlank hw.noBlank]

theorem forms_ne_nil (hw : IsWord w) : forms w ≠ [] := by
  intro hnil
  have hflat := flatten_forms hw
  rw [hnil] at hflat
  exact hw.nonempty hflat.symm

theorem length_le_length_flatMap {α β : Type} {f : α → List β} {xs : List α}
    (hne : ∀ x ∈ xs, f x ≠ []) : xs.length ≤ (xs.flatMap f).length := by
  induction xs with
  | nil => exact Nat.le_refl 0
  | cons x xs ih =>
    obtain ⟨hx, hxs⟩ := List.forall_mem_cons.mp hne
    have hpos := List.length_pos_iff.mpr hx
    have hle := ih hxs
    rw [List.flatMap_cons, List.length_append, List.length_cons]
    omega

/-- Lists that are not empty have one element each if they have no more than there are lists. -/
theorem length_eq_one_of_length_flatMap {α β : Type} {f : α → List β} {xs : List α}
    (hne : ∀ x ∈ xs, f x ≠ []) (h : (xs.flatMap f).length ≤ xs.length) :
    ∀ x ∈ xs, (f x).length = 1 := by
  induction xs with
  | nil => exact nofun
  | cons x xs ih =>
    obtain ⟨hx, hxs⟩ := List.forall_mem_cons.mp hne
    have hpos := List.length_pos_iff.mpr hx
    have hle := length_le_length_flatMap hxs
    rw [List.flatMap_cons, List.length_append, List.length_cons] at h
    exact List.forall_mem_cons.mpr ⟨by omega, ih hxs (by omega)⟩

/-- Words have no fewer tokens than there are words. So if they have as many, each is a token. -/
theorem forms_eq_singleton (hws : ∀ w ∈ ws, IsWord w)
    (h : (ws.flatMap forms).length = ws.length) : ∀ w ∈ ws, forms w = [w] := by
  intro w hw
  obtain ⟨form, hform⟩ := List.length_eq_one_iff.mp
    (length_eq_one_of_length_flatMap (fun w hw => forms_ne_nil (hws w hw)) (Nat.le_of_eq h) w hw)
  have hflat := flatten_forms (hws w hw)
  rw [hform, List.flatten_singleton] at hflat
  rw [hform, hflat]

/-- What words one space apart are besides the spaces. -/
theorem filter_spaced (hws : ∀ w ∈ ws, IsWord w) :
    (spaced ws).filter (!isBlank ·) = ws.flatten := by
  induction ws with
  | nil => rfl
  | cons w ws ih =>
    obtain ⟨hw, hws⟩ := List.forall_mem_cons.mp hws
    cases ws with
    | nil =>
      rw [Text.spaced_singleton, filter_of_noBlank hw.noBlank, List.flatten_singleton]
    | cons v ws =>
      have hspace : isBlank ' ' = true := by decide
      rw [Text.spaced_cons_cons, List.filter_append, List.filter_cons, hspace, ih hws,
        filter_of_noBlank hw.noBlank]
      rfl

/-- Texts that are the same in lower case are as long as each other but for their dotted I's. -/
theorem length_flatten_of_map_toLower {xs ys : List Text} (h : xs.map toLower = ys.map toLower) :
    xs.flatten.length + xs.flatten.count '\u0130' =
      ys.flatten.length + ys.flatten.count '\u0130' := by
  have hlength : ∀ xs : List Text, (xs.map toLower).flatten.length =
      xs.flatten.length + xs.flatten.count '\u0130' := by
    intro xs
    induction xs with
    | nil => rfl
    | cons x xs ih =>
      simp only [List.map_cons, List.flatten_cons, List.length_append, List.count_append, ih,
        Unicode.length_toLower]
      omega
  rw [← hlength, ← hlength, h]

/-- **Tokens that are the words again, in any case, hold no space.** -/
theorem space_not_mem_of_map_toLower (hws : ∀ w ∈ ws, IsWord w)
    (h : (forms (spaced ws)).map toLower = ws.map toLower) :
    ∀ form ∈ forms (spaced ws), ' ' ∉ form := by
  intro form hform hspace
  have hfilter := (filter_flatten_forms (spaced ws)).trans (filter_spaced hws)
  have hlength := length_flatten_of_map_toLower h
  have hdotted : ws.flatten.count '\u0130' = (forms (spaced ws)).flatten.count '\u0130' := by
    rw [← hfilter, List.count_filter (by decide)]
  have hshorter : ws.flatten.length < (forms (spaced ws)).flatten.length := by
    rw [← hfilter]
    refine List.length_filter_lt_length_iff_exists.mpr ⟨' ', ?_, by decide⟩
    exact List.mem_flatten.mpr ⟨form, hform, hspace⟩
  omega

/-- **The tokens of words one space apart are the words again, in any case**, exactly if each word
is one token by itself and none is attached to the space before it. -/
theorem map_toLower_forms_spaced_iff (hws : ∀ w ∈ ws, IsWord w) :
    (forms (spaced ws)).map toLower = ws.map toLower ↔
      (∀ w ∈ ws, forms w = [w]) ∧ ∀ v ∈ ws.tail, v.isAttached = false := by
  constructor
  · intro h
    have hdetached : ∀ v ∈ ws.tail, v.isAttached = false := by
      intro v hv
      refine Bool.eq_false_iff.mpr fun hattached => ?_
      obtain ⟨form, hform, hspace⟩ := exists_space_mem_forms hws ⟨v, hv, hattached⟩
      exact space_not_mem_of_map_toLower hws h form hform hspace
    rw [forms_spaced hws hdetached] at h
    have hlength := congrArg List.length h
    rw [List.length_map, List.length_map] at hlength
    exact ⟨forms_eq_singleton hws hlength, hdetached⟩
  · rintro ⟨hsingle, hdetached⟩
    rw [forms_spaced hws hdetached, List.flatMap_congr hsingle, List.flatMap_singleton']

end Running

end EntityMarkup
