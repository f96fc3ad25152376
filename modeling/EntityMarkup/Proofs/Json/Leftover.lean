import EntityMarkup.Service.Message

/-!
# What readers leave of a text

A reader takes its value from the front of a text, so what it leaves is an end of that text. This
is shown reader by reader, from the smallest ones up, for all that an order is read with. A text in
quotation marks has at most as many characters as it is written with, whatever its escapes are, so
an order holds no more text than the body it stands in.

* `Leaves`: a reader leaves an end of a text, and something is known of what it reads.
* `Leaves.bind`: how that is put together from step to step.
* `leaves_record`: what every field keeps, a whole record keeps.
* **`Order.length_data_le`**: the text of an order is no longer than the body.
-/

namespace EntityMarkup.Json.Reader

variable {α β σ : Type} {whole : List Char} {P Q : α → Prop} {R : β → Prop}

/-- From any end of a text, a reader leaves an end of that text, and what it reads has a property,
unless it fails. -/
def Leaves (whole : List Char) (r : Reader α) (P : α → Prop) : Prop :=
  ∀ s a rest, s <:+ whole → r.run s = .ok (a, rest) → rest <:+ whole ∧ P a

/-! ## Steps -/

theorem leaves_pure {a : α} (h : P a) : Leaves whole (pure a) P := by
  rintro s _ _ hs ⟨⟩
  exact ⟨hs, h⟩

theorem leaves_malformed : Leaves whole malformed P := by
  rintro s a rest - ⟨⟩

theorem leaves_mismatch : Leaves whole mismatch P := by
  rintro s a rest - ⟨⟩

theorem leaves_get : Leaves whole get (· <:+ whole) := by
  rintro s _ _ hs ⟨⟩
  exact ⟨hs, hs⟩

theorem leaves_modify {f : List Char → List Char} (h : ∀ s, f s <:+ s) :
    Leaves whole (modify f) fun _ => True := by
  rintro s _ _ hs ⟨⟩
  exact ⟨(h s).trans hs, trivial⟩

theorem Leaves.bind {r : Reader α} {f : α → Reader β} (hr : Leaves whole r P)
    (hf : ∀ a, P a → Leaves whole (f a) R) : Leaves whole (r >>= f) R := by
  intro s b rest hs hrun
  cases hfirst : r.run s with
  | error e =>
    rw [StateT.run_bind, hfirst] at hrun
    cases hrun
  | ok answer =>
    obtain ⟨a, rest'⟩ := answer
    rw [StateT.run_bind, hfirst] at hrun
    obtain ⟨hrest', ha⟩ := hr s a rest' hs hfirst
    exact hf a ha rest' b rest hrest' hrun

theorem Leaves.imp {r : Reader α} (hr : Leaves whole r P) (h : ∀ a, P a → Q a) :
    Leaves whole r Q :=
  fun s a rest hs hrun => (hr s a rest hs hrun).imp_right (h a)

theorem leaves_ite {c : Prop} [Decidable c] {r r' : Reader α} (hr : Leaves whole r P)
    (hr' : Leaves whole r' P) : Leaves whole (if c then r else r') P := by
  split
  · exact hr
  · exact hr'

/-- A step that is made only in some cases. -/
theorem leaves_optionally {c : Prop} [Decidable c] {r : Reader Unit} {f : Unit → Reader β}
    (hr : Leaves whole r fun _ => True) (hf : ∀ u, Leaves whole (f u) R) :
    Leaves whole (if c then r >>= f else f ()) R :=
  leaves_ite (hr.bind fun u _ => hf u) (hf ())

/-! ## Characters -/

theorem leaves_skipBlanks : Leaves whole skipBlanks fun _ => True :=
  leaves_modify fun _ => List.dropWhile_suffix _

theorem leaves_peek : Leaves whole peek fun _ => True :=
  leaves_get.bind fun _ _ => leaves_pure trivial

/-- A step that depends on the next character behind blanks. -/
theorem leaves_afterBlanks {f : Option Char → Reader β} (hf : ∀ next, Leaves whole (f next) R) :
    Leaves whole (skipBlanks >>= fun _ => peek >>= f) R :=
  leaves_skipBlanks.bind fun _ _ => leaves_peek.bind fun next _ => hf next

/-- A step that depends on the next character, of which there has to be one. -/
theorem leaves_onNext {f : Char → Reader β} (hf : ∀ c, Leaves whole (f c) R) :
    Leaves whole (do match ← peek with | none => malformed | some c => f c) R := by
  refine leaves_peek.bind fun next _ => ?_
  cases next with
  | none => exact leaves_malformed
  | some c => exact hf c

theorem leaves_advance : Leaves whole advance fun _ => True :=
  leaves_modify fun s => List.drop_suffix 1 s

theorem leaves_expect (word : List Char) : Leaves whole (expect word) fun _ => True :=
  leaves_get.bind fun _ _ =>
    leaves_ite (leaves_modify fun s => List.drop_suffix word.length s) leaves_malformed

theorem leaves_expectAfterBlanks (c : Char) :
    Leaves whole (expectAfterBlanks c) fun _ => True :=
  leaves_skipBlanks.bind fun _ _ => leaves_expect [c]

theorem leaves_takeWhile (p : Char → Bool) : Leaves whole (takeWhile p) fun _ => True :=
  leaves_get.bind fun _ _ =>
    (leaves_modify fun s => List.drop_suffix _ s).bind fun _ _ => leaves_pure trivial

/-! ## Strings -/

theorem leaves_readHex : Leaves whole readHex fun _ => True := by
  refine leaves_get.bind fun s _ => ?_
  dsimp only
  split
  · exact leaves_ite ((leaves_modify fun s => List.drop_suffix 4 s).bind fun _ _ =>
      leaves_pure trivial) leaves_malformed
  · exact leaves_malformed

theorem leaves_readCodeUnits : Leaves whole readCodeUnits fun _ => True := by
  refine leaves_readHex.bind fun first _ => leaves_ite (leaves_pure trivial) ?_
  refine leaves_optionally leaves_malformed fun _ => (leaves_expect _).bind fun _ _ => ?_
  exact leaves_readHex.bind fun second _ =>
    leaves_optionally leaves_malformed fun _ => leaves_pure trivial

theorem leaves_readEscape : Leaves whole readEscape fun _ => True := by
  refine leaves_onNext fun c => leaves_advance.bind fun _ _ => leaves_ite leaves_readCodeUnits ?_
  cases escaped? c with
  | none => exact leaves_malformed
  | some d => exact leaves_pure trivial

theorem leaves_skipEscape : Leaves whole skipEscape fun _ => True :=
  leaves_onNext fun _ => leaves_advance.bind fun _ _ =>
    leaves_ite (leaves_readHex.bind fun _ _ => leaves_pure trivial)
      (leaves_ite (leaves_pure trivial) leaves_malformed)

/-- A step reads one character at most, so there are fewer characters than steps. -/
theorem leaves_readCharsWith {escape : Reader Char} (hescape : Leaves whole escape fun _ => True)
    (fuel : Nat) : Leaves whole (readCharsWith escape fuel) (·.length < fuel) := by
  induction fuel with
  | zero => exact leaves_malformed
  | succ fuel ih =>
    have hnext (d : Char) :
        Leaves whole (do return d :: (← readCharsWith escape fuel)) (·.length < fuel + 1) :=
      ih.bind fun _ hlength => leaves_pure (Nat.succ_lt_succ hlength)
    refine leaves_onNext fun c => leaves_advance.bind fun _ _ => ?_
    refine leaves_ite (leaves_pure (Nat.succ_pos fuel)) ?_
    exact leaves_ite (hescape.bind fun d _ => hnext d) (leaves_ite leaves_malformed (hnext c))

theorem leaves_readChars : Leaves whole readChars (·.length ≤ whole.length) :=
  leaves_get.bind fun s hs => (leaves_readCharsWith leaves_readEscape (s.length + 1)).imp
    fun _ hlength => Nat.le_trans (Nat.le_of_lt_succ hlength) hs.length_le

theorem leaves_skipChars : Leaves whole skipChars fun _ => True :=
  leaves_get.bind fun _ _ =>
    (leaves_readCharsWith leaves_skipEscape _).bind fun _ _ => leaves_pure trivial

/-! ## Numbers -/

theorem leaves_readDigits : Leaves whole readDigits fun _ => True :=
  (leaves_takeWhile _).bind fun _ _ =>
    leaves_optionally leaves_malformed fun _ => leaves_pure trivial

theorem leaves_readFraction : Leaves whole readFraction fun _ => True := by
  refine leaves_peek.bind fun next _ => ?_
  split
  · exact leaves_advance.bind fun _ _ => leaves_readDigits.bind fun _ _ => leaves_pure trivial
  · exact leaves_pure trivial

theorem leaves_readExponent : Leaves whole readExponent fun _ => True := by
  refine leaves_peek.bind fun mark _ => leaves_ite ?_ (leaves_pure trivial)
  refine leaves_advance.bind fun _ _ => leaves_peek.bind fun sign _ => ?_
  exact leaves_optionally leaves_advance fun _ =>
    leaves_readDigits.bind fun _ _ => leaves_pure trivial

theorem leaves_readNumber : Leaves whole readNumber fun _ => True := by
  refine leaves_peek.bind fun mark _ => leaves_optionally leaves_advance fun _ => ?_
  refine leaves_readDigits.bind fun digits _ => leaves_optionally leaves_malformed fun _ => ?_
  exact leaves_readFraction.bind fun _ _ =>
    leaves_readExponent.bind fun _ _ => leaves_pure trivial

theorem leaves_readDouble : Leaves whole readDouble fun _ => True :=
  leaves_readNumber.bind fun _ _ =>
    leaves_optionally leaves_malformed fun _ => leaves_pure trivial

/-! ## Values that are passed over -/

theorem leaves_skipName : Leaves whole skipName fun _ => True :=
  (leaves_expectAfterBlanks _).bind fun _ _ =>
    leaves_skipChars.bind fun _ _ => leaves_expectAfterBlanks _

theorem leaves_skipWithin (fuel : Nat) (open' : List Container) (expected : Expected) :
    Leaves whole (skipWithin fuel open' expected) fun _ => True := by
  induction fuel generalizing open' expected with
  | zero => exact leaves_malformed
  | succ fuel ih =>
    unfold skipWithin
    split
    · contradiction
    · rename_i heq
      cases heq
      refine leaves_skipBlanks.bind fun _ _ => leaves_onNext fun c => ?_
      cases word? c with
      | some word => exact (leaves_expect word).bind fun _ _ => ih _ _
      | none =>
        refine leaves_ite (leaves_readNumber.bind fun _ _ => ih _ _) (leaves_ite ?_ ?_)
        · exact leaves_advance.bind fun _ _ => leaves_skipChars.bind fun _ _ => ih _ _
        · exact leaves_ite (leaves_advance.bind fun _ _ => ih _ _)
            (leaves_ite (leaves_advance.bind fun _ _ => ih _ _) leaves_malformed)
    · exact leaves_pure trivial
    · rename_i heq _
      cases heq
      refine leaves_afterBlanks fun next => ?_
      refine leaves_ite (leaves_advance.bind fun _ _ => ih _ _) ?_
      exact leaves_optionally (leaves_expect _) fun _ =>
        leaves_optionally leaves_skipName fun _ => ih _ _

theorem leaves_skipValue : Leaves whole skipValue fun _ => True :=
  leaves_get.bind fun _ _ => leaves_skipWithin _ _ _

theorem leaves_refuse : Leaves whole refuse P := by
  refine leaves_onNext fun c => ?_
  cases word? c with
  | some word => exact (leaves_expect word).bind fun _ _ => leaves_mismatch
  | none =>
    refine leaves_ite (leaves_readDouble.bind fun _ _ => leaves_mismatch) (leaves_ite ?_ ?_)
    · exact leaves_advance.bind fun _ _ => leaves_readChars.bind fun _ _ => leaves_mismatch
    · exact leaves_ite leaves_mismatch leaves_malformed

/-! ## Values of known kinds -/

theorem leaves_text : Leaves whole text (·.toList.length ≤ whole.length) := by
  refine leaves_afterBlanks fun next => ?_
  refine leaves_ite (leaves_advance.bind fun _ _ => ?_) leaves_refuse
  refine leaves_readChars.bind fun chars hlength => leaves_pure ?_
  rwa [String.toList_ofList]

theorem leaves_null : Leaves whole null fun _ => True :=
  leaves_afterBlanks fun _ =>
    leaves_ite (leaves_expect _) leaves_refuse

theorem leaves_named [Named α] : Leaves whole (named : Reader α) fun _ => True := by
  refine (leaves_expect _).bind fun _ _ => leaves_readChars.bind fun chars _ => ?_
  cases (Named.ofName? (String.ofList chars) : Option α) with
  | none => exact leaves_mismatch
  | some a => exact leaves_pure trivial

theorem leaves_choice [Named α] : Leaves whole (choice : Reader α) fun _ => True := by
  refine leaves_afterBlanks fun next => ?_
  split
  · exact leaves_named
  · refine leaves_advance.bind fun _ _ => leaves_skipBlanks.bind fun _ _ => ?_
    refine leaves_named.bind fun _ _ => (leaves_expectAfterBlanks _).bind fun _ _ => ?_
    exact leaves_null.bind fun _ _ =>
      (leaves_expectAfterBlanks _).bind fun _ _ => leaves_pure trivial
  · exact leaves_malformed

theorem leaves_optional {value : Reader α} (h : Leaves whole value fun _ => True) :
    Leaves whole (optional value) fun _ => True :=
  leaves_afterBlanks fun _ =>
    leaves_ite ((leaves_expect _).bind fun _ _ => leaves_pure trivial)
      (h.bind fun _ _ => leaves_pure trivial)

/-! ## Records -/

variable {S : σ → Prop} {fields : List (Field σ)} {s : σ}

/-- Reading a field keeps a property of what has been read. -/
def Field.Keeps (whole : List Char) (S : σ → Prop) (field : Field σ) : Prop :=
  ∀ s, S s → Leaves whole (field.read s) S

theorem Field.keeps_of {name : String} {get : σ → Option α} {set : σ → α → σ} {value : Reader α}
    (hvalue : Leaves whole value P) (hset : ∀ s a, S s → P a → S (set s a)) :
    (Field.of name get set value).Keeps whole S :=
  fun s hs => hvalue.bind fun a ha => leaves_pure (hset s a hs ha)

theorem leaves_nextElement (closing : Char) (first : Bool) :
    Leaves whole (nextElement closing first) fun _ => True := by
  refine leaves_afterBlanks fun next => ?_
  refine leaves_ite (leaves_pure trivial) (leaves_ite ?_ (leaves_pure trivial))
  exact (leaves_expect _).bind fun _ _ => leaves_skipBlanks.bind fun _ _ => leaves_pure trivial

theorem leaves_elements (hfields : ∀ field ∈ fields, field.Keeps whole S) (hs : S s)
    (first : Bool) : Leaves whole (elements first fields s) S := by
  induction fields generalizing s first with
  | nil => exact (leaves_expectAfterBlanks _).bind fun _ _ => leaves_pure hs
  | cons field rest ih =>
    obtain ⟨hfield, hrest⟩ := List.forall_mem_cons.mp hfields
    refine (leaves_nextElement _ first).bind fun another _ => leaves_ite ?_ ?_
    · exact (hfield s hs).bind fun _ hs' => ih hrest hs' false
    · exact (leaves_expect _).bind fun _ _ => leaves_pure hs

theorem leaves_members (hfields : ∀ field ∈ fields, field.Keeps whole S) (hs : S s) (fuel : Nat)
    (first : Bool) : Leaves whole (members fields fuel first s) S := by
  induction fuel generalizing s first with
  | zero => exact leaves_malformed
  | succ fuel ih =>
    refine (leaves_nextElement _ first).bind fun another _ => leaves_ite ?_ ?_
    · refine (leaves_expect _).bind fun _ _ => leaves_readChars.bind fun chars _ => ?_
      dsimp only
      cases hfind : fields.find? fun field => field.name = String.ofList chars with
      | none =>
        exact (leaves_expectAfterBlanks _).bind fun _ _ =>
          leaves_skipValue.bind fun _ _ => ih hs false
      | some field =>
        refine leaves_optionally leaves_mismatch fun _ => ?_
        refine (leaves_expectAfterBlanks _).bind fun _ _ => ?_
        exact (hfields field (List.mem_of_find?_eq_some hfind) s hs).bind fun _ hs' => ih hs' false
    · exact (leaves_expect _).bind fun _ _ => leaves_pure hs

/-- **What every field of a record keeps, reading the record keeps.** -/
theorem leaves_record (hfields : ∀ field ∈ fields, field.Keeps whole S) (hs : S s) :
    Leaves whole (record fields s) S := by
  refine leaves_afterBlanks fun next => ?_
  split
  · exact leaves_advance.bind fun _ _ => leaves_elements hfields hs true
  · exact leaves_advance.bind fun _ _ =>
      leaves_get.bind fun rest _ => leaves_members hfields hs (rest.length + 1) true
  · exact leaves_refuse

theorem leaves_require {read : Option α} (h : ∀ a ∈ read, P a) : Leaves whole (require read) P := by
  cases read with
  | none => exact leaves_mismatch
  | some a => exact leaves_pure (h a rfl)

end EntityMarkup.Json.Reader

namespace EntityMarkup.Service.Order

open Json.Reader

/-- The text that was given, if any, is no longer than another. -/
def Given.Within (whole : List Char) (given : Given) : Prop :=
  ∀ data ∈ given.data, data.toList.length ≤ whole.length

theorem leaves_reader (whole : List Char) :
    Leaves whole reader (·.data.toList.length ≤ whole.length) := by
  refine Leaves.bind (P := Given.Within whole) (leaves_record ?_ nofun) fun given hgiven =>
    (leaves_require hgiven).bind fun _ hdata => leaves_pure hdata
  intro field hfield
  simp only [List.mem_cons, List.not_mem_nil, or_false] at hfield
  rcases hfield with rfl | rfl | rfl
  · refine Field.keeps_of leaves_text ?_
    rintro given text - htext _ ⟨⟩
    exact htext
  · exact Field.keeps_of (leaves_optional leaves_choice) fun _ _ hgiven _ => hgiven
  · exact Field.keeps_of (leaves_optional leaves_choice) fun _ _ hgiven _ => hgiven

/-- **An order holds no more text than the body it stands in.** -/
theorem length_data_le {body : String} {order : Order} (h : ofBody body = .ok order) :
    order.data.toList.length ≤ body.toList.length := by
  cases hrun : reader.run body.toList with
  | error fault =>
    rw [ofBody, readFront, hrun] at h
    cases h
  | ok answer =>
    rw [ofBody, readFront, hrun] at h
    cases h
    exact (leaves_reader body.toList _ _ _ List.suffix_rfl hrun).2

end EntityMarkup.Service.Order
