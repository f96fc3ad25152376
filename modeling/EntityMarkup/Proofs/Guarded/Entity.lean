import EntityMarkup.Proofs.Entity.Nesting
import EntityMarkup.Proofs.Guarded.Word
import EntityMarkup.Proofs.Render.Sentences

/-!
# Spans in words

The ends of an entity are sums, and a recognizer can answer with any numbers. So the check that an
entity is a span of its sentence has to come first, and must not compute an end that is no word:
`isWordSpanOf` takes such an entity for invalid. Behind the check every end is a word, and an entity
that is not empty has a last token.

* **`checkWordSpans_eq`**: the check in words is the check.
* `stop?_eq`, `last?_eq`: the ends of an entity that is a span.
* **`checkCrossing?_eq`**: the search for crossing entities, and the message that names them.
-/

namespace EntityMarkup

namespace Entity

/-! ## Ends -/

/-- The index after the last token covered. -/
def stop? (e : Entity) : Option Nat :=
  Word.add? e.start e.length

/-- The index of the last token covered. -/
def last? (e : Entity) : Option Nat := do
  let stop ← Word.add? e.start e.length
  Word.sub? stop 1

/-- An entity as it is named in messages. -/
def describe? (e : Entity) : Option String := do
  let stop ← e.stop?
  return e.label ++ "(" ++ toString e.start ++ ".." ++ toString stop ++ ")"

/-- Whether an entity is a span of a sentence; one whose end is no word is none. -/
def isWordSpanOf (e : Entity) (tokens : Nat) : Bool :=
  e.length != 0 && (Word.add? e.start e.length).any (· ≤ tokens)

/-! ## Crossing pairs -/

/-- Whether two spans overlap and neither contains the other. -/
def crosses? (a b : Entity) : Option Bool := do
  let aStop ← a.stop?
  let bStop ← b.stop?
  let overlaps := a.start < bStop && b.start < aStop
  let nested := (a.start ≤ b.start && bStop ≤ aStop) || (b.start ≤ a.start && aStop ≤ bStop)
  return overlaps && !nested

/-- The first of some entities that crosses one before them. The search ends with the first that
begins behind that one. -/
def firstCrossed? (outer : Entity) : List Entity → Option (Option Entity)
  | [] => return none
  | inner :: rest => do
    let stop ← outer.stop?
    if inner.start < stop then
      if ← outer.crosses? inner then return some inner
      else firstCrossed? outer rest
    else return none

/-- The first pair of crossing entities in a list that is in the order of rendering. -/
def findCrossing? : List Entity → Option (Option (Entity × Entity))
  | [] => return none
  | outer :: rest => do
    match ← firstCrossed? outer rest with
    | some inner => return some (outer, inner)
    | none => findCrossing? rest

section Span

variable {e a b outer : Entity} {es : List Entity} {n : Nat} (hn : n < Word.bound)

include hn

theorem isWordSpanOf_eq (e : Entity) : e.isWordSpanOf n = e.isSpanOf n := by
  unfold isWordSpanOf isSpanOf stop Word.add?
  by_cases hword : e.start + e.length < Word.bound
  · rw [if_pos hword]
    rfl
  · have hbehind : ¬ e.start + e.length ≤ n := by omega
    rw [if_neg hword, decide_eq_false hbehind]
    rfl

theorem stop?_eq (he : e.isSpanOf n = true) : e.stop? = some e.stop := by
  obtain ⟨-, hle⟩ := isSpanOf_iff.mp he
  exact Word.add?_of_lt (Nat.lt_of_le_of_lt hle hn)

/-- Of an entity that is no span of its sentence there can be no end. -/
example : (⟨2 ^ 64 - 1, 1, "PER"⟩ : Entity).stop? = none := by decide

theorem last?_eq (he : e.isSpanOf n = true) : e.last? = some e.last := by
  obtain ⟨hne, hle⟩ := isSpanOf_iff.mp he
  have hpos : 1 ≤ e.start + e.length := by omega
  rw [last?, Word.add?_of_lt (Nat.lt_of_le_of_lt hle hn)]
  exact Word.sub?_of_le hpos

theorem describe?_eq (he : e.isSpanOf n = true) : e.describe? = some e.describe := by
  rw [describe?, stop?_eq hn he]
  rfl

theorem crosses?_eq (ha : a.isSpanOf n = true) (hb : b.isSpanOf n = true) :
    a.crosses? b = some (a.crosses b) := by
  rw [crosses?, stop?_eq hn ha, stop?_eq hn hb]
  rfl

theorem firstCrossed?_eq (houter : outer.isSpanOf n = true)
    (hes : ∀ e ∈ es, e.isSpanOf n = true) :
    firstCrossed? outer es
      = some ((es.takeWhile fun e => e.start < outer.stop).find? outer.crosses) := by
  induction es with
  | nil => rfl
  | cons inner rest ih =>
    obtain ⟨hinner, hrest⟩ := List.forall_mem_cons.mp hes
    simp only [firstCrossed?, stop?_eq hn houter, crosses?_eq hn houter hinner, ih hrest,
      Option.bind_eq_bind, Option.bind_some, Option.pure_def]
    by_cases hlt : inner.start < outer.stop
    · rw [if_pos hlt, List.takeWhile_cons_of_pos (by simpa using hlt), List.find?_cons]
      cases outer.crosses inner <;> rfl
    · rw [if_neg hlt, List.takeWhile_cons_of_neg (by simpa using hlt)]
      rfl

theorem findCrossing?_eq (hes : ∀ e ∈ es, e.isSpanOf n = true) :
    findCrossing? es = some (firstCrossing? es) := by
  induction es with
  | nil => rfl
  | cons outer rest ih =>
    obtain ⟨houter, hrest⟩ := List.forall_mem_cons.mp hes
    rw [findCrossing?, firstCrossing?, firstCrossed?_eq hn houter hrest]
    cases (rest.takeWhile fun e => e.start < outer.stop).find? outer.crosses with
    | none => exact ih hrest
    | some inner => rfl

end Span

end Entity

/-! ## The checks of a sentence -/

namespace Renderer

/-- Checks that all entities are spans of a sentence. -/
def checkWordSpans (entities : List Entity) (tokens : Nat) : Except MarkupError Unit :=
  match entities.find? fun e => !e.isWordSpanOf tokens with
  | some e => .error (.invalidSpan e.start e.length tokens)
  | none => .ok ()

/-- Applies the policy on crossing entities. Either way the pair is named in a message. -/
def checkCrossing? (policy : CrossingPolicy) (sorted : List Entity) :
    Option (Except MarkupError (List Event)) := do
  match ← Entity.findCrossing? sorted with
  | none => return .ok []
  | some (first, second) =>
    let _ ← first.describe?
    let _ ← second.describe?
    match policy with
    | .warn => return .ok [.warn (.crossingSpans first second)]
    | .reject => return .error (.crossingSpans first second)

variable {entities : List Entity} {n : Nat} (hn : n < Word.bound)

include hn

/-- **The check in words is the check**, whatever the recognizer answers. -/
theorem checkWordSpans_eq (entities : List Entity) :
    checkWordSpans entities n = checkSpans entities n := by
  have hfind : entities.find? (fun e => !e.isWordSpanOf n) = invalidEntity? entities n := by
    simp only [Entity.isWordSpanOf_eq hn, invalidEntity?]
  cases hinvalid : invalidEntity? entities n <;>
    simp only [checkWordSpans, checkSpans, hfind, hinvalid]

/-- **The search for crossing entities does not fail** among spans of a sentence. -/
theorem checkCrossing?_eq (policy : CrossingPolicy) (hes : ∀ e ∈ entities, e.isSpanOf n = true) :
    checkCrossing? policy entities = some (checkCrossing policy entities) := by
  unfold checkCrossing? checkCrossing
  rw [Entity.findCrossing?_eq hn hes]
  cases hpair : Entity.firstCrossing? entities with
  | none => rfl
  | some pair =>
    obtain ⟨first, second⟩ := pair
    obtain ⟨hfirst, hsecond, -⟩ := Entity.crosses_of_firstCrossing? hpair
    simp only [Option.bind_eq_bind, Option.bind_some, Option.pure_def,
      Entity.describe?_eq hn (hes first hfirst), Entity.describe?_eq hn (hes second hsecond)]
    cases policy <;> rfl

end Renderer

end EntityMarkup
