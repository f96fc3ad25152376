import EntityMarkup.Pattern.Escape

/-!
# Bracketed sets in patterns

A set in brackets lists characters, ranges, categories and further sets in brackets; a circumflex
at its beginning negates it. Within it, `&&`, `--` and `~~` stand for intersection, difference and
symmetric difference: each applies to all that precedes it and to the items up to the next of them.
Where case does not matter, every operand is closed under case before it is combined.

`Items` is a set in the making, and `Items.read` reads on up to its closing bracket.
-/

namespace EntityMarkup.Pattern

namespace Bracket

/-- What is made of two operands. -/
abbrev Operation := CharClass → CharClass → CharClass

/-- A part of a set: what it has, and how deeply it is nested. -/
structure Part where
  set : CharClass
  depth : Nat := 0

/-- A set in the making. -/
structure Items where
  /-- What precedes the last operation, with that operation. -/
  left : Option (Part × Operation) := none
  /-- The items since then. -/
  items : List Part := []

namespace Items

/-- Adds an item. -/
def add (s : Items) (item : Part) : Items :=
  { s with items := s.items ++ [item] }

/-- The items since the last operation: more than one are nested in their union. -/
def operand (flags : Flags) (s : Items) : Part :=
  let set := (CharClass.unions (s.items.map Part.set)).foldIf flags.ignoreCase
  let depth := (s.items.map Part.depth).foldl max 0
  { set, depth := if 1 < s.items.length then depth + 1 else depth }

/-- The set so far: both operands are nested in an operation. -/
def combined (flags : Flags) (s : Items) : Part :=
  let right := s.operand flags
  match s.left with
  | some (left, operation) =>
    { set := operation left.set right.set, depth := max left.depth right.depth + 1 }
  | none => right

/-- Begins the next operand. -/
def apply (flags : Flags) (s : Items) (operation : Operation) : Items :=
  { left := some (s.combined flags, operation) }

/-- The set, which is nested in its brackets. -/
def closed (flags : Flags) (s : Items) (negated : Bool) : Part :=
  let inner := s.combined flags
  { set := inner.set.negateIf negated, depth := inner.depth + 1 }

end Items

/-! ## Items -/

/-- A set that is named between colons in brackets of its own, from the first colon on. -/
def readNamed? (flags : Flags) : List Char → Option (CharClass × List Char)
  | ':' :: rest =>
    let negated := rest.head? == some '^'
    let rest := if negated then rest.drop 1 else rest
    let name := rest.takeWhile (· != ':')
    match rest.drop name.length, CharClass.ascii? (String.ofList name) with
    | ':' :: ']' :: rest', some set =>
      some ((set.foldIf flags.ignoreCase).negateIf negated, rest')
    | _, _ => none
  | _ => none

/-- One end of a range, or an item by itself. -/
def readEnd (flags : Flags) : List Char → Except Fault (Primitive × List Char)
  | [] => .error .unclosedClass
  | '\\' :: rest => Escape.read flags rest
  | c :: rest => .ok (.literal c, rest)

/-- The set that an item by itself stands for. -/
def itemSet : Primitive → Except Fault CharClass
  | .literal c => .ok (.single c)
  | .set s => .ok s
  | .place _ => .error .invalidClassItem

/-- A range or an item by itself. A hyphen before a closing bracket or before another hyphen does
not make a range. -/
def readRange (flags : Flags) (cs : List Char) : Except Fault (CharClass × List Char) := do
  let (first, rest) ← readEnd flags cs
  let single : Except Fault (CharClass × List Char) := do
    let set ← itemSet first
    return (set, rest)
  match rest with
  | [] => .error .unclosedClass
  | '-' :: ']' :: _ => single
  | '-' :: '-' :: _ => single
  | '-' :: rest' =>
    let (last, rest'') ← readEnd flags rest'
    match first, last with
    | .literal a, .literal b =>
      if a ≤ b then return (.range a b, rest'') else .error .invalidRange
    | _, _ => .error .invalidClassItem
  | _ => single

/-! ## Sets -/

/-- How a set begins: whether it is negated, and the hyphens and the closing bracket that are meant
literally because they come first. -/
def readOpening (cs : List Char) : Bool × Items × List Char :=
  let negated := cs.head? == some '^'
  let cs := if negated then cs.drop 1 else cs
  let hyphens := cs.takeWhile (· == '-')
  let items : Items := { items := hyphens.map fun c => { set := .single c } }
  match cs.drop hyphens.length with
  | ']' :: rest =>
    if hyphens.isEmpty then (negated, items.add { set := .single ']' }, rest)
    else (negated, items, ']' :: rest)
  | rest => (negated, items, rest)

/-- Reads sets up to the bracket that closes the outermost one. `outer` are the sets around the one
under way, the innermost first, each with whether it is negated. Every step takes a character, so
the length of the text bounds their number. -/
def readSets (flags : Flags) : Nat → List (Bool × Items) → Bool × Items → List Char →
    Except Fault (Part × List Char)
  | 0, _, _, _ => .error .unclosedClass
  | _, _, _, [] => .error .unclosedClass
  | fuel + 1, outer, (negated, s), ']' :: rest =>
    let part := s.closed flags negated
    match outer with
    | [] => .ok (part, rest)
    | (n, o) :: outer' => readSets flags fuel outer' (n, o.add part) rest
  | fuel + 1, outer, (negated, s), '[' :: rest =>
    match readNamed? flags rest with
    | some (set, rest') => readSets flags fuel outer (negated, s.add { set }) rest'
    | none =>
      let (n, items, rest') := readOpening rest
      readSets flags fuel ((negated, s) :: outer) (n, items) rest'
  | fuel + 1, outer, (negated, s), '&' :: '&' :: rest =>
    readSets flags fuel outer (negated, s.apply flags .inter) rest
  | fuel + 1, outer, (negated, s), '-' :: '-' :: rest =>
    readSets flags fuel outer (negated, s.apply flags .diff) rest
  | fuel + 1, outer, (negated, s), '~' :: '~' :: rest =>
    readSets flags fuel outer (negated, s.apply flags .symmDiff) rest
  | fuel + 1, outer, (negated, s), cs => do
    let (set, rest) ← readRange flags cs
    readSets flags fuel outer (negated, s.add { set }) rest

/-- A bracketed set, from after its opening bracket. -/
def read (flags : Flags) (cs : List Char) : Except Fault (Part × List Char) :=
  let (negated, items, rest) := readOpening cs
  readSets flags (cs.length + 1) [] (negated, items) rest

end Bracket

end EntityMarkup.Pattern
