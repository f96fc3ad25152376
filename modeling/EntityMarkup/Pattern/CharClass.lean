import EntityMarkup.Pattern.Category
import EntityMarkup.Unicode.Blank

/-!
# Sets of characters in patterns

A `CharClass` is what a pattern accepts in one place. It is kept as the code points at which
membership changes, in ascending order, so two classes that have the same characters are equal.
Every operation on two sets is a sweep over the changes of both (`combine`), which keeps them in
that order (`pairwise_sweep`).
-/

namespace EntityMarkup.Pattern

/-! ## Changes of membership -/

namespace Changes

/-- Whether a code point is a member, where `before` says so for those before the first change. -/
def hasAfter (before : Bool) : List Nat → Nat → Bool
  | [], _ => before
  | x :: xs, n => if n < x then before else hasAfter (!before) xs n

/-- Puts a change from `p` to `q` before others, if it is one. -/
def emit (x : Nat) (p q : Bool) (rest : List Nat) : List Nat :=
  if p = q then rest else x :: rest

/-- The changes of what `op` makes of two memberships, of which `a` and `b` are the values before
the first changes. -/
def sweep (op : Bool → Bool → Bool) (a b : Bool) : List Nat → List Nat → List Nat
  | [], [] => []
  | x :: xs, [] => emit x (op a b) (op (!a) b) (sweep op (!a) b xs [])
  | [], y :: ys => emit y (op a b) (op a (!b)) (sweep op a (!b) [] ys)
  | x :: xs, y :: ys =>
    if x < y then emit x (op a b) (op (!a) b) (sweep op (!a) b xs (y :: ys))
    else if y < x then emit y (op a b) (op a (!b)) (sweep op a (!b) (x :: xs) ys)
    else emit x (op a b) (op (!a) (!b)) (sweep op (!a) (!b) xs ys)
termination_by xs ys => xs.length + ys.length

theorem mem_emit {x z : Nat} {p q : Bool} {rest : List Nat} (h : z ∈ emit x p q rest) :
    z = x ∨ z ∈ rest := by
  unfold emit at h
  split at h <;> simp_all

theorem pairwise_emit {x : Nat} {p q : Bool} {rest : List Nat} (h : ∀ z ∈ rest, x < z)
    (hr : rest.Pairwise (· < ·)) : (emit x p q rest).Pairwise (· < ·) := by
  unfold emit
  split
  · exact hr
  · exact .cons h hr

theorem mem_of_mem_sweep {op : Bool → Bool → Bool} {a b : Bool} {xs ys : List Nat} {z : Nat}
    (h : z ∈ sweep op a b xs ys) : z ∈ xs ∨ z ∈ ys := by
  fun_induction sweep op a b xs ys <;> grind [→ mem_emit]

theorem pairwise_sweep {op : Bool → Bool → Bool} {a b : Bool} {xs ys : List Nat}
    (hx : xs.Pairwise (· < ·)) (hy : ys.Pairwise (· < ·)) :
    (sweep op a b xs ys).Pairwise (· < ·) := by
  fun_induction sweep op a b xs ys <;>
    grind [List.pairwise_cons, pairwise_emit, → mem_of_mem_sweep]

end Changes

/-! ## Classes -/

/-- A set of characters. -/
structure CharClass where
  /-- The code points at which membership changes. -/
  changes : List Nat
  ascending : changes.Pairwise (· < ·)
  deriving DecidableEq, Repr

namespace CharClass

/-- Whether a class has a character. -/
def has (s : CharClass) (c : Char) : Bool :=
  Changes.hasAfter false s.changes c.toNat

/-- The class without characters. -/
def none : CharClass where
  changes := []
  ascending := .nil

/-- The code points from the first up to but not including the second. -/
def span (first stop : Nat) : CharClass where
  changes := if first < stop then [first, stop] else []
  ascending := by split <;> simp [*]

/-- What `op` makes of two classes. -/
def combine (op : Bool → Bool → Bool) (s t : CharClass) : CharClass where
  changes := Changes.sweep op false false s.changes t.changes
  ascending := Changes.pairwise_sweep s.ascending t.ascending

/-! ## Operations -/

/-- The characters of either class. -/
def union (s t : CharClass) : CharClass :=
  combine (fun a b => a || b) s t

/-- The characters of both classes. -/
def inter (s t : CharClass) : CharClass :=
  combine (fun a b => a && b) s t

/-- The characters of the first class that the second does not have. -/
def diff (s t : CharClass) : CharClass :=
  combine (fun a b => a && !b) s t

/-- The characters that exactly one of two classes has. -/
def symmDiff (s t : CharClass) : CharClass :=
  combine xor s t

/-- Every character: surrogates are none. -/
def all : CharClass :=
  (span 0 0xd800).union (span 0xe000 0x110000)

/-- The characters that a class does not have. -/
def complement (s : CharClass) : CharClass :=
  all.diff s

/-- A class or its complement. -/
def negateIf (negated : Bool) (s : CharClass) : CharClass :=
  if negated then s.complement else s

/-- The characters that one of several classes has. -/
def unions : List CharClass → CharClass
  | [] => none
  | [s] => s
  | s :: t :: rest =>
    (unions ((s :: t :: rest).take (rest.length / 2 + 1))).union
      (unions ((s :: t :: rest).drop (rest.length / 2 + 1)))
termination_by sets => sets.length
decreasing_by
  all_goals
    simp only [List.length_take, List.length_drop, List.length_cons]
    omega

/-! ## Characters -/

/-- The characters from one up to another. -/
def range (first last : Char) : CharClass :=
  all.inter (span first.toNat (last.toNat + 1))

/-- One character. -/
def single (c : Char) : CharClass :=
  span c.toNat (c.toNat + 1)

/-- The characters of several ranges. -/
def ranges (pairs : List (Char × Char)) : CharClass :=
  unions (pairs.map fun p => range p.1 p.2)

/-- Several characters. -/
def ofList (cs : List Char) : CharClass :=
  unions (cs.map single)

/-! ## Categories -/

/-- The characters of a table. -/
def ofRuns (runs : Unicode.Runs) : CharClass :=
  unions (runs.toList.map fun r => unions (r.spans.map fun p => span p.1 (p.2 + 1)))

/-- Decimal digits. -/
def digits : CharClass :=
  (range '0' '9').union (ofRuns Category.digitRuns)

/-- Letters, marks, digits and connectors. -/
def wordChars : CharClass :=
  (ranges [('0', '9'), ('A', 'Z'), ('_', '_'), ('a', 'z')]).union (ofRuns Category.wordRuns)

/-- White space. -/
def blanks : CharClass :=
  unions (Unicode.blankRanges.map fun r => span r.1 (r.2 + 1))

/-- Upper-case letters. -/
def upper : CharClass :=
  ofRuns Category.upperRuns

/-- Lower-case letters. -/
def lower : CharClass :=
  ofRuns Category.lowerRuns

/-- The ASCII classes that have names. -/
def ascii? : String → Option CharClass
  | "alnum" => some (ranges [('0', '9'), ('A', 'Z'), ('a', 'z')])
  | "alpha" => some (ranges [('A', 'Z'), ('a', 'z')])
  | "ascii" => some (range '\x00' '\x7f')
  | "blank" => some (ranges [('\t', '\t'), (' ', ' ')])
  | "cntrl" => some (ranges [('\x00', '\x1f'), ('\x7f', '\x7f')])
  | "digit" => some (range '0' '9')
  | "graph" => some (range '!' '~')
  | "lower" => some (range 'a' 'z')
  | "print" => some (range ' ' '~')
  | "punct" => some (ranges [('!', '/'), (':', '@'), ('[', Char.ofNat 0x60), ('\x7b', '~')])
  | "space" => some (ranges [('\t', '\r'), (' ', ' ')])
  | "upper" => some (range 'A' 'Z')
  | "word" => some (ranges [('0', '9'), ('A', 'Z'), ('_', '_'), ('a', 'z')])
  | "xdigit" => some (ranges [('0', '9'), ('A', 'F'), ('a', 'f')])
  | _ => .none

/-! ## Case -/

/-- Each character with those that differ from it in case, as far as there are any. -/
def caseOrbits : List (List Char) :=
  Category.foldRuns.toList.flatMap fun r =>
    r.spans.flatMap fun p => (List.range' p.1 (p.2 + 1 - p.1)).map fun n =>
      caseVariants (Char.ofNat n)

/-- The case variants of a character. -/
def variants (c : Char) : CharClass :=
  ofList (caseVariants c)

/-- A class with all case variants of its characters. -/
def foldCase (s : CharClass) : CharClass :=
  s.union (ofList (caseOrbits.filter (·.any s.has)).flatten)

/-- A class, with all case variants if case does not matter. -/
def foldIf (ignoreCase : Bool) (s : CharClass) : CharClass :=
  if ignoreCase then s.foldCase else s

/-! ## Ranges -/

/-- The ranges between changes, with their ends. -/
def rangesOf : List Nat → List (Nat × Nat)
  | x :: y :: rest => (x, y - 1) :: rangesOf rest
  | _ => []

/-- The ranges of code points that make up a class: the fewest there are, in ascending order. -/
def codeRanges (s : CharClass) : List (Nat × Nat) :=
  rangesOf s.changes

/-- The character of a class that has only one. -/
def onlyChar? (s : CharClass) : Option Char :=
  match s.changes with
  | [x, y] =>
    if h : x.isValidChar then if x + 1 = y then some (Char.ofNatAux x h) else .none
    else .none
  | _ => .none

/-- Whether a class has ASCII characters only. -/
def isAscii (s : CharClass) : Bool :=
  s.changes.all (· ≤ 0x80)

end CharClass

end EntityMarkup.Pattern
