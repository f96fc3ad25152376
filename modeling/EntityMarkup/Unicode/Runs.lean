/-!
# Character tables

A property of characters that only a table can give is written as *runs*: `E0-F6` for a range of
code points, `100-136/2` for every second one, and `E0-F6>C0` for a run that is mapped, in step,
to the run that begins at `C0`. All numbers are hexadecimal, the runs are ascending and disjoint,
and blanks or line ends separate them. `Runs.ofString` reads this form and `find?` looks a code
point up by bisection.
-/

namespace EntityMarkup.Unicode

/-- The code points `first`, `first + step`, … up to `last`, and where the first is mapped to. -/
structure Run where
  first : Nat := 0
  last : Nat := 0
  step : Nat := 1
  target : Nat := 0

/-- A table: runs in ascending order. -/
abbrev Runs := Array Run

/-! ## Reading a table -/

/-- The value of a hexadecimal digit. -/
def hexDigit? (c : Char) : Option Nat :=
  if '0' ≤ c ∧ c ≤ '9' then some (c.toNat - '0'.toNat)
  else if 'A' ≤ c ∧ c ≤ 'F' then some (c.toNat - 'A'.toNat + 10)
  else if 'a' ≤ c ∧ c ≤ 'f' then some (c.toNat - 'a'.toNat + 10)
  else none

/-- Which number of a run is being read. -/
inductive Part where
  | first
  | last
  | step
  | target

namespace Run

/-- Appends a hexadecimal digit to the number that is being read; a range that has no end yet
ends where it begins. -/
def push (r : Run) (digit : Nat) : Part → Run
  | .first => { r with first := 16 * r.first + digit, last := 16 * r.first + digit }
  | .last => { r with last := 16 * r.last + digit }
  | .step => { r with step := 16 * r.step + digit }
  | .target => { r with target := 16 * r.target + digit }

/-- Reads the runs of a table, the first of them in part. -/
def readAll : Run → Part → Bool → List Char → List Run
  | r, _, started, [] => if started then [r] else []
  | r, part, started, c :: rest =>
    match hexDigit? c with
    | some d => readAll (r.push d part) part true rest
    | none =>
      if c = '-' then readAll { r with last := 0 } .last started rest
      else if c = '/' then readAll { r with step := 0 } .step started rest
      else if c = '>' then readAll { r with target := 0 } .target started rest
      else if started then r :: readAll {} .first false rest
      else readAll {} .first false rest

/-- The ranges of code points of which the run consists: a single one where it skips some. -/
def spans (r : Run) : List (Nat × Nat) :=
  if r.step ≤ 1 then [(r.first, r.last)]
  else (List.range ((r.last - r.first) / r.step + 1)).map fun i =>
    (r.first + i * r.step, r.first + i * r.step)

/-- Whether the run has this code point. -/
def has (r : Run) (n : Nat) : Bool :=
  r.first ≤ n && n ≤ r.last && (n - r.first) % r.step == 0

end Run

namespace Runs

/-- Reads a table. -/
def ofString (s : String) : Runs :=
  (Run.readAll {} .first false s.toList).toArray

/-! ## Looking a character up -/

/-- The last run of positions `low` up to `high` that begins at or before a code point. -/
def search (runs : Runs) (n low high : Nat) : Option Run :=
  if low + 1 < high then
    match runs[(low + high) / 2]? with
    | none => none
    | some r =>
      if r.first ≤ n then search runs n ((low + high) / 2) high
      else search runs n low ((low + high) / 2)
  else runs[low]?
termination_by high - low

/-- The run that has a code point. -/
def find? (runs : Runs) (n : Nat) : Option Run :=
  (runs.search n 0 runs.size).filter (·.has n)

/-- Whether a table has a character. -/
def contains (runs : Runs) (c : Char) : Bool :=
  (runs.find? c.toNat).isSome

/-- Where a table maps a character; characters it does not have stay as they are. -/
def map (runs : Runs) (c : Char) : Char :=
  match runs.find? c.toNat with
  | some r => Char.ofNat (r.target + (c.toNat - r.first))
  | none => c

/-- The characters that a table maps to a given one. -/
def preimages (runs : Runs) (c : Char) : List Char :=
  runs.toList.filterMap fun r =>
    let n := r.first + (c.toNat - r.target)
    if r.target ≤ c.toNat && r.has n then some (Char.ofNat n) else none

end Runs

end EntityMarkup.Unicode
