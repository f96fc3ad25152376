import EntityMarkup.Config
import EntityMarkup.Json.Reader

/-!
# Reading values of known kinds

Texts, natural numbers, named values, optional values and records. A named value is its name, or an
object whose only member is that name with `null`. A record is an object, whose members may come in
any order, each at most once, and among others that are passed over; or it is an array of its
fields in their order, of which the last may be missing. Which fields may be missing is decided by
whoever reads the record, from what was read.
-/

namespace EntityMarkup.Json.Reader

/-! ## Simple values -/

/-- A text. -/
def text : Reader String := do
  skipBlanks
  if (← peek) = some '"' then
    advance
    return String.ofList (← readChars)
  else refuse

/-- A natural number below 2^64. -/
def nat : Reader Nat := do
  skipBlanks
  if ((← peek).map beginsNumber).getD false then
    match (← readDouble).toNat? with
    | some n => return n
    | none => mismatch
  else refuse

/-- `null`. -/
def null : Reader Unit := do
  skipBlanks
  if (← peek) = some 'n' then expect "null".toList else refuse

/-- The value whose name begins here. -/
def named {α : Type} [Named α] : Reader α := do
  expect ['"']
  match Named.ofName? (String.ofList (← readChars)) with
  | some a => return a
  | none => mismatch

/-- A value that has a name, written as the name or as an object. -/
def choice {α : Type} [Named α] : Reader α := do
  skipBlanks
  match ← peek with
  | some '"' => named
  | some '\x7b' => do
    advance
    skipBlanks
    let a ← named
    expectAfterBlanks ':'
    null
    expectAfterBlanks '\x7d'
    return a
  | _ => malformed

/-- A value, or `null` for none. -/
def optional {α : Type} (value : Reader α) : Reader (Option α) := do
  skipBlanks
  if (← peek) = some 'n' then
    expect "null".toList
    return none
  else return some (← value)

/-! ## Records -/

/-- A field of a record that is gathered in values of type `σ`. -/
structure Field (σ : Type) where
  name : String
  /-- Whether the field has been read. -/
  isSet : σ → Bool
  /-- Reads the field. -/
  read : σ → Reader σ

/-- The field that is kept as an optional component. -/
def Field.of {σ α : Type} (name : String) (get : σ → Option α) (set : σ → α → σ)
    (value : Reader α) : Field σ where
  name
  isSet s := (get s).isSome
  read s := return set s (← value)

variable {σ : Type}

/-- Takes what stands between two elements of a container, and tells whether another follows. -/
def nextElement (closing : Char) (first : Bool) : Reader Bool := do
  skipBlanks
  if (← peek) = some closing then return false
  if !first then
    expect [',']
    skipBlanks
  return true

/-- The fields as elements of an array, from after its opening bracket. -/
def elements (first : Bool) : List (Field σ) → σ → Reader σ
  | [], s => do
    expectAfterBlanks ']'
    return s
  | field :: rest, s => do
    if ← nextElement ']' first then
      let s ← field.read s
      elements false rest s
    else
      expect [']']
      return s

/-- The fields as members of an object, from after its opening bracket. Every member takes
characters, so the length of the text bounds their number. -/
def members (fields : List (Field σ)) : Nat → Bool → σ → Reader σ
  | 0, _, _ => malformed
  | fuel + 1, first, s => do
    if ← nextElement '\x7d' first then
      expect ['"']
      let name := String.ofList (← readChars)
      match fields.find? fun field => field.name = name with
      | some field => do
        if field.isSet s then mismatch
        expectAfterBlanks ':'
        let s ← field.read s
        members fields fuel false s
      | none => do
        expectAfterBlanks ':'
        skipValue
        members fields fuel false s
    else
      expect ['\x7d']
      return s

/-- What has been read of a record. -/
def record (fields : List (Field σ)) (start : σ) : Reader σ := do
  skipBlanks
  match ← peek with
  | some '[' => do
    advance
    elements true fields start
  | some '\x7b' => do
    advance
    members fields ((← get).length + 1) true start
  | _ => refuse

/-- A component that must have been read. -/
def require {α : Type} : Option α → Reader α
  | some a => return a
  | none => mismatch

/-! ## Whole texts -/

/-- Reads a value from the front of a text. -/
def readFront {α : Type} (value : Reader α) (s : String) : Except Fault α :=
  (value.run s.toList).map Prod.fst

/-- Reads a text that is a value with nothing but blanks around it. -/
def readAll {α : Type} (value : Reader α) (s : String) : Except Fault α :=
  readFront
    (do
      let a ← value
      skipBlanks
      if (← peek).isSome then malformed
      return a)
    s

end EntityMarkup.Json.Reader
