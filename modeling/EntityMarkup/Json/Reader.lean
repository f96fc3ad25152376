import EntityMarkup.Json.Number
import EntityMarkup.Unicode.Runs

/-!
# Reading JSON

A `Reader` takes a value from the front of a text. It fails in one of two ways, and the first fault
on the way through the text decides: the text is not JSON (`malformed`), or it is, but the value is
not of the kind that is read (`mismatch`).

This module reads what values are made of: blanks, strings, numbers and words. `skipValue` passes
over a value of any kind. It checks its grammar alone, so that it accepts an escape of half a
character and a number beyond every range.
-/

namespace EntityMarkup.Json

/-- Why a value could not be read. -/
inductive Fault where
  | malformed
  | mismatch
  deriving DecidableEq, Repr

/-- Takes a value from the front of a text. -/
abbrev Reader (α : Type) := StateT (List Char) (Except Fault) α

namespace Reader

/-! ## Characters -/

/-- The text is not JSON. -/
def malformed {α : Type} : Reader α :=
  throw .malformed

/-- The value is not of the kind that is read. -/
def mismatch {α : Type} : Reader α :=
  throw .mismatch

/-- A character that may stand between values. -/
def isBlank (c : Char) : Bool :=
  c == ' ' || c == '\n' || c == '\t' || c == '\r'

/-- Passes over blanks. -/
def skipBlanks : Reader Unit :=
  modify (List.dropWhile isBlank)

/-- The next character, which stays where it is. -/
def peek : Reader (Option Char) := do
  return (← get).head?

/-- Takes a character. -/
def advance : Reader Unit :=
  modify (List.drop 1)

/-- Takes a word. -/
def expect (word : List Char) : Reader Unit := do
  if word.isPrefixOf (← get) then modify (List.drop word.length) else malformed

/-- Takes blanks and then a character. -/
def expectAfterBlanks (c : Char) : Reader Unit := do
  skipBlanks
  expect [c]

/-- Takes the longest run of characters of a class. -/
def takeWhile (p : Char → Bool) : Reader (List Char) := do
  let taken := (← get).takeWhile p
  modify (List.drop taken.length)
  return taken

/-! ## Strings -/

/-- Takes the four digits of an escape. -/
def readHex : Reader Nat := do
  let digits := (← get).take 4
  match digits.mapM Unicode.hexDigit? with
  | some values =>
    if values.length = 4 then
      modify (List.drop 4)
      return values.foldl (16 * · + ·) 0
    else malformed
  | none => malformed

/-- The character that a letter after a backslash stands for. -/
def escaped? : Char → Option Char
  | '"' => some '"'
  | '\\' => some '\\'
  | '/' => some '/'
  | 'b' => some '\x08'
  | 'f' => some '\x0c'
  | 'n' => some '\n'
  | 'r' => some '\r'
  | 't' => some '\t'
  | _ => none

/-- Takes what follows `\u`: a code unit, or two that make up a character. -/
def readCodeUnits : Reader Char := do
  let first ← readHex
  if first < 0xd800 || 0xe000 ≤ first then return Char.ofNat first
  if 0xdc00 ≤ first then malformed
  expect ['\\', 'u']
  let second ← readHex
  if second < 0xdc00 || 0xe000 ≤ second then malformed
  return Char.ofNat (0x10000 + 0x400 * (first - 0xd800) + (second - 0xdc00))

/-- Takes what follows a backslash. -/
def readEscape : Reader Char := do
  match ← peek with
  | none => malformed
  | some c =>
    advance
    if c = 'u' then readCodeUnits
    else
      match escaped? c with
      | some d => return d
      | none => malformed

/-- Takes what follows a backslash, whatever code unit it is. -/
def skipEscape : Reader Char := do
  match ← peek with
  | none => malformed
  | some c =>
    advance
    if c = 'u' then do
      let _ ← readHex
      return c
    else if (escaped? c).isSome then return c
    else malformed

/-- Takes characters up to the closing quotation mark, with a given reader of escapes. -/
def readCharsWith (escape : Reader Char) : Nat → Reader (List Char)
  | 0 => malformed
  | fuel + 1 => do
    match ← peek with
    | none => malformed
    | some c =>
      advance
      if c = '"' then return []
      else if c = '\\' then do
        let d ← escape
        return d :: (← readCharsWith escape fuel)
      else if c.toNat < 0x20 then malformed
      else return c :: (← readCharsWith escape fuel)

/-- Takes the rest of a string, from after its opening quotation mark. -/
def readChars : Reader (List Char) := do
  readCharsWith readEscape ((← get).length + 1)

/-- Passes over the rest of a string. -/
def skipChars : Reader Unit := do
  let _ ← readCharsWith skipEscape ((← get).length + 1)

/-! ## Numbers -/

/-- Takes one digit or more. -/
def readDigits : Reader (List Char) := do
  let digits ← takeWhile Char.isDigit
  if digits.isEmpty then malformed
  return digits

/-- Takes a fraction if there is one. -/
def readFraction : Reader (Option (List Char)) := do
  match ← peek with
  | some '.' => do
    advance
    return some (← readDigits)
  | _ => return none

/-- Takes an exponent if there is one. -/
def readExponent : Reader (Option Int) := do
  let mark ← peek
  if mark = some 'e' || mark = some 'E' then
    advance
    let sign ← peek
    if sign = some '+' || sign = some '-' then advance
    let value : Int := digitsValue (← readDigits)
    return some (if sign = some '-' then -value else value)
  else return none

/-- Takes a number; a zero at its beginning must be its only digit before the point. -/
def readNumber : Reader Number := do
  let negative := (← peek) = some '-'
  if negative then advance
  let whole ← readDigits
  if whole.head? = some '0' && 1 < whole.length then malformed
  let fraction ← readFraction
  let exponent ← readExponent
  return { negative, whole, fraction, exponent }

/-- Takes a number that a double can approximate. -/
def readDouble : Reader Number := do
  let n ← readNumber
  if n.isOutOfRange then malformed
  return n

/-! ## Values that are passed over -/

/-- The words that are values. -/
def word? : Char → Option (List Char)
  | 'n' => some "null".toList
  | 't' => some "true".toList
  | 'f' => some "false".toList
  | _ => none

/-- Whether a number begins with a character. -/
def beginsNumber (c : Char) : Bool :=
  c == '-' || c.isDigit

/-- A container that is open. -/
inductive Container where
  | array
  | object
  deriving DecidableEq, Repr

/-- The bracket that closes a container. -/
def Container.closing : Container → Char
  | .array => ']'
  | .object => '\x7d'

/-- Passes over a member's name, and over the colon after it. -/
def skipName : Reader Unit := do
  expectAfterBlanks '"'
  skipChars
  expectAfterBlanks ':'

/-- What is passed over next. -/
inductive Expected where
  /-- A value. -/
  | value
  /-- The end of a value has been reached: a comma or a closing bracket follows. -/
  | afterValue
  /-- A container has been opened: an element or a closing bracket follows. -/
  | afterOpening
  deriving DecidableEq, Repr

/-- Passes over a value, within containers of which the innermost comes first. A step takes a
character or is followed by one that does, so twice the length of the text bounds their number. -/
def skipWithin : Nat → List Container → Expected → Reader Unit
  | 0, _, _ => malformed
  | fuel + 1, open', .value => do
    skipBlanks
    match ← peek with
    | none => malformed
    | some c =>
      match word? c with
      | some word => do
        expect word
        skipWithin fuel open' .afterValue
      | none =>
        if beginsNumber c then do
          let _ ← readNumber
          skipWithin fuel open' .afterValue
        else if c = '"' then do
          advance
          skipChars
          skipWithin fuel open' .afterValue
        else if c = '[' then do
          advance
          skipWithin fuel (.array :: open') .afterOpening
        else if c = '\x7b' then do
          advance
          skipWithin fuel (.object :: open') .afterOpening
        else malformed
  | _ + 1, [], _ => return ()
  | fuel + 1, container :: outer, expected => do
    skipBlanks
    let c ← peek
    if c = some container.closing then do
      advance
      skipWithin fuel outer .afterValue
    else
      if expected = .afterValue then expect [',']
      if container = .object then skipName
      skipWithin fuel (container :: outer) .value

/-- Passes over a value of any kind. -/
def skipValue : Reader Unit := do
  skipWithin (2 * (← get).length + 2) [] .value

/-- Refuses the value that comes next, which is not of the kind that is read: as malformed where
its beginning is. Only containers are not looked into. -/
def refuse {α : Type} : Reader α := do
  match ← peek with
  | none => malformed
  | some c =>
    match word? c with
    | some word => do
      expect word
      mismatch
    | none =>
      if beginsNumber c then do
        let _ ← readDouble
        mismatch
      else if c = '"' then do
        advance
        let _ ← readChars
        mismatch
      else if c = '[' || c = '\x7b' then mismatch
      else malformed

end Reader

end EntityMarkup.Json
