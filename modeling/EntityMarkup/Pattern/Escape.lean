import EntityMarkup.Pattern
import EntityMarkup.Pattern.Fault
import EntityMarkup.Unicode.Blank

/-!
# Escapes in patterns

After a backslash stands a punctuation mark that is meant literally, a control character by its
letter, a character by its code point in hexadecimal, a category of characters, or a condition on
the place. Digits would refer back to a group, which patterns cannot do; every other letter is a
fault.

Of the properties that characters have, a category can name upper-case letters, lower-case letters,
decimal digits and white space. The others are refused, as `Pattern.Language` says.
-/

namespace EntityMarkup.Pattern

/-- What an escape stands for. -/
inductive Primitive where
  | literal (c : Char)
  | set (set : CharClass)
  | place (place : Place)
  deriving Repr

namespace Escape

/-! ## Code points -/

/-- The character that has a code point. -/
def charOfCode? (n : Nat) : Option Char :=
  if n.isValidChar then some (Char.ofNat n) else none

/-- The value of hexadecimal digits. -/
def hexValue? (digits : List Char) : Option Nat :=
  digits.foldlM (fun n c => (Unicode.hexDigit? c).map (16 * n + ·)) 0

/-- The character with these hexadecimal digits as its code point. -/
def charOfHex (digits : List Char) : Except Fault Char :=
  match (hexValue? digits).bind charOfCode? with
  | some c => if digits.isEmpty then .error .invalidEscape else .ok c
  | none => .error .invalidEscape

/-- A code point in braces, or in as many digits as its letter asks for. -/
def readCode (width : Nat) : List Char → Except Fault (Primitive × List Char)
  | '\x7b' :: rest => do
    let digits := rest.takeWhile (· != '\x7d')
    if digits.length = rest.length then .error .invalidEscape
    let c ← charOfHex digits
    return (.literal c, rest.drop (digits.length + 1))
  | rest => do
    if rest.length < width then .error .invalidEscape
    let c ← charOfHex (rest.take width)
    return (.literal c, rest.drop width)

/-! ## Properties -/

/-- A property's name without what is free in writing it. -/
def looseName (name : List Char) : String :=
  let plain := (name.filter fun c => !(c == ' ' || c == '-' || c == '_')).map Char.toLower
  String.ofList (if ['i', 's'].isPrefixOf plain then plain.drop 2 else plain)

/-- The characters that a property's name stands for. No other property is known. -/
def property? (name : List Char) : Option CharClass :=
  match looseName name with
  | "lu" => some .upper
  | "uppercaseletter" => some .upper
  | "ll" => some .lower
  | "lowercaseletter" => some .lower
  | "nd" => some .digits
  | "decimalnumber" => some .digits
  | "whitespace" => some .blanks
  | _ => none

/-- A property in braces. One that is named by a letter without braces is refused. -/
def readProperty (flags : Flags) (negated : Bool) :
    List Char → Except Fault (Primitive × List Char)
  | '\x7b' :: rest => do
    let name := rest.takeWhile (· != '\x7d')
    if name.length = rest.length then .error .invalidEscape
    match property? name with
    | some set =>
      let set := (set.foldIf flags.ignoreCase).negateIf negated
      return (.set set, rest.drop (name.length + 1))
    | none => .error .unknownProperty
  | _ => .error .unknownProperty

/-! ## Places -/

/-- The places that are named in braces. -/
def namedPlace? : String → Option Place
  | "start" => some .wordStart
  | "end" => some .wordEnd
  | "start-half" => some .wordStartHalf
  | "end-half" => some .wordEndHalf
  | _ => none

/-- A word boundary, and of which kind if braces with a name follow; braces with a number in them
are a count of repetitions. -/
def readBoundary : List Char → Except Fault (Primitive × List Char)
  | '\x7b' :: rest => do
    let isNameChar := fun (c : Char) => c.isAlpha || c == '-'
    match rest with
    | [] => .error .invalidEscape
    | c :: _ =>
      if !isNameChar c then return (.place .wordBoundary, '\x7b' :: rest)
      let name := rest.takeWhile isNameChar
      match rest.drop name.length, namedPlace? (String.ofList name) with
      | '\x7d' :: rest', some p => return (.place p, rest')
      | _, _ => .error .invalidEscape
  | rest => .ok (.place .wordBoundary, rest)

/-! ## All escapes -/

/-- An ASCII character that may be escaped although it is not special. -/
def isEscapable (c : Char) : Bool :=
  c.toNat < 0x80 && !c.isAlphanum && c != '<' && c != '>'

/-- What follows a backslash. -/
def read (flags : Flags) : List Char → Except Fault (Primitive × List Char)
  | [] => .error .invalidEscape
  | c :: rest =>
    let set (s : CharClass) : Except Fault (Primitive × List Char) := .ok (.set s, rest)
    let literal (d : Char) : Except Fault (Primitive × List Char) := .ok (.literal d, rest)
    let place (p : Place) : Except Fault (Primitive × List Char) := .ok (.place p, rest)
    if c.isDigit then .error .backReference
    else if isEscapable c then literal c
    else
      match c with
      | 'x' => readCode 2 rest
      | 'u' => readCode 4 rest
      | 'U' => readCode 8 rest
      | 'p' => readProperty flags false rest
      | 'P' => readProperty flags true rest
      | 'd' => set CharClass.digits
      | 'D' => set CharClass.digits.complement
      | 'w' => set CharClass.wordChars
      | 'W' => set CharClass.wordChars.complement
      | 's' => set CharClass.blanks
      | 'S' => set CharClass.blanks.complement
      | 'a' => literal '\x07'
      | 'f' => literal '\x0c'
      | 'n' => literal '\n'
      | 'r' => literal '\r'
      | 't' => literal '\t'
      | 'v' => literal '\x0b'
      | 'A' => place .textStart
      | 'z' => place .textEnd
      | 'b' => readBoundary rest
      | 'B' => place .noWordBoundary
      | '<' => place .wordStart
      | '>' => place .wordEnd
      | _ => .error .invalidEscape

end Escape

end EntityMarkup.Pattern
