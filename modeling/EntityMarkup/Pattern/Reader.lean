import EntityMarkup.Pattern.Automaton
import EntityMarkup.Pattern.Bracket
import EntityMarkup.Unicode.Alphabetic

/-!
# Reading a pattern

`Pattern.ofString` reads a regular expression. The text is read from left to right; a stack holds
the groups that are open (`Group`), each with the alternatives read so far. A repetition applies to
the item before it. Options that are set in a group hold to its end, through its alternatives.

Groups are numbered from one in the order in which they open. Their names are read, checked, and
forgotten. An expression is refused if its parts are nested too deeply, or if it is too large to be
searched for.

Options for case, lines, the full stop and greed are read. The others are refused, as
`Pattern.Language` says.
-/

namespace EntityMarkup.Pattern

/-! ## Items and groups -/

/-- A part of an expression: what it matches, how deeply it is nested, and whether it only sets
options, so that nothing is there to repeat. -/
structure Item where
  pattern : Pattern
  depth : Nat := 0
  isOption : Bool := false

/-- Items as one, which they are nested in if there are more than one. -/
def Item.combine (op : List Pattern → Pattern) (items : List Item) : Item :=
  let depth := (items.map Item.depth).foldl max 0
  { pattern := op (items.map Item.pattern)
    depth := if 1 < items.length then depth + 1 else depth }

/-- A group that is open. -/
structure Group where
  /-- The options around it. -/
  outerFlags : Flags
  /-- Its number, if it is counted. -/
  number : Option Nat := none
  /-- Its alternatives but the one under way, the latest first. -/
  alternatives : List Item := []
  /-- The items of the one under way, the latest first. -/
  items : List Item := []

namespace Group

/-- Adds an item. -/
def add (g : Group) (item : Item) : Group :=
  { g with items := item :: g.items }

/-- Begins the next alternative. -/
def branch (g : Group) : Group :=
  { g with alternatives := Item.combine sequence g.items.reverse :: g.alternatives, items := [] }

/-- The expression in the group. -/
def body (g : Group) : Item :=
  Item.combine choice g.branch.alternatives.reverse

/-- Repeats the last item. -/
def repeatLast (g : Group) (least : Nat) (most : Option Nat) (isLazy : Bool) :
    Except Fault Group :=
  match g.items with
  | [] => .error .nothingToRepeat
  | item :: before =>
    if item.isOption then .error .nothingToRepeat
    else
      let pattern := repeated item.pattern least most isLazy
      .ok { g with items := { pattern, depth := item.depth + 1 } :: before }

end Group

/-! ## Counts -/

/-- A number in a count, with blanks around it, below 2^32. -/
def readNumber (cs : List Char) : Except Fault Nat × List Char :=
  let cs := cs.dropWhile Unicode.isBlank
  let digits := cs.takeWhile Char.isDigit
  let n := digits.foldl (fun n c => 10 * n + (c.toNat - '0'.toNat)) 0
  (if digits.isEmpty || UInt32.size ≤ n then .error .invalidCount else .ok n,
    (cs.drop digits.length).dropWhile Unicode.isBlank)

/-- A count of repetitions, from after its opening brace. -/
def readCount (cs : List Char) : Except Fault ((Nat × Option Nat) × List Char) :=
  match readNumber cs with
  | (.error e, _) => .error e
  | (.ok least, '\x7d' :: rest) => .ok ((least, some least), rest)
  | (.ok least, ',' :: '\x7d' :: rest) => .ok ((least, none), rest)
  | (.ok least, ',' :: rest) =>
    match readNumber rest with
    | (.ok most, '\x7d' :: rest') =>
      if least ≤ most then .ok ((least, some most), rest') else .error .invalidCount
    | _ => .error .invalidCount
  | _ => .error .invalidCount

/-- The mark that makes a repetition prefer few rounds instead of many, or many instead of few. -/
def readLazy (flags : Flags) : List Char → Bool × List Char
  | '?' :: rest => (!flags.swapLazy, rest)
  | cs => (flags.swapLazy, cs)

/-! ## Openings of groups -/

/-- The options between `(?` and the colon or parenthesis that ends them: `on` tells whether they
are being set, `seen` are those that were named. The options for comments and for line ends are
refused, and so is turning Unicode off. -/
def readFlags (flags : Flags) (on : Bool) (seen : List Char) :
    List Char → Except Fault ((Flags × List Char) × List Char)
  | [] => .error .invalidFlag
  | ':' :: rest =>
    if seen.head? == some '-' then .error .invalidFlag else .ok ((flags, seen), ':' :: rest)
  | ')' :: rest =>
    if seen.head? == some '-' then .error .invalidFlag else .ok ((flags, seen), ')' :: rest)
  | c :: rest =>
    if seen.contains c then .error .invalidFlag
    else
      match c with
      | '-' => readFlags flags false (c :: seen) rest
      | 'i' => readFlags { flags with ignoreCase := on } on (c :: seen) rest
      | 'm' => readFlags { flags with multiLine := on } on (c :: seen) rest
      | 's' => readFlags { flags with dotAll := on } on (c :: seen) rest
      | 'U' => readFlags { flags with swapLazy := on } on (c :: seen) rest
      | 'u' => if on then readFlags flags on (c :: seen) rest else .error .invalidFlag
      | _ => .error .invalidFlag

/-- Whether a group's name may begin with a character. -/
def isNameStart (c : Char) : Bool :=
  c == '_' || Unicode.isAlphabetic c

/-- Whether a character may stand in a group's name after the first. -/
def isNamePart (c : Char) : Bool :=
  isNameStart c || Unicode.isNumber c || c == '.' || c == '[' || c == ']'

/-- A group's name, up to the bracket that ends it. -/
def readGroupName (cs : List Char) : Except Fault (List Char × List Char) :=
  let name := cs.takeWhile (· != '>')
  match name, cs.drop name.length with
  | c :: more, '>' :: rest =>
    if isNameStart c && more.all isNamePart then .ok (name, rest)
    else .error .invalidGroupName
  | _, _ => .error .invalidGroupName

/-- How a parenthesis opens. -/
inductive Opening where
  /-- A group that is not counted, within which these options hold. -/
  | plain (flags : Flags)
  /-- A group that is counted, and its name if it has one. -/
  | counted (name : Option (List Char))
  /-- Options for the rest of the group around it. -/
  | options (flags : Flags)

/-- What follows an opening parenthesis. -/
def readOpening (flags : Flags) : List Char → Except Fault (Opening × List Char)
  | '?' :: '=' :: _ => .error .lookAround
  | '?' :: '!' :: _ => .error .lookAround
  | '?' :: '<' :: '=' :: _ => .error .lookAround
  | '?' :: '<' :: '!' :: _ => .error .lookAround
  | '?' :: 'P' :: '<' :: rest => do
    let (name, rest') ← readGroupName rest
    return (.counted (some name), rest')
  | '?' :: '<' :: rest => do
    let (name, rest') ← readGroupName rest
    return (.counted (some name), rest')
  | '?' :: rest => do
    let ((flags', seen), rest') ← readFlags flags true [] rest
    match rest' with
    | ':' :: rest'' => return (.plain flags', rest'')
    | _ => if seen.isEmpty then .error .nothingToRepeat else return (.options flags', rest'.drop 1)
  | rest => .ok (.counted none, rest)

/-! ## Expressions -/

/-- What a character that is meant literally matches. -/
def ofLiteral (flags : Flags) (c : Char) : Pattern :=
  ofClass (if flags.ignoreCase then .variants c else .single c)

/-- What an escape matches. -/
def ofPrimitive (flags : Flags) : Primitive → Pattern
  | .literal c => ofLiteral flags c
  | .set s => ofClass s
  | .place p => .place p

/-- What a character matches that begins no construct. -/
def ofChar (flags : Flags) : Char → Pattern
  | '.' => ofClass (if flags.dotAll then .all else .complement (.single '\n'))
  | '^' => .place (if flags.multiLine then .lineStart else .textStart)
  | '$' => .place (if flags.multiLine then .lineEnd else .textEnd)
  | c => ofLiteral flags c

/-- Where reading has come to. -/
structure State where
  flags : Flags := {}
  /-- The group under way. -/
  group : Group := { outerFlags := {} }
  /-- The groups around it, the innermost first. -/
  outer : List Group := []
  /-- How many groups have been counted. -/
  counted : Nat := 0
  /-- Their names. -/
  names : List (List Char) := []

namespace State

/-- Adds an item that is not nested. -/
def add (s : State) (p : Pattern) : State :=
  { s with group := s.group.add { pattern := p } }

/-- Opens a group. -/
def enter (s : State) (flags : Flags) (number : Option Nat) : State :=
  { s with flags, group := { outerFlags := s.flags, number }, outer := s.group :: s.outer }

/-- Opens a group, or sets options. -/
def opened (s : State) : Opening → Except Fault State
  | .options flags =>
    .ok { s with flags, group := s.group.add { pattern := .empty, isOption := true } }
  | .plain flags => .ok (s.enter flags none)
  | .counted name =>
    if (name.map s.names.contains).getD false then .error .invalidGroupName
    else
      .ok { s.enter s.flags (some (s.counted + 1)) with
        counted := s.counted + 1
        names := name.toList ++ s.names }

/-- Closes the group under way. -/
def closed (s : State) : Except Fault State :=
  match s.outer with
  | [] => .error .unopenedGroup
  | g :: outer =>
    let body := s.group.body
    let pattern := s.group.number.elim body.pattern (.group · body.pattern)
    .ok { s with
      flags := s.group.outerFlags
      group := g.add { pattern, depth := body.depth + 1 }
      outer }

/-- Repeats the last item; the text goes on after the operator. -/
def repeatLast (s : State) (least : Nat) (most : Option Nat) (cs : List Char) :
    Except Fault (State × List Char) := do
  let (isLazy, rest) := readLazy s.flags cs
  let group ← s.group.repeatLast least most isLazy
  return ({ s with group }, rest)

/-- Reads the construct that begins with a character. -/
def step (s : State) (c : Char) (rest : List Char) : Except Fault (State × List Char) :=
  match c with
  | '(' => do
    let (opening, rest') ← readOpening s.flags rest
    return (← s.opened opening, rest')
  | ')' => do return (← s.closed, rest)
  | '|' => .ok ({ s with group := s.group.branch }, rest)
  | '[' => do
    let (part, rest') ← Bracket.read s.flags rest
    let item : Item := { pattern := ofClass part.set, depth := part.depth }
    return ({ s with group := s.group.add item }, rest')
  | '?' => s.repeatLast 0 (some 1) rest
  | '*' => s.repeatLast 0 none rest
  | '+' => s.repeatLast 1 none rest
  | '\x7b' => do
    let ((least, most), rest') ← readCount rest
    s.repeatLast least most rest'
  | '\\' => do
    let (p, rest') ← Escape.read s.flags rest
    return (s.add (ofPrimitive s.flags p), rest')
  | _ => .ok (s.add (ofChar s.flags c), rest)

/-- Reads to the end of the text. Every step takes a character, so the length of the text bounds
their number. -/
def readAll : Nat → State → List Char → Except Fault State
  | _, s, [] => .ok s
  | 0, _, _ => .error .tooDeep
  | fuel + 1, s, c :: rest => do
    let (s', rest') ← s.step c rest
    readAll fuel s' rest'

end State

/-- How deeply the parts of an expression may be nested. -/
def maxDepth : Nat := 250

/-- Reads a regular expression. -/
def ofString (text : String) : Except Fault Pattern := do
  let s ← State.readAll text.toList.length {} text.toList
  if !s.outer.isEmpty then .error .unclosedGroup
  let body := s.group.body
  if maxDepth < body.depth then .error .tooDeep
  if !body.pattern.fits then .error .tooLarge
  return body.pattern

end EntityMarkup.Pattern
