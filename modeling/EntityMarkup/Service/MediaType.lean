/-!
# Media types

Whether the value of a content-type header says that the body is JSON: `application/json`, or a
subtype of `application` with the suffix `json`, with or without parameters and in any case.

A value is read as a type, a slash, a subtype and parameters, each after a semicolon. The suffix of
a subtype begins after its last plus sign. A value may be quoted; the first character after its
quotation mark belongs to it whatever it is. One that is not formed in this way says nothing.
-/

namespace EntityMarkup.MediaType

/-- A character of which types, names and unquoted values consist. -/
def isTokenChar (c : Char) : Bool :=
  c.isAlphanum || "!#$%&'*+-.^_`|~".toList.contains c

/-- A character that may stand between quotation marks. -/
def isQuotable (c : Char) : Bool :=
  0x20 ≤ c.toNat && c.toNat != 0x7f

/-- Which part of the parameters is being read. -/
inductive Part where
  | nameStart
  | name
  | valueStart
  | value
  | quotedStart
  | quoted
  | afterQuoted

/-- Whether a text is a list of parameters, from a part of one on. -/
def areParameters : Part → List Char → Bool
  | .nameStart, [] => true
  | .nameStart, c :: rest =>
    if c == ' ' then areParameters .nameStart rest
    else isTokenChar c && areParameters .name rest
  | .name, [] => false
  | .name, c :: rest =>
    if c == '=' then areParameters .valueStart rest
    else isTokenChar c && areParameters .name rest
  | .valueStart, [] => true
  | .valueStart, c :: rest =>
    if c == '"' then areParameters .quotedStart rest
    else isTokenChar c && areParameters .value rest
  | .value, [] => true
  | .value, c :: rest =>
    if c == ';' then areParameters .nameStart rest
    else isTokenChar c && areParameters .value rest
  | .quotedStart, [] => false
  | .quotedStart, c :: rest => isQuotable c && areParameters .quoted rest
  | .quoted, [] => false
  | .quoted, c :: rest =>
    if c == '"' then areParameters .afterQuoted rest
    else isQuotable c && areParameters .quoted rest
  | .afterQuoted, [] => true
  | .afterQuoted, c :: rest =>
    if c == ';' then areParameters .nameStart rest
    else c == ' ' && areParameters .afterQuoted rest

/-- A type and a subtype in lower case, the latter with its suffix. -/
structure Essence where
  type : List Char
  subtype : List Char
  deriving DecidableEq, Repr

/-- The type and subtype of a media type, if it is formed as one. -/
def essence? (s : List Char) : Option Essence :=
  let type := s.takeWhile isTokenChar
  match type, s.drop type.length with
  | _ :: _, '/' :: rest =>
    let subtype := rest.takeWhile isTokenChar
    let essence : Essence := ⟨type.map Char.toLower, subtype.map Char.toLower⟩
    match subtype, rest.drop subtype.length with
    | _, [] => some essence
    | _ :: _, ';' :: parameters =>
      if areParameters .nameStart parameters then some essence else none
    | _, _ => none
  | _, _ => none

/-- Whether a header's value can be read as text. -/
def isReadable (s : List Char) : Bool :=
  s.all fun c => c == '\t' || (0x20 ≤ c.toNat && c.toNat < 0x7f)

/-- A subtype without its suffix, and the suffix. A plus sign that comes first begins none. -/
def splitSuffix (subtype : List Char) : List Char × Option (List Char) :=
  let suffix := (subtype.reverse.takeWhile (· != '+')).reverse
  if suffix.length + 1 < subtype.length then
    (subtype.take (subtype.length - suffix.length - 1), some suffix)
  else (subtype, none)

/-- Whether a content type says that the body is JSON. -/
def isJson (value : String) : Bool :=
  match isReadable value.toList, essence? value.toList with
  | true, some essence =>
    let (base, suffix) := splitSuffix essence.subtype
    essence.type == "application".toList && (base == "json".toList || suffix == some "json".toList)
  | _, _ => false

end EntityMarkup.MediaType
