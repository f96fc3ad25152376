import EntityMarkup.Json.Record
import EntityMarkup.Pipeline

/-!
# Requests and answers of the service

A request has a method, a target, headers and a body. The body of a request to mark
up text is a record with the text and, if the client wants others than the service's own, the
formats of input and output.

An answer has a status, a body and headers. Where the service refuses a request before it looks at
what is asked, the body is a remark without a fixed wording (`Body.remark`).

A body is text: bytes that are not are left out, and so is the form in which an answer is sent.
-/

namespace EntityMarkup.Service

/-! ## Requests -/

/-- A request. -/
structure Request where
  method : String
  /-- What is asked for: a path, which may follow a scheme and a host and end in a query. -/
  target : String
  /-- Names, in any case, with values. -/
  headers : List (String × String) := []
  body : String := ""
  deriving DecidableEq, Repr

/-- A character that may stand in a scheme. -/
def isSchemeChar (c : Char) : Bool :=
  c.isAlphanum || c == '+' || c == '-' || c == '.'

/-- A character at which a path ends. -/
def endsPath (c : Char) : Bool :=
  c == '?' || c == '#'

/-- What follows a scheme and a host, if a target begins with them. -/
def afterHost? (target : List Char) : Option (List Char) :=
  match target.dropWhile isSchemeChar with
  | ':' :: '/' :: '/' :: rest => some (rest.dropWhile fun c => c != '/' && !endsPath c)
  | _ => none

/-- The path of a target without its query. A host by itself is asked for its root; what is neither
a path nor begins with a scheme and a host has no path. -/
def pathOf (target : List Char) : List Char :=
  match target with
  | '/' :: _ => target.takeWhile (!endsPath ·)
  | _ =>
    match afterHost? target with
    | some ('/' :: rest) => '/' :: rest.takeWhile (!endsPath ·)
    | some _ => ['/']
    | none => []

/-- The path that is asked for. -/
def Request.path (r : Request) : String :=
  String.ofList (pathOf r.target.toList)

/-- The value of the first header of a name, which is given in lower case. -/
def Request.header? (r : Request) (name : String) : Option String :=
  (r.headers.find? fun h => h.1.toList.map Char.toLower = name.toList).map Prod.snd

/-- The content type of the body, if the request names one. -/
def Request.contentType (r : Request) : Option String :=
  r.header? "content-type"

/-- A request to mark up a text. -/
structure Order where
  data : String
  input : Option InputFormat := none
  output : Option OutputFormat := none
  deriving DecidableEq, Repr

namespace Order

/-- The members that were given. -/
structure Given where
  data : Option String := none
  input : Option (Option InputFormat) := none
  output : Option (Option OutputFormat) := none

open Json.Reader in
/-- Reads an order. -/
def reader : Json.Reader Order := do
  let given ← record
    [.of "data" Given.data (fun g x => { g with data := some x }) text,
      .of "input" Given.input (fun g x => { g with input := some x }) (optional choice),
      .of "output" Given.output (fun g x => { g with output := some x }) (optional choice)] {}
  return ⟨← require given.data, given.input.join, given.output.join⟩

/-- The order in a body; what follows it there does not matter. -/
def ofBody (body : String) : Except Json.Fault Order :=
  reader.readFront body

end Order

/-! ## Answers -/

/-- The body of an answer. -/
inductive Body where
  /-- A remark without a fixed wording. -/
  | remark
  | text (content : String)
  /-- Why the request could not be met. -/
  | error (message : String)
  /-- Marked-up text. -/
  | markup (model : String) (result : Text) (stats : Stats)
  /-- The labels that entities can have. -/
  | labels (model : String) (labels : List String)
  deriving DecidableEq, Repr

/-- An answer. -/
structure Response where
  status : Nat
  body : Body
  /-- The headers that tell a browser who may read the answer. -/
  headers : List (String × String) := []
  deriving DecidableEq, Repr

end EntityMarkup.Service
