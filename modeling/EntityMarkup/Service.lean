import EntityMarkup.Recognizer.Rules
import EntityMarkup.Service.MediaType
import EntityMarkup.Service.Message
import EntityMarkup.Unicode.Blank

/-!
# The service

Clients post a text to `/recognize` and are answered with the marked-up text, or ask for the labels
that entities can have (`/entity-types`), or whether the service is alive (`/health`).

A request to mark up text is refused by its status alone if it holds no order. An order is handed to
a worker. If the worker breaks off, the client is told no more than that; when it does is not said
here.

Every answer may be read by pages of any origin. A browser asks before it sends a request from
another origin; that question is answered for every path, whether or not it exists.

Left out are the listening socket, what is logged, the time that an answer took, and all headers of
an answer but those that tell who may read it.
-/

namespace EntityMarkup

/-- What the service works with: the rules it recognizes by, its own configuration, and workers. -/
structure Service (π : Type) where
  rules : Rules π
  config : Config
  /-- Whether the worker breaks off that marks up a text. -/
  breaksOff : Config → Text → Bool := fun _ _ => false

namespace Service

variable {π : Type}

/-- The name of the way in which entities are recognized. -/
def model : String := "rule-based"

/-! ## Marking up -/

/-- The configuration for an order. -/
def effectiveConfig (s : Service π) (order : Order) : Config :=
  { s.config with
    input := order.input.getD s.config.input
    output := order.output.getD s.config.output }

/-- Marks up the text of an order. -/
def fulfil [PatternLanguage π] (s : Service π) (order : Order) : Response :=
  let config := s.effectiveConfig order
  let text := order.data.toList
  if Text.isAllBlank text then { status := 400, body := .error "Texto vazio" }
  else if s.breaksOff config text then { status := 500, body := .error "Falha interna" }
  else
    match Rules.recognizer.renderText config text s.rules with
    | (.ok (result, stats), _) => { status := 200, body := .markup model result stats }
    | (.error e, _) => { status := 400, body := .error e.message }

/-- The size in bytes above which a body is refused. -/
def bodyLimit : Nat := 2 * 1024 * 1024

/-- The order in a request, or the status that refuses it: its content type must be JSON, and its
body neither too large nor anything but an order. -/
def orderOf (r : Request) : Except Nat Order :=
  if !(r.contentType.map MediaType.isJson).getD false then .error 415
  else if bodyLimit < Text.size r.body.toList then .error 413
  else
    match Order.ofBody r.body with
    | .ok order => .ok order
    | .error .malformed => .error 400
    | .error .mismatch => .error 422

/-- Answers a request to mark up text. -/
def recognize [PatternLanguage π] (s : Service π) (r : Request) : Response :=
  match orderOf r with
  | .ok order => s.fulfil order
  | .error status => { status, body := .remark }

/-! ## Routes -/

/-- Answers a request that only reads: a request for the headers alone has no body. -/
def readOnly (r : Request) (body : Body) : Response :=
  if r.method = "GET" then { status := 200, body }
  else if r.method = "HEAD" then { status := 200, body := .text "" }
  else { status := 405, body := .remark }

/-- Answers a request by its path and method. -/
def route [PatternLanguage π] (s : Service π) (r : Request) : Response :=
  if r.path = "/recognize" then
    if r.method = "POST" then s.recognize r else { status := 405, body := .remark }
  else if r.path = "/entity-types" then readOnly r (.labels model s.rules.labels)
  else if r.path = "/health" then readOnly r (.text "ok")
  else { status := 404, body := .remark }

/-! ## Origins -/

/-- Pages of any origin may read an answer. -/
def anyOrigin : String × String := ("access-control-allow-origin", "*")

/-- Pages of any origin may send requests with any method and any headers. -/
def preflightHeaders : List (String × String) :=
  [anyOrigin, ("access-control-allow-methods", "*"), ("access-control-allow-headers", "*")]

/-- Answers a request. -/
def respond [PatternLanguage π] (s : Service π) (r : Request) : Response :=
  if r.method = "OPTIONS" then { status := 200, body := .text "", headers := preflightHeaders }
  else { s.route r with headers := [anyOrigin] }

/-! ## Durations -/

/-- The whole milliseconds in a duration, as far as 64 bits go. -/
def elapsedMillis (seconds nanoseconds : Nat) : Nat :=
  min (seconds * 1000 + nanoseconds / 1000000) (UInt64.size - 1)

end Service

end EntityMarkup
