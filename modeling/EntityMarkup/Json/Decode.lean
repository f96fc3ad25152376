import EntityMarkup.Json.Record
import EntityMarkup.Pipeline

/-!
# Configurations, entities, tokens and counts in JSON

The form in which each of them is read. The settings of a configuration may be missing, and then
have their defaults; the other records need all their fields.

`Config.load` reads the configuration a service starts with.

The wording of what is wrong with a text is this library's own. Nothing is written in JSON here: an
answer is left to whoever sends it.
-/

namespace EntityMarkup

open Json Json.Reader

/-! ## Configurations -/

namespace Config

/-- The settings that were given. -/
structure Given where
  input : Option InputFormat := none
  output : Option OutputFormat := none
  crossing : Option CrossingPolicy := none

/-- Reads a configuration. -/
def reader : Reader Config := do
  let given ← record
    [.of "input" Given.input (fun g x => { g with input := some x }) choice,
      .of "output" Given.output (fun g x => { g with output := some x }) choice,
      .of "crossing" Given.crossing (fun g x => { g with crossing := some x }) choice] {}
  let default : Config := {}
  return {
    input := given.input.getD default.input
    output := given.output.getD default.output
    crossing := given.crossing.getD default.crossing }

/-- The configuration that a text describes. -/
def ofJson (text : String) : Except MarkupError Config :=
  match reader.readAll text with
  | .ok config => .ok config
  | .error .malformed => .error (.config "JSON malformado")
  | .error .mismatch => .error (.config "valor inesperado")

/-- A file as it was found. -/
inductive File where
  /-- There is none of that name. -/
  | missing
  | content (bytes : Bytes)
  deriving DecidableEq, Repr

/-- The configuration in the file that is named, or the default if none is. -/
def load : Option File → Except MarkupError Config
  | none => .ok {}
  | some .missing => .error (.io .missing)
  | some (.content bytes) =>
    match Text.ofUtf8? bytes with
    | none => .error (.io .unreadable)
    | some text => ofJson (String.ofList text)

end Config

/-! ## Entities -/

namespace Entity

/-- The fields that were given. -/
structure Given where
  start : Option Nat := none
  length : Option Nat := none
  label : Option String := none

/-- Reads an entity. -/
def reader : Reader Entity := do
  let given ← record
    [.of "start" Given.start (fun g x => { g with start := some x }) nat,
      .of "length" Given.length (fun g x => { g with length := some x }) nat,
      .of "type" Given.label (fun g x => { g with label := some x }) text] {}
  return ⟨← require given.start, ← require given.length, ← require given.label⟩

end Entity

/-! ## Tokens -/

namespace Token

/-- The fields that were given. -/
structure Given where
  form : Option String := none
  start : Option Nat := none
  length : Option Nat := none
  index : Option Nat := none

/-- Reads a token. -/
def reader : Reader Token := do
  let given ← record
    [.of "text" Given.form (fun g x => { g with form := some x }) text,
      .of "start" Given.start (fun g x => { g with start := some x }) nat,
      .of "length" Given.length (fun g x => { g with length := some x }) nat,
      .of "index" Given.index (fun g x => { g with index := some x }) nat] {}
  return ⟨(← require given.form).toList, ← require given.start, ← require given.length,
    ← require given.index⟩

end Token

/-! ## Counts -/

namespace Stats

/-- The fields that were given. -/
structure Given where
  blocks : Option Nat := none
  sentences : Option Nat := none
  tokens : Option Nat := none
  entities : Option Nat := none

/-- Reads counts. -/
def reader : Reader Stats := do
  let given ← record
    [.of "blocks" Given.blocks (fun g x => { g with blocks := some x }) nat,
      .of "sentences" Given.sentences (fun g x => { g with sentences := some x }) nat,
      .of "tokens" Given.tokens (fun g x => { g with tokens := some x }) nat,
      .of "entities" Given.entities (fun g x => { g with entities := some x }) nat] {}
  return ⟨← require given.blocks, ← require given.sentences, ← require given.tokens,
    ← require given.entities⟩

end Stats

/-- Reads a line counter, which is a bare number. -/
def LineCounter.reader : Reader LineCounter := do
  return ⟨← nat⟩

end EntityMarkup
