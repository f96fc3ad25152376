/-!
# Configuration

A run is configured by the format of its input, the format of its output, and what is to be done
about entities that cross. Every setting has a default.
-/

namespace EntityMarkup

/-- How the text of the input is written. -/
inductive InputFormat where
  /-- Running text, in which words and sentences have to be found. -/
  | untokenized
  /-- One token a line, a blank line after each sentence. -/
  | vertical
  deriving DecidableEq, Repr, Inhabited

/-- How the entities that were found are written. -/
inductive OutputFormat where
  /-- The text with tags around its sentences, tokens and entities. -/
  | xml
  /-- The text with tags around its entities. -/
  | charSpan
  /-- A line for each entity, with the numbers of its lines in the input. -/
  | vertical
  /-- A line for each token, with the part it plays in an entity. -/
  | conll
  deriving DecidableEq, Repr, Inhabited

/-- What is done about entities that cross. -/
inductive CrossingPolicy where
  /-- They are reported, and rendered as well as can be. -/
  | warn
  /-- Their sentence is an error. -/
  | reject
  deriving DecidableEq, Repr, Inhabited

/-- The settings of a run. -/
structure Config where
  input : InputFormat := .untokenized
  output : OutputFormat := .xml
  crossing : CrossingPolicy := .warn
  deriving DecidableEq, Repr, Inhabited

/-! ## Names -/

/-- A type each of whose values has a name of its own in configurations. -/
class Named (α : Type) where
  /-- All values with their names. -/
  names : List (String × α)

/-- The value that has a name. -/
def Named.ofName? {α : Type} [Named α] (name : String) : Option α :=
  (Named.names (α := α)).lookup name

/-- The name of a value. -/
def Named.name {α : Type} [Named α] [DecidableEq α] (a : α) : String :=
  (((Named.names (α := α)).find? fun entry => entry.2 = a).map Prod.fst).getD ""

instance : Named InputFormat where
  names := [("untokenized", .untokenized), ("vertical", .vertical)]

instance : Named OutputFormat where
  names := [("xml", .xml), ("char_span", .charSpan), ("vertical", .vertical), ("conll", .conll)]

instance : Named CrossingPolicy where
  names := [("warn", .warn), ("reject", .reject)]

end EntityMarkup
