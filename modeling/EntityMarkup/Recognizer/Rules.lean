import EntityMarkup.Recognizer
import EntityMarkup.Unicode.Blank
import EntityMarkup.Unicode.Case

/-!
# Recognition by rules

`Rules` hold names that are known, by label, and patterns for single forms. They find

* every occurrence of a known name, whose words are compared without regard to case;
* the capitalized forms after a person's title, as a person;
* a capitalized form and the mark of an organization after it, as an organization;
* every form that matches a pattern.

All that is found is answered, nested and crossing entities included, in the order of these rules
and each entity once. Names are kept in the order of their labels, and those of one label in the
order in which they were added.

Which texts are patterns, and which forms match them, is for a `PatternLanguage` to say. Nothing is
assumed about it, so that rules are the same for every language; the one they are run with is that
of `Pattern`.
-/

namespace EntityMarkup

/-- A language of patterns. -/
class PatternLanguage (π : Type) where
  /-- The pattern that a text describes, or what is wrong with the text. -/
  read : String → Except String π
  /-- Whether a form matches. -/
  isMatch : π → Text → Bool

/-- Names and patterns to look for. -/
structure Rules (π : Type) where
  /-- The lower-cased words of known names, by ascending label. -/
  gazetteers : List (String × List (List Text)) := []
  /-- Patterns for single forms, in the order in which they were added. -/
  patterns : List (String × π) := []

namespace Rules

variable {π : Type}

/-! ## Words the rules know -/

/-- Titles that stand before the name of a person. -/
def personTitles : List Text :=
  ["presidente", "ex-presidente", "senador", "senadora", "deputado", "deputada", "ministro",
    "ministra", "governador", "governadora", "prefeito", "prefeita", "general", "dr.", "dra.",
    "prof.", "president", "senator", "minister", "governor", "mayor", "mr.", "mrs."].map
    String.toList

/-- Marks that stand after the name of an organization. -/
def organizationMarks : List Text :=
  ["s.a.", "s/a", "ltda", "eireli", "inc", "inc.", "corp", "ltd", "ltd.", "holdings", "group",
    "fc"].map String.toList

/-- The label of persons. -/
def personLabel : String := "PER"

/-- The label of organizations. -/
def organizationLabel : String := "ORG"

/-! ## Adding rules -/

/-- Puts a name after the other names of its label. -/
def insertName (label : String) (name : List Text) :
    List (String × List (List Text)) → List (String × List (List Text))
  | [] => [(label, [name])]
  | (other, names) :: rest =>
    if label < other then (label, [name]) :: (other, names) :: rest
    else if label = other then (other, names ++ [name]) :: rest
    else (other, names) :: insertName label name rest

/-- Adds a name of one or more words; a blank name adds nothing. -/
def addName (rules : Rules π) (label : String) (name : Text) : Rules π :=
  match name.words.map Unicode.toLower with
  | [] => rules
  | words => { rules with gazetteers := insertName label words rules.gazetteers }

/-- Adds a pattern, if its text is one. -/
def addPattern [PatternLanguage π] (rules : Rules π) (label pattern : String) :
    Except MarkupError (Rules π) :=
  match PatternLanguage.read pattern with
  | .ok p => .ok { rules with patterns := rules.patterns ++ [(label, p)] }
  | .error fault => .error (.config ("padrão '" ++ pattern ++ "' inválido: " ++ fault))

/-! ## Finding entities -/

/-- Whether a form begins with an upper-case character. -/
def isCapitalized (form : Text) : Bool :=
  (form.head?.map Unicode.isUpper).getD false

/-- The occurrences of a name's words among lower-cased forms, as spans with a label. -/
def occurrences (label : String) (words lowered : List Text) : List Entity :=
  (List.range (lowered.length + 1 - words.length)).filterMap fun start =>
    if (lowered.drop start).take words.length = words then some ⟨start, words.length, label⟩
    else none

/-- The occurrences of known names. -/
def knownNames (rules : Rules π) (lowered : List Text) : List Entity :=
  rules.gazetteers.flatMap fun entry =>
    entry.2.flatMap fun words => occurrences entry.1 words lowered

/-- The names after titles. -/
def titledPersons (forms lowered : List Text) : List Entity :=
  (List.range (forms.length - 1)).filterMap fun i =>
    let length := ((forms.drop (i + 1)).takeWhile isCapitalized).length
    if personTitles.contains (lowered.getD i []) && 0 < length then
      some ⟨i + 1, length, personLabel⟩
    else none

/-- The names before marks of organizations. -/
def markedOrganizations (forms lowered : List Text) : List Entity :=
  (List.range (forms.length - 1)).filterMap fun i =>
    if organizationMarks.contains (lowered.getD (i + 1) []) && isCapitalized (forms.getD i []) then
      some ⟨i, 2, organizationLabel⟩
    else none

/-- The forms that match patterns. -/
def patternMatches [PatternLanguage π] (rules : Rules π) (forms : List Text) : List Entity :=
  rules.patterns.flatMap fun entry =>
    forms.zipIdx.filterMap fun form =>
      if PatternLanguage.isMatch entry.2 form.1 then some ⟨form.2, 1, entry.1⟩ else none

/-- The entities of a sentence. -/
def entities [PatternLanguage π] (rules : Rules π) (forms : List Text) : List Entity :=
  let lowered := forms.map Unicode.toLower
  (rules.knownNames lowered ++ titledPersons forms lowered ++ markedOrganizations forms lowered
    ++ rules.patternMatches forms).eraseDups

/-- The labels that entities can have. -/
def labels (rules : Rules π) : List String :=
  ascendingLabels
    (rules.gazetteers.map Prod.fst ++ [personLabel, organizationLabel]
      ++ rules.patterns.map Prod.fst)

/-- The recognizer that goes by rules. -/
def recognizer [PatternLanguage π] : Recognizer (Rules π) :=
  .ofFunction (fun rules forms => .ok (rules.entities forms)) labels

/-! ## Rules to begin with -/

/-- Names of some persons, places, organizations and other things. -/
def commonNames : List (String × List String) :=
  [("PER", ["Lula", "Getúlio Vargas", "Juscelino Kubitschek", "Machado de Assis",
      "Clarice Lispector", "Pelé", "Ayrton Senna", "Barack Obama", "John"]),
    ("LOC", ["Brasil", "Brasília", "São Paulo", "Rio de Janeiro", "Belém", "Salvador", "Amazônia",
      "Portugal", "Praga", "Prague", "London", "New York"]),
    ("ORG", ["Petrobras", "Embraer", "Supremo Tribunal Federal", "Universidade de São Paulo",
      "IBGE", "FIFA", "ONU", "Banco Mundial"]),
    ("MISC", ["Copa do Mundo", "Carnaval", "Lei Maria da Penha", "COVID-19"])]

/-- The registration number of a company. -/
def companyNumber : String :=
  "^\\d\x7b2\x7d\\.\\d\x7b3\x7d\\.\\d\x7b3\x7d/\\d\x7b4\x7d-\\d\x7b2\x7d$"

/-- Rules with some common names and the form of a company's registration number. -/
def common [PatternLanguage π] : Except MarkupError (Rules π) :=
  let rules : Rules π := commonNames.foldl (fun rules entry =>
    entry.2.foldl (fun rules name => rules.addName entry.1 name.toList) rules) {}
  rules.addPattern organizationLabel companyNumber

end Rules

end EntityMarkup
