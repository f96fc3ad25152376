/-!
# Faults of a pattern's text

Why a text is not a pattern. A text is read up to its first fault, which alone is told; neither
where it stands nor an excerpt of the text goes with it.
-/

namespace EntityMarkup.Pattern

/-- A fault in the text of a pattern. -/
inductive Fault where
  | unclosedGroup
  | unopenedGroup
  | unclosedClass
  | lookAround
  | backReference
  | nothingToRepeat
  | invalidCount
  | invalidEscape
  | invalidClassItem
  | invalidRange
  | invalidGroupName
  | invalidFlag
  | unknownProperty
  | tooDeep
  | tooLarge
  deriving DecidableEq, Repr

/-- The text of a fault. -/
def Fault.message : Fault → String
  | .unclosedGroup => "grupo sem fechamento"
  | .unopenedGroup => "grupo sem abertura"
  | .unclosedClass => "classe sem fechamento"
  | .lookAround => "asserção de contexto não suportada"
  | .backReference => "referência não suportada"
  | .nothingToRepeat => "repetição sem operando"
  | .invalidCount => "contagem inválida"
  | .invalidEscape => "escape inválido"
  | .invalidClassItem => "item de classe inválido"
  | .invalidRange => "intervalo inválido"
  | .invalidGroupName => "nome de grupo inválido"
  | .invalidFlag => "opção inválida"
  | .unknownProperty => "propriedade desconhecida"
  | .tooDeep => "aninhamento excessivo"
  | .tooLarge => "expressão grande demais"

/-- What a pattern's options are at a place in it. -/
structure Flags where
  /-- Case does not matter. -/
  ignoreCase : Bool := false
  /-- The anchors are those of lines. -/
  multiLine : Bool := false
  /-- The dot accepts line feeds. -/
  dotAll : Bool := false
  /-- Repetitions prefer few rounds unless they are marked. -/
  swapLazy : Bool := false
  deriving DecidableEq, Repr

end EntityMarkup.Pattern
