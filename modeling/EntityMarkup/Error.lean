import EntityMarkup.Entity

/-!
# Errors and warnings

What can go wrong while text is marked up, with the wording of each case.

Faults of input and output are those that can come up here. What else a system reports about
files, and the chain of causes behind an error, is left out.
-/

namespace EntityMarkup

/-- Why input or output failed. -/
inductive IoFault where
  /-- The input is not valid UTF-8. -/
  | unreadable
  /-- There is no such file. -/
  | missing
  /-- The sink does not accept what is written. -/
  | full
  deriving DecidableEq, Repr

/-- Why a step failed. -/
inductive MarkupError where
  /-- An entity is empty or is not a span of its sentence. -/
  | invalidSpan (start length tokens : Nat)
  /-- Two entities of a sentence cross, and the policy is to reject that. -/
  | crossingSpans (first second : Entity)
  /-- The recognizer failed. -/
  | recognizer (message : String)
  /-- A configuration or a rule is not valid. -/
  | config (reason : String)
  /-- Reading or writing failed. -/
  | io (fault : IoFault)
  deriving DecidableEq, Repr

/-- What is reported about a sentence that is rendered all the same. -/
inductive Warning where
  /-- Two entities cross, so that the markup only approximates them. -/
  | crossingSpans (first second : Entity)
  /-- Entities that are still open at the end of the sentence. -/
  | unclosed (count : Nat)
  deriving DecidableEq, Repr

/-! ## Wording -/

/-- The text of a failure of input or output. -/
def IoFault.message : IoFault → String
  | .unreadable => "a entrada não é UTF-8 válido"
  | .missing => "o arquivo não existe"
  | .full => "a saída não aceita mais dados"

/-- The text of an error. -/
def MarkupError.message : MarkupError → String
  | .invalidSpan start length tokens =>
    "span inválido: start=" ++ toString start ++ ", length=" ++ toString length
      ++ " em sentença com " ++ toString tokens ++ " tokens"
  | .crossingSpans first second => "spans cruzados: " ++ first.describe ++ " e " ++ second.describe
  | .recognizer message => "falha no reconhecedor: " ++ message
  | .config reason => "configuração inválida: " ++ reason
  | .io fault => fault.message

/-- The text of a warning. -/
def Warning.message : Warning → String
  | .crossingSpans first second =>
    "spans cruzados " ++ first.describe ++ " e " ++ second.describe ++ "; saída aproximada"
  | .unclosed count =>
    toString count ++ " entidade(s) sem fechamento ao fim da sentença (spans cruzados)"

end EntityMarkup
