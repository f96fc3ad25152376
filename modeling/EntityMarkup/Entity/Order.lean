import EntityMarkup.Entity

/-!
# The order of rendering

Inline markup opens entities in the order of their first tokens, and of entities that begin
together the longer first: the outer one is then opened before the inner one. Entities of the same
span keep the order in which they were given.

`sort` leaves a list alone that is in order already, which most recognizers' lists are.
-/

namespace EntityMarkup.Entity

/-- By first token, and the longer first among those that begin together. -/
def renderOrder (a b : Entity) : Ordering :=
  (compare a.start b.start).then (compare b.length a.length)

/-- Whether one entity may stand before another. -/
def mayPrecede (a b : Entity) : Bool :=
  renderOrder a b != .gt

/-- Whether each two neighbours are in the order of rendering. -/
def isSorted : List Entity → Bool
  | [] => true
  | [_] => true
  | a :: b :: rest => a.mayPrecede b && isSorted (b :: rest)

/-- Entities in the order of rendering. -/
def sort (entities : List Entity) : List Entity :=
  if isSorted entities then entities else entities.mergeSort mayPrecede

end EntityMarkup.Entity
