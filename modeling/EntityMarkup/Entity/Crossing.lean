import EntityMarkup.Entity

/-!
# The first crossing pair

`firstCrossing?` looks for two entities of a list that cross. For each entity it looks only at the
run of entities after it that begin before it ends: in a list in the order of rendering no later
one overlaps it.
-/

namespace EntityMarkup.Entity

/-- The first pair of crossing entities in a list that is in the order of rendering. -/
def firstCrossing? : List Entity → Option (Entity × Entity)
  | [] => none
  | outer :: rest =>
    match (rest.takeWhile fun e => e.start < outer.stop).find? outer.crosses with
    | some inner => some (outer, inner)
    | none => firstCrossing? rest

end EntityMarkup.Entity
