import EntityMarkup.Entity
import EntityMarkup.Render.Mark
import EntityMarkup.Token

/-!
# Markup nested by tokens

Every sentence, token and entity has tags around it:

    <sentence><ne type="PER"><token>John</token></ne> <token>lives</token></sentence>

`walk` goes through the tokens of a sentence with the entities in the order of rendering. Before a
token it copies the text since the token before, opens the entities that begin with it, and puts
them on a stack; after the token it closes the entities on top of the stack that end with it.

The stack is right for entities that are nested or apart. Where two cross, an entity can be covered
by one that ends later. It is then never closed, and neither is what lies below it.
-/

namespace EntityMarkup.Nested

/-- What the markup of a sentence comes to. -/
structure Outcome where
  /-- What is written. -/
  marks : List Mark
  /-- The offset up to which the block is written. -/
  cursor : Nat
  /-- The entities that were opened and not closed, the last one first. -/
  opened : List Entity
  deriving DecidableEq, Repr

/-- The markup of the tokens from index `i` on. The block is written up to `cursor`, `opened` are
the open entities, the last one first, and `pending` the entities still to come. -/
def walk (block : Text) (i cursor : Nat) (opened pending : List Entity) : Sentence → Outcome
  | [] => ⟨[], cursor, opened⟩
  | token :: rest =>
    let starting := pending.takeWhile fun e => e.start == i
    let stack := starting.reverse ++ opened
    let ending := stack.takeWhile fun e => e.last == i
    let tail := walk block (i + 1) token.stop (stack.drop ending.length)
      (pending.drop starting.length) rest
    let marks :=
      Mark.stretch block cursor token.start
        ++ (if i = 0 then [.beginSentence] else [])
        ++ starting.map (fun e => .beginEntity e.label)
        ++ [.beginToken, .literal (block.slice token.start token.stop), .endToken]
        ++ ending.map (fun _ => .endEntity)
        ++ (if rest.isEmpty then [.endSentence] else [])
    { tail with marks := marks ++ tail.marks }

/-- The markup of a sentence, its entities being in the order of rendering. -/
def sentence (block : Text) (cursor : Nat) (tokens : Sentence) (entities : List Entity) : Outcome :=
  walk block 0 cursor [] entities tokens

/-- The events of a sentence, and the offset up to which the block is written after it. -/
def render (block : Text) (cursor : Nat) (tokens : Sentence) (entities : List Entity) :
    List Event × Nat :=
  let outcome := sentence block cursor tokens entities
  let unclosed := outcome.opened.length
  (Mark.events outcome.marks ++ (if unclosed = 0 then [] else [.warn (.unclosed unclosed)]),
    outcome.cursor)

end EntityMarkup.Nested
