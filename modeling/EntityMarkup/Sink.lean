import EntityMarkup.Render.Event

/-!
# Sinks

A sink takes the bytes of the text that is written and the warnings that are reported. It may have
room for a certain number of bytes only: it then takes as many bytes of a text as it has room for,
and fails if these are not all of them.

Sinks that are interrupted and asked again, or take what they are handed in parts, come to the same
and are left out; so is flushing.
-/

namespace EntityMarkup

/-- What has been written and reported, and for how many more bytes there is room. -/
structure Sink where
  /-- The bytes there is still room for; `none` if there is no limit. -/
  room : Option Nat := none
  written : Array UInt8 := #[]
  warnings : Array Warning := #[]
  deriving DecidableEq, Repr

namespace Sink

/-- A sink with room for `n` bytes. -/
def ofRoom (n : Nat) : Sink :=
  { room := some n }

/-- Takes bytes, and tells whether there was room for all of them. -/
def takeBytes (s : Sink) (bytes : Bytes) : Sink × Bool :=
  match s.room with
  | none => ({ s with written := s.written ++ bytes }, true)
  | some n =>
    ({ s with room := some (n - bytes.length), written := s.written ++ bytes.take n },
      bytes.length ≤ n)

/-- Takes what an event writes or reports, and tells whether it could. -/
def accept (s : Sink) : Event → Sink × Bool
  | .write t => s.takeBytes t.utf8
  | .warn w => ({ s with warnings := s.warnings.push w }, true)

/-- Takes events up to the first that fails, and tells whether none did. -/
def acceptAll (s : Sink) : List Event → Sink × Bool
  | [] => (s, true)
  | event :: rest =>
    match s.accept event with
    | (s', true) => s'.acceptAll rest
    | (s', false) => (s', false)

/-- The text that was written; there is none if a character was cut. -/
def text? (s : Sink) : Option Text :=
  Text.ofUtf8? s.written.toList

end Sink

end EntityMarkup
