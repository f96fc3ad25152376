import EntityMarkup.Proofs.Render.Sinks
import EntityMarkup.Proofs.Text.Escaped
import EntityMarkup.Render.Mark

/-!
# Literal text on its way to a sink

Literal text is not escaped before it is written, but on the way, run by run. What a sink takes of
it, whether it has a limit or not, is what it takes of the escaped text. So it does not matter in
which pieces literal text is written, and reading back what was written gives the text.

* `acceptAll_events`: marks are written as their texts.
* **`escape_bijective`**: escaping and reading back are inverse to each other, and a sink is handed
  what escaping gives, in whatever fragments a text is written.
-/

namespace EntityMarkup

/-- **Marks are written as their texts**, whatever the pieces are in which they are written. -/
theorem Sink.acceptAll_events (s : Sink) (marks : List Mark) :
    s.acceptAll (Mark.events marks) = s.takeBytes (Text.utf8 (marks.flatMap Mark.text)) := by
  have hpieces : (marks.flatMap Mark.pieces).flatten = marks.flatMap Mark.text := by
    induction marks with
    | nil => rfl
    | cons m marks ih =>
      rw [List.flatMap_cons, List.flatten_append, Mark.flatten_pieces, ih, List.flatMap_cons]
  rw [Mark.events, Sink.acceptAll_map_write, hpieces]

namespace Text

/-- A text that is cut into fragments is escaped fragment by fragment. -/
theorem flatten_map_escape (fragments : List Text) :
    (fragments.map escape).flatten = escape fragments.flatten := by
  induction fragments with
  | nil => rfl
  | cons fragment rest ih => rw [List.map_cons, List.flatten_cons, ih, List.flatten_cons,
      escape_append]

/-- **Escaping is a bijection** from all texts onto escaped text, and reading back is its inverse.
A text that is escaped as it is written is written as what escaping gives, and so is any sequence of
fragments that it is cut into; what a sink takes of it does not depend on the pieces. -/
theorem escape_bijective :
    (∀ t : Text, t.escape.unescape = t) ∧
    (∀ u : Text, (∃ t : Text, t.escape = u) ↔ u.IsEscaped) ∧
    (∀ u : Text, u.IsEscaped → u.unescape.escape = u) ∧
    (∀ (s : Sink) (t : Text), s.acceptAll (Mark.events [.literal t]) = s.takeBytes t.escape.utf8) ∧
    ∀ (t : Text) (fragments : List Text), fragments.flatten = t →
      (fragments.map escape).flatten = t.escape ∧
        ∀ s : Sink, s.acceptAll (Mark.events (fragments.map .literal))
          = s.takeBytes t.escape.utf8 := by
  refine ⟨unescape_escape, fun u => ⟨?_, fun h => ⟨u.unescape, h.escape_unescape⟩⟩,
    fun u h => h.escape_unescape, fun s t => ?_, ?_⟩
  · rintro ⟨t, rfl⟩
    exact isEscaped_escape t
  · rw [Sink.acceptAll_events, List.flatMap_singleton]
    rfl
  · rintro t fragments rfl
    refine ⟨flatten_map_escape fragments, fun s => ?_⟩
    rw [Sink.acceptAll_events, List.flatMap_map, ← flatten_map_escape, List.flatMap_def]
    rfl

/-- A text that holds references and names of references is escaped, and reads back; it is written
as such in fragments that cut them, up to where the sink has no more room. -/
theorem escape_bijective_references :
    let t : Text := "&lt;&amp;quot; \"a\" & b;".toList
    let u : Text := "&amp;lt;&amp;amp;quot; &quot;a&quot; &amp; b;".toList
    let fragments : List Text := ["&l".toList, "t;&amp;quot; \"a".toList, "\" & b;".toList]
    u.IsEscaped ∧ u.unescape.escape = u ∧ fragments.flatten = t ∧
      (Sink.ofRoom 7).acceptAll (Mark.events (fragments.map .literal))
        = (⟨some 0, "&amp;lt".toUTF8.data, #[]⟩, false) := by
  intro t u fragments
  obtain ⟨-, himage, hback, -, hfragments⟩ := escape_bijective
  have hu : t.escape = u := by decide
  have hescaped : u.IsEscaped := (himage u).mp ⟨t, hu⟩
  have hcut : fragments.flatten = t := by decide
  refine ⟨hescaped, hback u hescaped, hcut, ?_⟩
  rw [(hfragments t fragments hcut).2, hu]
  decide

end Text

end EntityMarkup
