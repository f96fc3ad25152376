import EntityMarkup.Error
import EntityMarkup.Text

/-!
# What rendering does

Rendering a sentence does two kinds of things, in an order that can be observed: it writes text to
a sink, and it reports warnings. A rendering is the list of these events; nothing in it depends on
what the sink accepts.

* `written_append`, `warnings_append`: both views are additive.
-/

namespace EntityMarkup

/-- One thing a rendering does. -/
inductive Event where
  /-- Text is written to the sink. -/
  | write (text : Text)
  /-- A warning is reported. -/
  | warn (warning : Warning)
  deriving DecidableEq, Repr

namespace Event

/-- The text that events write. -/
def written : List Event → Text
  | [] => []
  | .write t :: rest => t ++ written rest
  | .warn _ :: rest => written rest

/-- The warnings that events report. -/
def warnings : List Event → List Warning
  | [] => []
  | .write _ :: rest => warnings rest
  | .warn w :: rest => w :: warnings rest

@[simp] theorem written_append (xs ys : List Event) :
    written (xs ++ ys) = written xs ++ written ys := by
  fun_induction written xs <;> simp_all [written]

@[simp] theorem warnings_append (xs ys : List Event) :
    warnings (xs ++ ys) = warnings xs ++ warnings ys := by
  fun_induction warnings xs <;> simp_all [warnings]

theorem written_map_write (texts : List Text) : written (texts.map write) = texts.flatten := by
  induction texts <;> simp_all [written]

theorem warnings_map_write (texts : List Text) : warnings (texts.map write) = [] := by
  induction texts with
  | nil => rfl
  | cons t texts ih => exact ih

end Event

end EntityMarkup
