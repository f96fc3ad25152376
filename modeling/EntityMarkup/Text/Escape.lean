import EntityMarkup.Text

/-!
# Literal text inside markup

Four characters mean something in the markup this library writes: `&`, `<`, `>` and the quotation
mark. `escape` writes each of them as a reference, in one pass, so that no reference it has just
written is escaped again; every other character stands for itself. `unescape` replaces the four
references by their characters, that of `&` last, because a reference put together by an earlier
replacement must not be read as one.

`stripTags` keeps what stands outside tags. Escaped text holds no `<`, so every `<` opens a tag.

* `escape_append`: text that is cut into fragments is escaped fragment by fragment.
* `flatten_escapedRuns`: a text that is escaped as it is written comes out as `escape` has it.
-/

namespace EntityMarkup.Text

/-! ## Escaping -/

/-- The reference that stands for a character that is special in markup. -/
def reference? : Char → Option Text
  | '&' => some ['&', 'a', 'm', 'p', ';']
  | '<' => some ['&', 'l', 't', ';']
  | '>' => some ['&', 'g', 't', ';']
  | '"' => some ['&', 'q', 'u', 'o', 't', ';']
  | _ => none

/-- A character as it is written in markup. -/
def escapeChar (c : Char) : Text :=
  (reference? c).getD [c]

/-- A text as it is written in markup. -/
def escape (t : Text) : Text :=
  t.flatMap escapeChar

@[simp] theorem escape_nil : escape [] = [] := rfl

/-- Text that is cut into fragments is escaped fragment by fragment. -/
@[simp] theorem escape_append (t u : Text) : escape (t ++ u) = escape t ++ escape u := by
  simp [escape]

/-- The runs in which a text is escaped as it is written: stretches that stand for themselves, and
between each two of them a reference. A stretch can be empty. -/
def escapedRuns : Text → List Text
  | [] => [[]]
  | c :: rest =>
    match reference? c, escapedRuns rest with
    | some reference, runs => [] :: reference :: runs
    | none, run :: runs => (c :: run) :: runs
    | none, [] => [[c]]

/-- The runs, put together, are the escaped text. -/
@[simp] theorem flatten_escapedRuns (t : Text) : t.escapedRuns.flatten = t.escape := by
  fun_induction escapedRuns t <;> simp_all [escape, escapeChar]

/-! ## Reading escaped text back -/

/-- Replaces every occurrence of `pattern`, found from left to right, by `c`. -/
def replaceAll (pattern : Text) (c : Char) : Text → Text
  | [] => []
  | d :: rest =>
    if pattern.isPrefixOf (d :: rest) then
      c :: replaceAll pattern c (rest.drop (pattern.length - 1))
    else
      d :: replaceAll pattern c rest
termination_by t => t.length

/-- The characters that `unescape` restores, in the order in which it does. -/
def unescapeOrder : List Char :=
  ['"', '>', '<', '&']

/-- Replaces the four references by the characters they stand for. -/
def unescape (t : Text) : Text :=
  unescapeOrder.foldl (fun t c => replaceAll (escapeChar c) c t) t

/-! ## Tags -/

/-- What stands outside tags, read from inside a tag or from outside one. -/
def stripTagsFrom : Bool → Text → Text
  | _, [] => []
  | inTag, c :: rest =>
    if c = '<' then stripTagsFrom true rest
    else if inTag then stripTagsFrom (c != '>') rest
    else c :: stripTagsFrom false rest

/-- What stands outside tags; a tag runs from a `<` to the next `>`. -/
def stripTags (t : Text) : Text :=
  stripTagsFrom false t

end EntityMarkup.Text
