import EntityMarkup.Pattern.Reader
import EntityMarkup.Recognizer.Rules

/-!
# Regular expressions as a language of patterns

Rules are run with the regular expressions that `Pattern.ofString` reads. These are a part of what
is in use elsewhere under that name. Refused, although they may be patterns in a larger language,
are

* properties of characters other than upper-case letters, lower-case letters, decimal digits and
  white space (`\p{Lu}`, `\p{Ll}`, `\p{Nd}`, `\p{White_Space}`, or their long names), and all that
  are negated or compared within the braces or named by one letter without any;
* the options that allow blanks and comments in a pattern (`x`), that end lines at carriage returns
  too (`R`), and that turn Unicode off (`-u`).

What is proved about rules is proved for every language and does not depend on this one.
-/

namespace EntityMarkup

instance : PatternLanguage Pattern where
  read text := (Pattern.ofString text).mapError Pattern.Fault.message
  isMatch := Pattern.isMatch

end EntityMarkup
