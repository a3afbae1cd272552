/-!
# Plain names

The names that a compiled function may be given: ASCII identifiers.
-/

namespace Collector

/-- Whether a plain name may begin with `c`. -/
def isPlainStart (c : Char) : Bool := c.isAlpha || c == '$' || c == '_'

/-- Whether `name` is a letter, `$` or `_`, followed by any number of these and of digits. -/
def isPlainName (name : String) : Bool :=
  match name.toList with
  | [] => false
  | first :: rest => isPlainStart first && rest.all fun c => isPlainStart c || c.isDigit

end Collector
