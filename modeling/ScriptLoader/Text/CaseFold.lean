/-!
Comparison of names without regard to case. One of the two names is always written in ASCII, so it
is enough to know which characters fold to an ASCII letter: the two cases of the letter, the long s
and the kelvin sign.
-/

set_option autoImplicit false
namespace ScriptLoader.Text

/-- The lower-case ASCII letter that a character folds to; any other character stays as it is. -/
def foldChar (c : Char) : Char :=
  if c = 'ſ' then 's' else if c = 'K' then 'k' else c.toLower

/-- Equality of names up to case, when `name` is written in ASCII. -/
def sameName (name s : String) : Bool := name.toList.map foldChar == s.toList.map foldChar

end ScriptLoader.Text
