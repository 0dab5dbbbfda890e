/-!
# Classified tokens

A token pairs a piece of text with the kind that a classifier gave it.
-/

namespace DocTree

/-- A piece of text, and its kind, which is the value of the token. -/
structure Token where
  value : String := ""
  data : String := ""
  deriving DecidableEq, Repr, Inhabited

/-- A token without text is empty, whatever its kind. -/
def Token.isEmpty (token : Token) : Bool :=
  token.data == ""

end DocTree
