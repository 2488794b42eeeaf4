import GrammarLexer.Text

/-!
# Literals in attributes

Attributes of a declaration take literals. Where a text is asked for, a number is refused and so is
the empty text.

* `Literal`, `Literal.nonEmpty` -- a literal, and its text;
* `LiteralError` -- why it has none.
-/

namespace GrammarLexer

/-- A literal in the parameters of an attribute. -/
inductive Literal where
  | text (s : Text)
  | number
  deriving DecidableEq, Repr

/-- Why a literal was refused. -/
inductive LiteralError where
  | notText
  | empty
  deriving DecidableEq, Repr

/-- The words for it. -/
def LiteralError.message : LiteralError → Text
  | notText => "expected string literal".toList
  | empty => "This should not be empty.".toList

/-- The text of a literal, which must not be empty. -/
def Literal.nonEmpty : Literal → Except LiteralError Text
  | text [] => .error .empty
  | text s => .ok s
  | number => .error .notText

end GrammarLexer
