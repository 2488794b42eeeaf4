import GrammarLexer.Directive
import GrammarLexer.Position
import GrammarLexer.Text.Quoted

/-!
# Tokens

* `Token` -- a kind, a value, the position of the first character and, for action code, the
  references found in it;
* `Reference` -- a placeholder of action code: `$$`, `$1`, `$<tag>2`, `@$`, `@1`;
* `Token.display` -- a token as reports show it;
* `Token.displayWith` -- the same, whichever characters are taken to be hidden.
-/

namespace GrammarLexer

/-! ## 1. References -/

/-- What a placeholder stands for. -/
inductive ReferenceForm where
  /-- A semantic value, written with a dollar sign. -/
  | value
  /-- A location, written with an at sign. -/
  | location
  deriving DecidableEq, Repr

/-- The sign that a placeholder begins with. -/
def ReferenceForm.sigil : ReferenceForm → Char
  | value => '$'
  | location => '@'

/-- Which symbol of the rule a placeholder speaks of. -/
inductive ReferenceTarget where
  /-- The left-hand side. -/
  | whole
  /-- A symbol of the right-hand side, by its number. -/
  | index (n : Nat)
  deriving DecidableEq, Repr

/-- A type tag, brackets included, with the position of its opening bracket. -/
structure Tag where
  raw : Text
  position : Position
  deriving DecidableEq, Repr

/-- A placeholder found in action code. -/
structure Reference where
  form : ReferenceForm
  target : ReferenceTarget
  /-- The type tag between sigil and number, if there is one. -/
  tag : Option Tag
  /-- The bytes of the placeholder in the text of the code. -/
  span : Span
  deriving DecidableEq, Repr

/-- The text of a placeholder in the code that it was found in. In another text there may be
none. -/
def Reference.placeholder? (r : Reference) (code : Text) : Option Text := r.span.text? code

/-! ## 2. Tokens -/

/-- What sort of token this is. The kinds compare in this order, the directives among themselves in
theirs. -/
inductive TokenKind where
  | directive (d : Directive)
  | userCode
  | tag
  | number
  | identColon
  | ident
  | semicolon
  | bar
  | string
  | char
  deriving DecidableEq, Repr, Ord

/-- The name of a kind, as reports show it: a directive is shown by its keyword. -/
def TokenKind.display : TokenKind → Text
  | directive d => d.keyword
  | userCode => "User_code".toList
  | tag => "Tag".toList
  | number => "Number".toList
  | identColon => "Ident_Colon".toList
  | ident => "Ident".toList
  | semicolon => "Semicolon".toList
  | bar => "Bar".toList
  | string => "String".toList
  | char => "Char".toList

/-- What a token holds: a number its value, every other token its text. -/
inductive TokenValue where
  | number (n : Nat)
  | text (s : Text)
  deriving DecidableEq, Repr

/-- A value as it is shown when the `hidden` characters are those that are not seen: a number in
decimal digits, a text in quotes. -/
def TokenValue.displayWith (hidden : Char → Bool) : TokenValue → Text
  | number n => Text.ofNat n
  | text s => s.quotedWith hidden

/-- A token of the declarations or the rules. -/
structure Token where
  kind : TokenKind
  value : TokenValue
  /-- Where its first character is. -/
  position : Position
  /-- The placeholders in action code, in order. Other tokens have none. -/
  references : List Reference
  deriving DecidableEq, Repr

namespace Token

/-- A token as it is shown when the `hidden` characters are those that are not seen: its kind, its
value in brackets and its position. -/
def displayWith (hidden : Char → Bool) (t : Token) : Text :=
  t.kind.display ++ ['('] ++ t.value.displayWith hidden ++ ") @ ".toList ++ t.position.display

/-- A token as reports show it. -/
def display (t : Token) : Text := t.displayWith isHidden

/-- A token that holds a text, without references. -/
def ofText (kind : TokenKind) (s : Text) (position : Position) : Token :=
  ⟨kind, .text s, position, []⟩

end Token

/-- A tag as a token of its own. -/
def Tag.token (tag : Tag) : Token := .ofText .tag tag.raw tag.position

end GrammarLexer
