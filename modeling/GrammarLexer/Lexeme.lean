import GrammarLexer.Code

/-!
# Lexemes

A lexeme is what a stretch of a section means, without its place. Placed at a position it gives a
token, or none: comments and the word for an empty rule leave no trace.

* `Lexeme` -- what can be read;
* `Lexeme.token?` -- the token that a lexeme gives at a position.
-/

namespace GrammarLexer

/-- What a stretch of text was read as. -/
inductive Lexeme where
  | semicolon
  | bar
  | number (n : Nat)
  /-- A type tag, brackets included. -/
  | tag (raw : Text)
  /-- A name, and whether a colon follows it. -/
  | identifier (name : Text) (colon : Bool)
  | directive (d : Directive)
  /-- The word for an empty rule. -/
  | emptyRule
  /-- A word that begins like a keyword and goes on past it. -/
  | extended (word : Text)
  | code (block : Code)
  /-- A string without its quotes. -/
  | string (inner : Text)
  /-- A comment without its marks. -/
  | comment (inner : Text)
  /-- A character literal, quotes included. -/
  | character (raw : Text)
  deriving DecidableEq, Repr

namespace Lexeme

/-- The token that a lexeme gives at a position, if any. -/
def token? (position : Position) : Lexeme → Option Token
  | semicolon => some (.ofText .semicolon [';'] position)
  | bar => some (.ofText .bar ['|'] position)
  | number n => some ⟨.number, .number n, position, []⟩
  | tag raw => some (.ofText .tag raw position)
  | identifier name true => some (.ofText .identColon name position)
  | identifier name false => some (.ofText .ident name position)
  | directive d => some (.ofText (.directive d) d.keyword position)
  | emptyRule => none
  | extended word => some (.ofText .ident word position)
  | code block => some ⟨.userCode, .text block.text, position, block.references position⟩
  | string inner => some (.ofText .string (quotedRun '"' inner) position)
  | comment _ => none
  | character raw => some (.ofText .char raw position)

end Lexeme

end GrammarLexer
