import GrammarLexer.Text

/-!
# Positions and spans

* `Position` -- a line and a column, both from one; columns count characters;
* `Position.after` -- where one stands after passing a text;
* `Span` -- a run of bytes inside some text, its end not included.

Both are ordered by their first component and then by the second.
-/

namespace GrammarLexer

/-! ## 1. Positions -/

/-- A place in a grammar file, by line and column. -/
structure Position where
  line : Nat
  column : Nat
  deriving DecidableEq, Repr

namespace Position

instance : Ord Position where
  compare p q := (compare p.line q.line).then (compare p.column q.column)

/-- The place `n` characters further along the same line. -/
def shifted (p : Position) (n : Nat) : Position := { p with column := p.column + n }

/-- The place after one character: a newline goes to the start of the next line. -/
def next (p : Position) (ch : Char) : Position :=
  if ch = '\n' then ⟨p.line + 1, 1⟩ else ⟨p.line, p.column + 1⟩

/-- The place after a text that begins here. -/
def after (p : Position) (s : Text) : Position := s.foldl next p

@[simp] theorem after_nil (p : Position) : p.after [] = p := rfl

@[simp] theorem after_cons (p : Position) (ch : Char) (s : Text) :
    p.after (ch :: s) = (p.next ch).after s := rfl

@[simp] theorem after_append (p : Position) (s t : Text) :
    p.after (s ++ t) = (p.after s).after t := by
  simp [after]

/-- A position as it is shown: line, colon, column. -/
def display (p : Position) : Text := Text.ofNat p.line ++ ':' :: Text.ofNat p.column

end Position

/-! ## 2. Spans -/

/-- A run of bytes: `start` belongs to it and `stop` does not. -/
structure Span where
  start : Nat
  stop : Nat
  deriving DecidableEq, Repr

namespace Span

instance : Ord Span where
  compare p q := (compare p.start q.start).then (compare p.stop q.stop)

/-- The offset of the last byte of a span that is not empty. -/
def last (span : Span) : Nat := span.stop - 1

/-- The text under a span, if both its ends are character boundaries of the text. -/
def text? (span : Span) (s : Text) : Option Text := s.slice? span.start span.stop

end Span

end GrammarLexer
