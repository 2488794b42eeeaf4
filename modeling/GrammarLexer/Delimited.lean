import GrammarLexer.Fault

/-!
# Delimited runs

Quoted runs and comments go up to the first mark that closes them; nothing inside can hide it.

* `readQuoted` -- a run between two equal characters, the second being the very next one;
* `readComment` -- a run between `/*` and the first `*/` after it, so that `/*/` is still open.

Both give what stands between the marks.
-/

namespace GrammarLexer

/-- Reads a run between two `mark`s and gives what stands between them. A backslash hides nothing.
If another character stands first, it is passed, and the fault is found after it. -/
def readQuoted (mark : Char) : Text → Except Fault Text
  | [] => .error (.unknownAt 0)
  | ch :: rest =>
    if ch = mark then
      match Text.before? [mark] rest with
      | some inner => .ok inner
      | none => .error ⟨.openQuote mark 0, rest.length + 1, rest.length + 1⟩
    else
      .error (.unknownAt 1)

/-- The marks of a comment. -/
def commentOpening : Text := "/*".toList

@[inherit_doc commentOpening]
def commentClosing : Text := "*/".toList

/-- Reads a comment and gives what stands between its marks. Two bytes are passed for the opening
mark without a look at them, and more where they end inside a character. -/
def readComment (s : Text) : Except Fault (Taken Text) :=
  let opening := s.covering 2
  match Text.before? commentClosing (s.drop opening) with
  | some inner => .ok ⟨inner, opening + inner.length + 2⟩
  | none => .error ⟨.openComment 0, s.length, s.length⟩

/-- A run between two quotes, as it was written. -/
def quotedRun (mark : Char) (inner : Text) : Text := mark :: (inner ++ [mark])

/-- A comment with its marks. -/
def commentRun (inner : Text) : Text := commentOpening ++ inner ++ commentClosing

end GrammarLexer
