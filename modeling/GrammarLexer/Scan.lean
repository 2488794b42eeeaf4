import GrammarLexer.Decomposition

/-!
# Scanning

Scanning gives the tokens of a text that begins on some line of a file, up to the end or to the
first error. The tokens before an error are kept, since a report of the run shows them.

* `Scan`, `Scan.result` -- what scanning gives, and the verdict alone;
* `scanText` -- the scan of a text;
* `scanLines` -- the scan of the lines of a section, joined; the first one's number counts.
-/

namespace GrammarLexer

/-- What scanning a text gives: tokens, and the error after them if there is one. -/
structure Scan where
  tokens : List Token
  error : Option LexError
  deriving DecidableEq, Repr

/-- All tokens, or the error. -/
def Scan.result (scan : Scan) : Except LexError (List Token) :=
  match scan.error with
  | some e => .error e
  | none => .ok scan.tokens

/-- The scan of a text whose first character is on line `line`. -/
def scanText (text : Text) (line : Nat) : Scan :=
  let start := Cursor.start text line
  let parts := decompose text
  { tokens := parts.tokens start.position
    error := parts.fault.map fun fault => fault.error (start.skip parts.text.length) }

/-- The scan of the lines of a section, joined. No lines, no tokens. -/
def scanLines : List Line → Scan
  | [] => ⟨[], none⟩
  | first :: more => scanText ((first :: more).flatMap Line.text) first.number

end GrammarLexer
