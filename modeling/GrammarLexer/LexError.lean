import GrammarLexer.Cursor
import GrammarLexer.Section
import GrammarLexer.Text.Blank

/-!
# Errors of lexing

Lexing stops at the first error. All but one name the site at which the input was found wrong; those
about an opening that is never closed also name the position of the opening.

* `LexError` -- the causes;
* `LexError.message` -- the words for them;
* `Cursor.unknownToken`, `Cursor.braceMismatch`, `Cursor.quoteMismatch`, `Cursor.commentMismatch` --
  the errors as they arise at a cursor;
* `Stage.advance` -- the one step that can fail without an input.
-/

namespace GrammarLexer

/-- What went wrong. -/
inductive LexError where
  /-- Nothing in the lexical grammar reads `found`. -/
  | unknownToken (found : Text) (site : Site)
  /-- The outermost brace of some action code is never closed. -/
  | braceMismatch (opened : Position) (site : Site)
  /-- A quoted run is never closed. -/
  | quoteMismatch (terminator : Char) (opened : Position) (site : Site)
  /-- A comment is never closed. -/
  | commentMismatch (opened : Position) (site : Site)
  /-- A stage was to be left that no stage follows. -/
  | unreachableStage (stage : Stage)
  deriving DecidableEq, Repr

namespace LexError

/-- Where the error was found, if it came from the input. -/
def site? : LexError → Option Site
  | unknownToken _ site | braceMismatch _ site | quoteMismatch _ _ site | commentMismatch _ site =>
    some site
  | unreachableStage _ => none

/-- Where the run that is never closed was opened, if the error is about one. -/
def opened? : LexError → Option Position
  | braceMismatch opened _ | quoteMismatch _ opened _ | commentMismatch opened _ => some opened
  | unknownToken _ _ | unreachableStage _ => none

/-- The end of a message about the input: the position, and the line itself, each on a line of its
own. -/
def siteLines (site : Site) : Text :=
  "\n\tat ".toList ++ site.position.display ++ "\n\t".toList ++ site.snippet

/-- A message about an opening that is never closed. -/
def mismatchMessage (what mark : Text) (opened : Position) (site : Site) : Text :=
  "Parse error (".toList ++ what ++ " mismatch): `".toList ++ mark ++ "` opened at ".toList ++
    opened.display ++ siteLines site

/-- The words for an error. -/
def message : LexError → Text
  | unknownToken found site =>
    "Parse error (unknown token): `".toList ++ found ++ "`".toList ++ siteLines site
  | braceMismatch opened site => mismatchMessage "brace".toList ['{'] opened site
  | quoteMismatch terminator opened site =>
    mismatchMessage "quote".toList [terminator] opened site
  | commentMismatch opened site => mismatchMessage "comment".toList "/*".toList opened site
  | unreachableStage stage =>
    "Unknown state: the section splitter cannot leave `".toList ++ stage.name ++ "`".toList

end LexError

/-! ## Where errors arise -/

/-- What an unknown token is called when there is no word to show. -/
def endOfInput : Text := "<end of input>".toList

namespace Cursor

/-- Nothing can be read at this cursor. The word found is what stands before the next blank. -/
def unknownToken (c : Cursor) : LexError :=
  .unknownToken (if c.rest.word = [] then endOfInput else c.rest.word) c.site

/-- The input ended inside action code. -/
def braceMismatch (c : Cursor) (opened : Position) : LexError := .braceMismatch opened c.site

/-- The input ended inside a quoted run. -/
def quoteMismatch (c : Cursor) (terminator : Char) (opened : Position) : LexError :=
  .quoteMismatch terminator opened c.site

/-- The input ended inside a comment. -/
def commentMismatch (c : Cursor) (opened : Position) : LexError := .commentMismatch opened c.site

end Cursor

/-- The stage after this one. There is none after the last. -/
def Stage.advance (stage : Stage) : Except LexError Stage :=
  match stage.next? with
  | some next => .ok next
  | none => .error (.unreachableStage stage)

end GrammarLexer
