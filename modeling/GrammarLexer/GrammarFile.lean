import GrammarLexer.Report
import GrammarLexer.Scan

/-!
# Grammar files

Lexing a grammar file deals its lines into sections and scans the declarations and then the rules.
It gives all of that or the first error.

* `GrammarFile` -- a file that was lexed;
* `GrammarFile.report` -- lexing with a log, in which each token may be shown;
* `GrammarFile.lex` -- lexing alone;
* `GrammarFile.sectionText` -- the lines of a section, joined.
-/

namespace GrammarLexer

/-- A lexed grammar file. -/
structure GrammarFile where
  sections : Sections
  declarationTokens : List Token
  ruleTokens : List Token
  deriving DecidableEq, Repr

/-- Deals a file into sections and reports the outcome. -/
def reportLayout (text : Text) : Report Layout :=
  match layOut text with
  | .ok layout => ⟨[.ofLayout layout], .ok layout⟩
  | .error e => ⟨[], .error e⟩

/-- Scans the lines of a section. With `debug` each token is reported, also those before an
error. -/
def reportScan (debug : Bool) (lines : List Line) : Report (List Token) :=
  let scan := scanLines lines
  ⟨if debug then scan.tokens.map .lexed else [], scan.result⟩

namespace GrammarFile

/-- Lexes a file and keeps a log. With `debug` the log shows each token. -/
def report (debug : Bool) (text : Text) : Report GrammarFile :=
  .within .lex <|
    (Report.within .split (reportLayout text)).andThen fun layout =>
    (Report.within .declarations (reportScan debug layout.sections.declarations)).andThen
      fun declarationTokens =>
    (Report.within .rules (reportScan debug layout.sections.rules)).andThen fun ruleTokens =>
    .pure ⟨layout.sections, declarationTokens, ruleTokens⟩

/-- Lexes a file. -/
def lex (text : Text) : Except LexError GrammarFile := (report false text).result

/-- The text of a section: its lines, joined. -/
def sectionText (file : GrammarFile) (which : Section) : Text :=
  (file.sections.get which).flatMap Line.text

/-- Do two files, or two errors, agree in everything? -/
def agree : Except LexError GrammarFile → Except LexError GrammarFile → Bool
  | .ok f, .ok g => f == g
  | .error e, .error e' => e == e'
  | _, _ => false

/-- Do two files have the same tokens? -/
def sameTokens (f g : GrammarFile) : Bool :=
  f.declarationTokens == g.declarationTokens && f.ruleTokens == g.ruleTokens

end GrammarFile

end GrammarLexer
