import GrammarLexer.Form

/-!
# Sessions

A session drives cursors over one text step by step. Cursors have names; a step acts on one of them,
copies one to a new name to look ahead, or moves one to where another has got.

* `Operation`, `Operation.run` -- what can be asked of a cursor, and what it answers;
* `Operation.AsksFor` -- the two ways to ask for a form;
* `Step`, `Session.step?`, `Session.run?` -- the steps of a session, one and many.

A cursor that fails in the middle of a lexeme stays where the reading gave up.
-/

namespace GrammarLexer

/-! ## 1. One cursor -/

/-- What can be asked of a cursor. -/
inductive Operation where
  | peek
  | take
  | rest
  | text
  /-- Pass a number of bytes. -/
  | advance (n : Nat)
  | takeWhile (keep : Char → Bool)
  | takeMatch (p : Pattern)
  | upcomingText (s : Text)
  | upcomingClass (cls : Char → Bool)
  | upcomingPattern (p : Pattern)
  | startsHere (form : Form)
  /-- Read a form if it starts here. -/
  | lex (form : Form)
  /-- Read a form, whether it starts here or not. -/
  | read (form : Form)
  /-- Read by the first of some forms that starts here. -/
  | lexFirst (forms : List Form)
  | readQuoted (mark : Char)
  | unknownToken
  | braceMismatch (opened : Position)
  | quoteMismatch (terminator : Char) (opened : Position)
  | commentMismatch (opened : Position)

/-- The two ways to ask for a form: where it starts, and whether it starts here or not. -/
def Operation.AsksFor (form : Form) (op : Operation) : Prop := op = .lex form ∨ op = .read form

/-- What reading comes to at a cursor. -/
inductive Outcome where
  /-- The form does not start here. -/
  | nothing
  /-- A lexeme, the form it was read by, and its position. -/
  | lexed (form : Form) (value : Lexeme) (position : Position)
  | errant (error : LexError)
  deriving DecidableEq, Repr

/-- What a cursor answers. -/
inductive Answer where
  | done
  | character (ch : Option Char)
  | text (s : Option Text)
  | verdict (b : Bool)
  | captures (groups : Option (List (Option Text)))
  | outcome (o : Outcome)
  | quoted (result : Except LexError Text)
  | error (e : LexError)

namespace Cursor

/-- What a reading comes to at the cursor where it began, and where it leaves the cursor. -/
def conclude (c : Cursor) (form : Form) (reading : Except Fault (Taken Lexeme)) :
    Outcome × Cursor :=
  match reading with
  | .ok taken => (.lexed form taken.value c.position, c.skip taken.width)
  | .error fault => (.errant (fault.error c), c.skip fault.stop)

/-- Reads by the first of some forms that starts at the cursor. -/
def lexFirst (c : Cursor) (forms : List Form) : Outcome × Cursor :=
  match Form.lexFirst? forms c.rest with
  | some (form, reading) => c.conclude form reading
  | none => (.nothing, c)

/-- Takes the characters that satisfy `keep`. There is no text if there are none. -/
def takeWhile (c : Cursor) (keep : Char → Bool) : Option Text × Cursor :=
  let taken := c.rest.takeWhile keep
  (if taken = [] then none else some taken, c.skipWhile keep)

/-- Takes what a pattern matches, and gives its captures. -/
def takeMatch (c : Cursor) (p : Pattern) : Option (List (Option Text)) × Cursor :=
  match p.match? c.rest with
  | some m => (some (m.captures c.rest), c.skip m.width)
  | none => (none, c)

/-- Takes a quoted run, and gives it as it was written. -/
def takeQuoted (c : Cursor) (mark : Char) : Except LexError Text × Cursor :=
  match GrammarLexer.readQuoted mark c.rest with
  | .ok inner => (.ok (quotedRun mark inner), c.skip (quotedRun mark inner).length)
  | .error fault => (.error (fault.error c), c.skip fault.stop)

end Cursor

/-- The answer of a cursor, and where the cursor is then. -/
def Operation.run (c : Cursor) : Operation → Answer × Cursor
  | peek => (.character c.peek, c)
  | take => (.character c.peek, c.skip 1)
  | rest => (.text (some c.rest), c)
  | text => (.text (some c.text), c)
  | advance n => (.done, c.advance n)
  | takeWhile keep => ((c.takeWhile keep).map .text id)
  | takeMatch p => ((c.takeMatch p).map .captures id)
  | upcomingText s => (.verdict (s.isPrefixOf c.rest), c)
  | upcomingClass cls => (.verdict (c.peek.any cls), c)
  | upcomingPattern p => (.verdict (p.upcoming c.rest), c)
  | startsHere form => (.verdict (form.startsHere c.rest), c)
  | lex form => (c.lexFirst [form]).map .outcome id
  | read form => (c.conclude form (form.read c.rest)).map .outcome id
  | lexFirst forms => (c.lexFirst forms).map .outcome id
  | readQuoted mark => (c.takeQuoted mark).map .quoted id
  | unknownToken => (.error c.unknownToken, c)
  | braceMismatch opened => (.error (c.braceMismatch opened), c)
  | quoteMismatch terminator opened => (.error (c.quoteMismatch terminator opened), c)
  | commentMismatch opened => (.error (c.commentMismatch opened), c)

/-! ## 2. Several cursors -/

/-- A step of a session. -/
inductive Step where
  /-- Ask something of a cursor. -/
  | ask (name : String) (operation : Operation)
  /-- Copy a cursor to a name. -/
  | fork (name copy : String)
  /-- Move a cursor to where another one is. -/
  | follow (name leader : String)

/-- The named cursors of a session, the latest first. -/
abbrev Session := List (String × Cursor)

namespace Session

/-- A session with one cursor at the start of a text. -/
def start (name : String) (text : Text) (line : Nat) : Session := [(name, Cursor.start text line)]

/-- The cursor of a name. -/
def cursor? (session : Session) (name : String) : Option Cursor := session.lookup name

/-- The session with a cursor under a name, whatever was there before. -/
def put (session : Session) (name : String) (c : Cursor) : Session := (name, c) :: session

/-- One step: the answer, the cursor acted on as it is then, and the session. A step on a name that
no cursor has is refused. -/
def step? (session : Session) : Step → Option ((Answer × Cursor) × Session)
  | .ask name operation =>
    (session.cursor? name).map fun c =>
      let next := operation.run c
      (next, session.put name next.2)
  | .fork name copy =>
    (session.cursor? name).map fun c => ((.done, c), session.put copy c)
  | .follow name leader =>
    (session.cursor? name).bind fun _ =>
      (session.cursor? leader).map fun c => ((.done, c), session.put name c)

/-- All steps in order, with the answer of each and the cursor that gave it. -/
def run? (session : Session) : List Step → Option (List (Answer × Cursor))
  | [] => some []
  | step :: steps =>
    (session.step? step).bind fun (answer, next) => (run? next steps).map (answer :: ·)

end Session

/-! ## 3. Two patterns with and without groups -/

namespace Pattern

/-- A word in small letters, blanks, and a colon. -/
def label : Pattern :=
  seq (many1 fun ch => ch.isLower) (seq (many isBlank) (char ':'))

/-- An optional sign and any number of digits, each a group. It matches the empty text. -/
def signed : Pattern :=
  seq (optional (group (one fun ch => ch == '-' || ch == '+'))) (group (many Char.isDigit))

end Pattern

end GrammarLexer
