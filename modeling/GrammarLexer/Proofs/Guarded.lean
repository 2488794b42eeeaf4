import GrammarLexer.GrammarFile

/-!
# Lexing with guards

Lexing once more, as steps of a cursor that keeps offsets only. Whatever it looks at it cuts out of
the text by byte offsets, and it counts down by subtraction; a cut that is out of range or inside a
character, and a count below zero, break the run off. So does a loop that asks for another step and
has not got on.

* `checkedSub`, `Text.slice?`, `Text.look?` -- what can break off;
* `Text.lineAt?` -- one look after another for the line around a place;
* `ByteCursor` -- a text and three counters;
* `Guarded` -- steps that move such a cursor, and give a value or an error, or break off;
* `Guarded.loop` -- a step again and again, as long as less and less of the text is left;
* `Guarded.takeWhile`, `Guarded.advance`, `Guarded.takeMatch` and others -- the moves;
* `Guarded.read`, `Guarded.scan` -- the forms, and the scan of a text;
* `GrammarFile.report?` -- a whole file.

What a user asks of a comment or a reference later on, the inside of the one and the last byte of
the other, is asked here at once, so that it is guarded as well.
-/

namespace GrammarLexer

/-! ## 1. What can break off -/

/-- The difference of two numbers, if it is not below zero. -/
def checkedSub (a b : Nat) : Option Nat := if b ≤ a then some (a - b) else none

theorem checkedSub_succ (n : Nat) : checkedSub (n + 1) 1 = some n :=
  if_pos (Nat.le_add_left 1 n)

namespace Text

/-- The byte offset of the first occurrence of a character. -/
def find? (ch : Char) (s : Text) : Option Nat := (before? [ch] s).map byteSize

/-- The byte offset of the last occurrence of a character. -/
def rfind? (ch : Char) : Text → Option Nat
  | [] => none
  | first :: rest =>
    match rfind? ch rest with
    | some offset => some (first.utf8Size + offset)
    | none => if first = ch then some 0 else none

/-- What one look for a line comes to: the line, or the offset at which to look again. -/
inductive Look where
  | line (s : Text)
  | again (index : Nat)

/-- One look for the line that holds a byte offset. The line is cut out, without its newline,
between the newlines around the offset. -/
def look? (s : Text) (index : Nat) : Option Look := do
  let index := min index s.byteSize
  let before ← s.slice? 0 index
  let after ← s.slice? index s.byteSize
  let start := ((rfind? '\n' before).map (· + 1)).getD 0
  let stop := ((find? '\n' after).map (index + ·)).getD s.byteSize
  if start = stop ∧ start = s.byteSize ∧ 0 < start then
    -- at the end, right after a newline: look again before it
    (checkedSub start 1).map .again
  else
    (s.slice? start stop).map .line

/-- The line that holds a byte offset: it is looked for, and looked for again as long as a look asks
for it at an earlier offset. -/
def lineAt? (s : Text) (index : Nat) : Option Text :=
  match look? s index with
  | none => none
  | some (.line line) => some line
  | some (.again earlier) => if earlier < min index s.byteSize then lineAt? s earlier else none
termination_by index
decreasing_by omega

end Text

/-- How many bytes a span has. -/
def Span.size? (span : Span) : Option Nat := checkedSub span.stop span.start

/-- The offset of the last byte of a reference. -/
def Reference.last? (r : Reference) : Option Nat := checkedSub r.span.stop 1

/-- What stands between the marks of a comment. -/
def commentInside? (raw : Text) : Option Text := do
  let stop ← checkedSub raw.byteSize 2
  raw.slice? 2 stop

/-- What a match captured under a number. Number zero is all that it took. -/
def capture? (captures : List (Option Text)) (i : Nat) : Option Text := (captures[i]?).join

/-! ## 2. Cursors by bytes -/

/-- A place in a text, by counters alone. -/
structure ByteCursor where
  text : Text
  index : Nat
  line : Nat
  lineStart : Nat
  deriving DecidableEq, Repr

namespace ByteCursor

/-- How many bytes are left. -/
def left (b : ByteCursor) : Nat := b.text.byteSize - b.index

def rest? (b : ByteCursor) : Option Text := b.text.slice? b.index b.text.byteSize

def position? (b : ByteCursor) : Option Position :=
  (b.text.slice? b.lineStart b.index).map fun passed => ⟨b.line, passed.length + 1⟩

def site? (b : ByteCursor) : Option Site := do
  let position ← b.position?
  let snippet ← b.text.lineAt? b.index
  return ⟨position, snippet⟩

/-- Past a character, which is the next one. -/
def bump (b : ByteCursor) (ch : Char) : ByteCursor :=
  let index := b.index + ch.utf8Size
  if ch = '\n' then { b with index, line := b.line + 1, lineStart := index } else { b with index }

def unknownToken? (b : ByteCursor) : Option LexError := do
  let rest ← b.rest?
  let site ← b.site?
  return .unknownToken (if rest.word = [] then endOfInput else rest.word) site

def unreadable? (digits : Text) (b : ByteCursor) : Option LexError :=
  b.site?.map (.unknownToken digits)

def braceMismatch? (opened : Position) (b : ByteCursor) : Option LexError :=
  b.site?.map (.braceMismatch opened)

def quoteMismatch? (terminator : Char) (opened : Position) (b : ByteCursor) : Option LexError :=
  b.site?.map (.quoteMismatch terminator opened)

def commentMismatch? (opened : Position) (b : ByteCursor) : Option LexError :=
  b.site?.map (.commentMismatch opened)

end ByteCursor

/-! ## 3. Moves -/

/-- Steps that move a cursor, and give a value or an error. They break off where there is
nothing. -/
abbrev Guarded (α : Type) := ExceptT LexError (StateT ByteCursor Option) α

namespace Guarded

open ByteCursor (unknownToken? braceMismatch? quoteMismatch? commentMismatch?)

variable {α σ : Type}

/-- Looks at the cursor. -/
def ask (look : ByteCursor → Option α) : Guarded α := fun b => (look b).map fun a => (.ok a, b)

/-- Fails with an error that is made at the cursor. -/
def fail (look : ByteCursor → Option LexError) : Guarded α :=
  fun b => (look b).map fun e => (.error e, b)

/-- Gives the error of some steps as a value. -/
def attempt (m : Guarded α) : Guarded (Except LexError α) :=
  fun b => (m b).map fun (r, b') => (.ok r, b')

/-- What a step of a loop asks for: another step, or the end of the loop. -/
inductive Turn (σ α : Type) where
  | again (s : σ)
  | done (a : α)

/-- Repeats a step as long as it asks for another one. Each time less of the text is left, or the
loop breaks off. -/
def loop (step : σ → Guarded (Turn σ α)) (s : σ) (b : ByteCursor) :
    Option (Except LexError α × ByteCursor) :=
  match step s b with
  | none => none
  | some (.error e, b') => some (.error e, b')
  | some (.ok (.done a), b') => some (.ok a, b')
  | some (.ok (.again s'), b') => if b'.left < b.left then loop step s' b' else none
termination_by b.left

def rest : Guarded Text := ask ByteCursor.rest?

def position : Guarded Position := ask ByteCursor.position?

def peek : Guarded (Option Char) := do return (← rest).head?

def bump (ch : Char) : Guarded Unit := modify (·.bump ch)

def take : Guarded (Option Char) := do
  match ← peek with
  | some ch =>
    bump ch
    return some ch
  | none => return none

def passWhile (keep : Char → Bool) : Guarded Unit :=
  loop (fun _ => do
    match ← peek with
    | some ch =>
      if keep ch then
        bump ch
        return .again ()
      else
        return .done ()
    | none => return .done ()) ()

/-- Takes the characters that satisfy `keep`, and cuts them out of the text. -/
def takeWhile (keep : Char → Bool) : Guarded (Option Text) := do
  let start ← get
  passWhile keep
  let stop ← get
  if start.index < stop.index then
    let taken ← ask fun b => b.text.slice? start.index b.index
    return some taken
  else
    return none

def passTo (stop : Nat) : Guarded Unit :=
  loop (fun _ => do
    let b ← get
    if b.index < stop then
      match ← peek with
      | some ch =>
        bump ch
        return .again ()
      | none => return .done ()
    else
      return .done ()) ()

/-- Passes a number of bytes, as far as there are any. -/
def advance (n : Nat) : Guarded Unit := do
  let b ← get
  passTo (min (b.index + n) b.text.byteSize)

/-- Takes what a pattern matches, and gives its captures. -/
def takeMatch (p : Pattern) : Guarded (Option (List (Option Text))) := do
  let ahead ← rest
  match p.match? ahead with
  | some m =>
    advance (Text.byteSize (ahead.take m.width))
    return some (m.captures ahead)
  | none => return none

/-! ## 4. Delimited runs -/

/-- Takes characters up to a mark and the mark itself, and gives them after `raw`. -/
def takeThrough (mark : Char) : Text → Guarded (Option Text) :=
  loop fun raw => do
    match ← take with
    | some ch =>
      if ch = mark then return .done (some (raw ++ [ch])) else return .again (raw ++ [ch])
    | none => return .done none

/-- Takes a quoted run, and gives it as it was written. -/
def takeQuoted (mark : Char) : Guarded Text := do
  let opened ← position
  match ← take with
  | some ch =>
    if ch = mark then
      match ← takeThrough mark [ch] with
      | some raw => return raw
      | none => fail (quoteMismatch? mark opened)
    else
      fail unknownToken?
  | none => fail unknownToken?

/-- Takes the mark that closes a comment, or else one character more after `raw`. -/
def closingStep (raw : Text) : Guarded (Turn Text (Option Text)) := do
  let b ← get
  if b.index < b.text.byteSize then
    let ahead ← rest
    if commentClosing.isPrefixOf ahead then
      advance 2
      return .done (some (raw ++ commentClosing))
    else
      match ← take with
      | some ch => return .again (raw ++ [ch])
      | none => return .again raw
  else
    return .done none

/-- Takes characters up to the mark that closes a comment and that mark, and gives them after
`raw`. -/
def takeToClosing : Text → Guarded (Option Text) := loop closingStep

/-- Takes a comment, and gives it with its marks. -/
def takeComment : Guarded Text := do
  let opened ← position
  advance 2
  match ← takeToClosing commentOpening with
  | some raw =>
    let _ ← ask fun _ => commentInside? raw
    return raw
  | none => fail (commentMismatch? opened)

/-! ## 5. Action code -/

/-- The number that some digits spell. If it does not fit, the error is found at `start`. -/
def numberOf (start : ByteCursor) (digits : Text) : Guarded Nat :=
  match digits.wordValue? with
  | some n => pure n
  | none => fail fun _ => start.unreadable? digits

/-- The target of a placeholder that begins at `start`, by its digits. -/
def targetOf (start : ByteCursor) (digits : Option Text) : Guarded ReferenceTarget :=
  match digits with
  | some digits => do return .index (← numberOf start digits)
  | none => pure .whole

/-- The reference that a placeholder is at an offset of its code, by what was captured of it. -/
def referenceOf (start : ByteCursor) (offset : Nat) (form : ReferenceForm) (tag : Option Tag)
    (digits : Option Text) (captures : List (Option Text)) : Guarded Reference := do
  let target ← targetOf start digits
  let raw ← ask fun _ => capture? captures 0
  return ⟨form, target, tag, ⟨offset, offset + raw.byteSize⟩⟩

/-- Takes a placeholder, and gives the reference that it is at an offset of its code. -/
def takeReference (offset : Nat) : Guarded Reference := do
  let start ← get
  let position ← position
  match ← takeMatch .valuePlaceholder with
  | some captures =>
    let tag := (capture? captures 1).map fun raw => ⟨raw, position.shifted 1⟩
    referenceOf start offset .value tag (capture? captures 3) captures
  | none =>
    match ← takeMatch .locationPlaceholder with
    | some captures => referenceOf start offset .location none (capture? captures 2) captures
    | none => fail unknownToken?

/-- Does a placeholder start here? -/
def placeholderHere : Guarded Bool := do
  let ahead ← rest
  return Pattern.valuePlaceholder.upcoming ahead || Pattern.locationPlaceholder.upcoming ahead

/-- Takes a placeholder. Gives its text, copied from where it begins, and its reference. -/
def takePlaceholder (offset : Nat) : Guarded (Text × List Reference) := do
  let fork ← get
  let reference ← takeReference offset
  let size ← ask fun _ => reference.span.size?
  let raw ← ask fun _ => fork.rest?.bind (Text.slice? 0 size)
  let _ ← ask fun _ => reference.last?
  return (raw, [reference])

/-- Takes the quoted run, the placeholder or the comment that starts here with `ch`, if one does.
No brace in it counts. Gives its text, and the reference that it is at an offset of its code. -/
def takeOpaque (ch : Char) (offset : Nat) : Guarded (Option (Text × List Reference)) := do
  if ch = '"' ∨ ch = '\'' then
    let raw ← takeQuoted ch
    return some (raw, [])
  else if (ch = '$' ∨ ch = '@') ∧ (← placeholderHere) then
    let taken ← takePlaceholder offset
    return some taken
  else if ch = '/' ∧ commentOpening.isPrefixOf (← rest) then
    let raw ← takeComment
    return some (raw, [])
  else
    return none

/-- What has been taken of a block: its text and its references so far, and how many braces are
open, the block's own among them. -/
structure OpenBlock where
  code : Text
  references : List Reference
  depth : Nat

/-- Takes the next piece of a block that was opened at `opened`. The one that closes the block ends
it. -/
def takePiece (opened : Position) (block : OpenBlock) :
    Guarded (Turn OpenBlock (Text × List Reference)) := do
  match ← peek with
  | none => fail (braceMismatch? opened)
  | some ch =>
    match ← takeOpaque ch block.code.byteSize with
    | some (raw, found) =>
      return .again ⟨block.code ++ raw, block.references ++ found, block.depth⟩
    | none =>
      let _ ← take
      if ch = '{' then
        return .again ⟨block.code ++ [ch], block.references, block.depth + 1⟩
      else if ch = '}' then
        let depth ← ask fun _ => checkedSub block.depth 1
        if depth = 0 then
          return .done (block.code ++ [ch], block.references)
        else
          return .again ⟨block.code ++ [ch], block.references, depth⟩
      else
        return .again ⟨block.code ++ [ch], block.references, block.depth⟩

/-- Takes the rest of a block that was opened at `opened`, and gives its text and its references. -/
def takeBlock (opened : Position) : OpenBlock → Guarded (Text × List Reference) :=
  loop (takePiece opened)

/-! ## 6. Forms -/

/-- Takes a token that is all that a pattern matches. -/
def takeWord (kind : TokenKind) (p : Pattern) : Guarded (Option Token) := do
  let position ← position
  match ← takeMatch p with
  | some captures =>
    let raw ← ask fun _ => capture? captures 0
    return some (.ofText kind raw position)
  | none => fail unknownToken?

def takePunctuator : Guarded (Option Token) := do
  let position ← position
  match ← take with
  | some ch =>
    if ch = ';' then return some (.ofText .semicolon [';'] position)
    else if ch = '|' then return some (.ofText .bar ['|'] position)
    else fail unknownToken?
  | none => fail unknownToken?

def takeNumber : Guarded (Option Token) := do
  let position ← position
  let start ← get
  let digits ← takeWhile Char.isDigit
  let n ← numberOf start (digits.getD [])
  return some ⟨.number, .number n, position, []⟩

/-- Takes a name, and the colon after it. The blanks between are given back if there is none. -/
def takeIdentifier : Guarded (Option Token) := do
  let position ← position
  match ← takeMatch .name with
  | some captures =>
    let name ← ask fun _ => capture? captures 0
    let fork ← get
    let _ ← takeWhile isBlank
    if (← peek) = some ':' then
      let _ ← take
      return some (.ofText .identColon name position)
    else
      set fork
      return some (.ofText .ident name position)
  | none => fail unknownToken?

def takePercentWord : Guarded (Option Token) := do
  let start ← get
  let position ← position
  match ← takeMatch .percentWord with
  | some captures =>
    let word ← ask fun _ => capture? captures 0
    if word = emptyWord then return none
    else
      match Directive.ofKeyword? word with
      | some d => return some (.ofText (.directive d) d.keyword position)
      | none =>
        if extendsKeyword word then return some (.ofText .ident word position)
        else fail fun _ => start.unknownToken?
  | none => fail unknownToken?

def takeCode : Guarded (Option Token) := do
  let position ← position
  match ← take with
  | some ch =>
    if ch = '{' then
      let (code, references) ← takeBlock position ⟨['{'], [], 1⟩
      return some ⟨.userCode, .text code, position, references⟩
    else
      fail unknownToken?
  | none => fail unknownToken?

/-- Takes a form, and gives its token if it leaves one. -/
def read : Form → Guarded (Option Token)
  | .punctuator => takePunctuator
  | .number => takeNumber
  | .tag => takeWord .tag .tag
  | .identifier => takeIdentifier
  | .percentWord => takePercentWord
  | .userCode => takeCode
  | .stringLiteral => do
    let position ← position
    let raw ← takeQuoted '"'
    return some (.ofText .string raw position)
  | .comment => do
    let _ ← takeComment
    return none
  | .charLiteral => takeWord .char .character

/-- Takes the first of some forms that starts here, if there is one. -/
def readFirst : List Form → Guarded (Option (Option Token))
  | [] => pure none
  | form :: forms => do
    let ahead ← rest
    if form.startsHere ahead then
      let token ← read form
      return some token
    else
      readFirst forms

/-! ## 7. Texts and files -/

/-- Takes blanks, or else what starts here. Gives the token that it leaves, if it leaves one. -/
def round : Guarded (Option Token) := do
  match ← takeWhile isBlank with
  | some _ => return none
  | none =>
    match ← readFirst Form.all with
    | some token => return token
    | none => fail unknownToken?

/-- One round of a scan, after the tokens so far. The end of the text and an error end the scan. -/
def scanStep (done : List Token) : Guarded (Turn (List Token) Scan) := do
  let b ← get
  if b.index < b.text.byteSize then
    match ← attempt round with
    | .ok token => return .again (done ++ token.toList)
    | .error e => return .done ⟨done, some e⟩
  else
    return .done ⟨done, none⟩

/-- Scans what is left of the text, after the tokens so far. -/
def scan : List Token → Guarded Scan := loop scanStep

end Guarded

/-- Scans the lines of a section. -/
def scanLines? : List Line → Option Scan
  | [] => some ⟨[], none⟩
  | first :: more =>
    match Guarded.scan [] ⟨(first :: more).flatMap Line.text, 0, first.number, 0⟩ with
    | some (.ok scan, _) => some scan
    | _ => none

/-- One run after another. The second one runs only if the first succeeded. -/
def Report.andThen? {α β : Type} (first : Report α) (second : α → Option (Report β)) :
    Option (Report β) :=
  match first.result with
  | .error e => some ⟨first.log, .error e⟩
  | .ok a => (second a).map fun next => ⟨first.log ++ next.log, next.result⟩

def reportScan? (debug : Bool) (lines : List Line) : Option (Report (List Token)) :=
  (scanLines? lines).map fun scan => ⟨if debug then scan.tokens.map .lexed else [], scan.result⟩

/-- Lexes a file and keeps a log. With `debug` the log shows each token. -/
def GrammarFile.report? (debug : Bool) (text : Text) : Option (Report GrammarFile) := do
  let run ← (Report.within .split (reportLayout text)).andThen? fun layout => do
    let declarations ← reportScan? debug layout.sections.declarations
    (declarations.within .declarations).andThen? fun declarationTokens => do
      let rules ← reportScan? debug layout.sections.rules
      (rules.within .rules).andThen? fun ruleTokens =>
        some (.pure ⟨layout.sections, declarationTokens, ruleTokens⟩)
  return run.within .lex

end GrammarLexer
