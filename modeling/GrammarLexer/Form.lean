import GrammarLexer.Lexeme

/-!
# Lexical forms

The nine forms that a lexeme can have. A form first tells whether it starts at a text and then reads
it; reading may also be asked for where the form does not start, and fails there.

* `Form`, `Form.all` -- the forms, in the order in which they are tried;
* `Form.startsHere`, `Form.read` -- the look ahead, and the reading;
* `Form.lex?`, `Form.lexFirst?` -- reading only what starts here, by one form or by the first of
  several.

Whatever is read takes at least one character (`width_pos`).
-/

namespace GrammarLexer

/-! ## 1. Names and characters -/

/-- The characters that a name begins with. -/
def isNameStart (ch : Char) : Bool := ch.isAlpha || ch == '_' || ch == '.'

/-- The characters that a name goes on with. -/
def isNameChar (ch : Char) : Bool := isNameStart ch || ch.isDigit || ch == '-'

/-- Any character but a newline. -/
def notNewline (ch : Char) : Bool := ch != '\n'

namespace Pattern

/-- A name. -/
def name : Pattern := seq (one isNameStart) (many isNameChar)

/-- A name after a percent sign. -/
def percentWord : Pattern := seq (char '%') name

/-- What may stand in a character literal. The escapes come first: an escaped quote does not close
the literal, while a lone backslash is a character like any other. -/
def characterBody : Pattern :=
  alt (seq (char '\\') (many1 Char.isDigit))
    (alt (seq (char '\\') (one notNewline)) (one notNewline))

/-- A character literal. -/
def character : Pattern := seq (char '\'') (seq characterBody (char '\''))

end Pattern

/-! ## 2. The forms -/

/-- A form that a lexeme can have. -/
inductive Form where
  | punctuator
  | number
  | tag
  | identifier
  | percentWord
  | userCode
  | stringLiteral
  | comment
  | charLiteral
  deriving DecidableEq, Repr

/-- Reads what a pattern matches. -/
def readPattern (p : Pattern) (s : Text) : Except Fault (Taken Text) :=
  match p.match? s with
  | some m => .ok ⟨s.take m.width, m.width⟩
  | none => .error (.unknownAt 0)

/-- Reads a semicolon or a bar. Another character is passed, and the fault is found after it. -/
def readPunctuator : Text → Except Fault (Taken Lexeme)
  | [] => .error (.unknownAt 0)
  | ch :: _ =>
    if ch = ';' then .ok ⟨.semicolon, 1⟩
    else if ch = '|' then .ok ⟨.bar, 1⟩
    else .error (.unknownAt 1)

/-- Reads a run of digits as a number. -/
def readNumber (s : Text) : Except Fault (Taken Lexeme) :=
  let digits := s.takeWhile Char.isDigit
  match Text.wordValue? digits with
  | some n => .ok ⟨.number n, digits.length⟩
  | none => .error ⟨.unreadable digits, 0, digits.length⟩

/-- Reads a name, and the colon after it if nothing but blanks comes between. Without a colon the
blanks are left. -/
def readIdentifier (s : Text) : Except Fault (Taken Lexeme) :=
  (readPattern .name s).map fun name =>
    let after := s.drop name.width
    let blanks := after.takeWhile isBlank
    if (after.drop blanks.length).head? = some ':' then
      ⟨.identifier name.value true, name.width + blanks.length + 1⟩
    else
      ⟨.identifier name.value false, name.width⟩

/-- Reads a word after a percent sign. The word is read to its end before it is looked up. An
unlisted word has been passed by the time it is found to be one, but the fault is at its start. -/
def readPercentWord (s : Text) : Except Fault (Taken Lexeme) :=
  match readPattern .percentWord s with
  | .error fault => .error fault
  | .ok word =>
    if word.value = emptyWord then .ok ⟨.emptyRule, word.width⟩
    else
      match Directive.ofKeyword? word.value with
      | some d => .ok ⟨.directive d, word.width⟩
      | none =>
        if extendsKeyword word.value then .ok ⟨.extended word.value, word.width⟩
        else .error ⟨.unknown, 0, word.width⟩

namespace Form

/-- Every form, in the order in which they are tried. -/
def all : List Form :=
  [punctuator, number, tag, identifier, percentWord, userCode, stringLiteral, comment, charLiteral]

/-- Does this form start at the text? -/
def startsHere : Form → Text → Bool
  | punctuator, s => s.head? == some ';' || s.head? == some '|'
  | number, s => s.head?.any Char.isDigit
  | tag, s => Pattern.tag.upcoming s
  | identifier, s => Pattern.name.upcoming s
  | percentWord, s => Pattern.percentWord.upcoming s
  | userCode, s => s.head? == some '{'
  | stringLiteral, s => s.head? == some '"'
  | comment, s => commentOpening.isPrefixOf s
  | charLiteral, s => Pattern.character.upcoming s

/-- Reads this form at the start of a text, whether it starts there or not. -/
def read : Form → Text → Except Fault (Taken Lexeme)
  | punctuator, s => readPunctuator s
  | number, s => readNumber s
  | tag, s => (readPattern .tag s).map fun raw => ⟨.tag raw.value, raw.width⟩
  | identifier, s => readIdentifier s
  | percentWord, s => readPercentWord s
  | userCode, s => (Code.read s).map fun code => ⟨.code code, code.text.length⟩
  | stringLiteral, s => (readQuoted '"' s).map fun inner => ⟨.string inner, inner.length + 2⟩
  | comment, s => (readComment s).map fun inner => ⟨.comment inner.value, inner.width⟩
  | charLiteral, s =>
    (readPattern .character s).map fun raw => ⟨.character raw.value, raw.width⟩

/-- Reads this form if it starts at the text. -/
def lex? (form : Form) (s : Text) : Option (Except Fault (Taken Lexeme)) :=
  if form.startsHere s then some (form.read s) else none

/-- Reads by the first of some forms that starts at the text, and tells which it was. -/
def lexFirst? (forms : List Form) (s : Text) : Option (Form × Except Fault (Taken Lexeme)) :=
  forms.findSome? fun form => (form.lex? s).map fun reading => (form, reading)

/-! ## 3. Every reading takes something -/

theorem width_pos_of_readPattern {p : Pattern} {s : Text} {taken : Taken Text}
    (hp : 0 < p.leastWidth) (h : readPattern p s = .ok taken) : 0 < taken.width := by
  simp only [readPattern] at h
  split at h
  case h_1 m hm =>
    simp only [Except.ok.injEq] at h
    subst h
    exact Nat.lt_of_lt_of_le hp (Pattern.leastWidth_le_width (Pattern.mem_ways_of_match? hm))
  case h_2 => simp at h

theorem width_pos_of_readPunctuator {s : Text} {taken : Taken Lexeme}
    (h : readPunctuator s = .ok taken) : 0 < taken.width := by
  cases s with
  | nil => simp [readPunctuator] at h
  | cons ch rest =>
    simp only [readPunctuator] at h
    split at h
    · simp only [Except.ok.injEq] at h
      simp [← h]
    · split at h
      · simp only [Except.ok.injEq] at h
        simp [← h]
      · simp at h

theorem width_pos_of_readNumber {s : Text} {taken : Taken Lexeme}
    (h : readNumber s = .ok taken) : 0 < taken.width := by
  simp only [readNumber] at h
  split at h
  case h_1 n hn =>
    simp only [Except.ok.injEq] at h
    subst h
    -- no digit, no number
    refine List.length_pos_iff.2 fun hnil => ?_
    simp [hnil, Text.wordValue?] at hn
  case h_2 => simp at h

theorem width_pos_of_readPercentWord {s : Text} {taken : Taken Lexeme}
    (h : readPercentWord s = .ok taken) : 0 < taken.width := by
  simp only [readPercentWord] at h
  split at h
  case h_1 => simp at h
  case h_2 word hword =>
    have hpos := width_pos_of_readPattern (by decide) hword
    split at h
    · simp only [Except.ok.injEq] at h
      simpa [← h] using hpos
    · split at h
      · simp only [Except.ok.injEq] at h
        simpa [← h] using hpos
      · split at h
        · simp only [Except.ok.injEq] at h
          simpa [← h] using hpos
        · simp at h

theorem width_pos_of_readIdentifier {s : Text} {taken : Taken Lexeme}
    (h : readIdentifier s = .ok taken) : 0 < taken.width := by
  obtain ⟨name, hname, rfl⟩ := exists_of_map_eq_ok h
  have hpos := width_pos_of_readPattern (by decide) hname
  dsimp only
  split
  · dsimp only
    omega
  · exact hpos

theorem text_ne_nil_of_readCode {s : Text} {code : Code} (h : Code.read s = .ok code) :
    code.text ≠ [] := by
  cases s with
  | nil => simp [Code.read] at h
  | cons ch rest =>
    simp only [Code.read] at h
    split at h
    · obtain ⟨more, -, rfl⟩ := exists_of_map_eq_ok h
      simp [Code.text, Piece.text]
    · simp at h

theorem width_pos_of_readComment {s : Text} {taken : Taken Text}
    (h : readComment s = .ok taken) : 0 < taken.width := by
  simp only [readComment] at h
  split at h
  · simp only [Except.ok.injEq] at h
    subst h
    dsimp only
    omega
  · simp at h

/-- **Whatever is read takes at least one character.** -/
theorem width_pos {form : Form} {s : Text} {taken : Taken Lexeme}
    (h : form.read s = .ok taken) : 0 < taken.width := by
  cases form with
  | punctuator => exact width_pos_of_readPunctuator h
  | number => exact width_pos_of_readNumber h
  | tag =>
    obtain ⟨raw, hraw, rfl⟩ := exists_of_map_eq_ok h
    exact width_pos_of_readPattern (by decide) hraw
  | identifier => exact width_pos_of_readIdentifier h
  | percentWord => exact width_pos_of_readPercentWord h
  | userCode =>
    obtain ⟨code, hcode, rfl⟩ := exists_of_map_eq_ok h
    exact List.length_pos_iff.2 (text_ne_nil_of_readCode hcode)
  | stringLiteral =>
    obtain ⟨inner, -, rfl⟩ := exists_of_map_eq_ok h
    exact Nat.succ_pos _
  | comment =>
    obtain ⟨inner, hinner, rfl⟩ := exists_of_map_eq_ok h
    exact width_pos_of_readComment hinner
  | charLiteral =>
    obtain ⟨raw, hraw, rfl⟩ := exists_of_map_eq_ok h
    exact width_pos_of_readPattern (by decide) hraw

theorem width_pos_of_lexFirst? {forms : List Form} {s : Text} {form : Form} {taken : Taken Lexeme}
    (h : lexFirst? forms s = some (form, .ok taken)) : 0 < taken.width := by
  obtain ⟨f, -, hf⟩ := List.exists_of_findSome?_eq_some h
  obtain ⟨reading, hreading, he⟩ := Option.map_eq_some_iff.1 hf
  simp only [Prod.mk.injEq] at he
  obtain ⟨rfl, rfl⟩ := he
  simp only [lex?] at hreading
  split at hreading
  · exact width_pos (Option.some.inj hreading)
  · simp at hreading

end Form

end GrammarLexer
