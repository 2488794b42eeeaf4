import GrammarLexer.Position
import GrammarLexer.Text.Line

/-!
# Cursors

A cursor stands between two characters of a text. It keeps what is left of the text, its own byte
offset, the number of its line and the byte offset at which that line starts; the three counters
move with every character passed and are never computed anew.

* `Cursor.start` -- before the first character, on a given line;
* `Cursor.bump`, `Cursor.skip` -- past one character, and past a number of them;
* `Cursor.advance`, `Cursor.skipWhile` -- past a number of bytes, and past a run of characters;
* `Cursor.position`, `Cursor.snippet`, `Cursor.site` -- line and column, the text of the line, and
  both together as an error shows them.

Every move of a cursor is a `skip`, and skips add up (`skip_add`): so a cursor is told by how many
characters it has passed, whatever the moves were.
-/

namespace GrammarLexer

/-- A place in a text as an error shows it: line and column, and the line itself. -/
structure Site where
  position : Position
  snippet : Text
  deriving DecidableEq, Repr

/-- A place between two characters of a text. -/
structure Cursor where
  /-- The whole text. -/
  text : Text
  /-- What has not been passed yet. -/
  rest : Text
  /-- The byte offset of the next character. -/
  index : Nat
  /-- The number of the line that the next character is on. -/
  line : Nat
  /-- The byte offset at which that line starts. -/
  lineStart : Nat
  deriving DecidableEq, Repr

namespace Cursor

/-! ## 1. Moving -/

/-- Before the first character of `text`, which is on line `line`. -/
def start (text : Text) (line : Nat) : Cursor := ⟨text, text, 0, line, 0⟩

/-- Past one character. A cursor at the end stays. -/
def bump (c : Cursor) : Cursor :=
  match c.rest with
  | [] => c
  | ch :: rest =>
    let index := c.index + ch.utf8Size
    if ch = '\n' then { c with rest, index, line := c.line + 1, lineStart := index }
    else { c with rest, index }

/-- Past `n` characters, or to the end if there are fewer. -/
def skip (c : Cursor) : Nat → Cursor
  | 0 => c
  | n + 1 => c.bump.skip n

/-- Past the leading characters that satisfy `keep`. -/
def skipWhile (c : Cursor) (keep : Char → Bool) : Cursor := c.skip (c.rest.takeWhile keep).length

/-- Past at least `n` bytes: to the first character boundary there, or to the end. -/
def advance (c : Cursor) (n : Nat) : Cursor := c.skip (c.rest.covering n)

@[simp] theorem skip_zero (c : Cursor) : c.skip 0 = c := rfl

/-- **Skips add up.** -/
theorem skip_add (c : Cursor) (m n : Nat) : c.skip (m + n) = (c.skip m).skip n := by
  induction m generalizing c with
  | zero => simp
  | succ m ih => simp only [Nat.succ_add, skip, ih]

@[simp] theorem text_bump (c : Cursor) : c.bump.text = c.text := by
  unfold bump
  split
  · rfl
  · dsimp only
    split <;> rfl

@[simp] theorem rest_bump (c : Cursor) : c.bump.rest = c.rest.drop 1 := by
  unfold bump
  split
  case h_1 h => simp [h]
  case h_2 h =>
    dsimp only
    split <;> simp [h]

@[simp] theorem text_skip (c : Cursor) (n : Nat) : (c.skip n).text = c.text := by
  induction n generalizing c with
  | zero => rfl
  | succ n ih => simp only [skip, ih, text_bump]

@[simp] theorem rest_skip (c : Cursor) (n : Nat) : (c.skip n).rest = c.rest.drop n := by
  induction n generalizing c with
  | zero => rfl
  | succ n ih => simp only [skip, ih, rest_bump, List.drop_drop, Nat.add_comm]

/-! ## 2. Looking -/

/-- The next character, if there is one. -/
def peek (c : Cursor) : Option Char := c.rest.head?

/-- Has everything been passed? -/
def atEnd (c : Cursor) : Bool := c.rest.isEmpty

/-- What has been passed of the line that the cursor is on. The slice exists for every cursor that
moves reach, since both counters are then character boundaries in order. -/
def passedOfLine (c : Cursor) : Text := (c.text.slice? c.lineStart c.index).getD []

/-- Line and column of the next character. -/
def position (c : Cursor) : Position := ⟨c.line, c.passedOfLine.length + 1⟩

/-- The line that the cursor is on, without its newline. -/
def snippet (c : Cursor) : Text := (c.text.snippetAt? c.index).getD []

/-- Where the cursor stands, as an error shows it. -/
def site (c : Cursor) : Site := ⟨c.position, c.snippet⟩

end Cursor

end GrammarLexer
