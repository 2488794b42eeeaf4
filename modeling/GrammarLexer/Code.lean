import GrammarLexer.Delimited
import GrammarLexer.Pattern
import GrammarLexer.Token

/-!
# Action code

Action code stands between braces. It is read piece by piece, up to the brace that closes the first
one: quoted runs and comments are pieces of their own, so that nothing in them counts, and so are
the placeholders.

* `Placeholder`, `Placeholder.lex?` -- `$$`, `$1`, `$<tag>2`, `@$`, `@1`;
* `Piece`, `Piece.read` -- the pieces of action code, and the one at the start of a text;
* `Code`, `Code.read` -- a whole block as the list of its pieces;
* `Code.text`, `Code.references` -- the text that the pieces make up, and the references among them,
  with their byte spans in that text.

Every piece takes at least one character (`Piece.text_ne_nil`), which is why reading pieces comes to
an end.
-/

namespace GrammarLexer

/-! ## 1. Placeholders -/

/-- The characters of a type tag between its brackets. -/
def isTagChar (ch : Char) : Bool := ch.isAlphanum || ch == '_'

namespace Pattern

/-- A type tag with its brackets. -/
def tag : Pattern := seq (char '<') (seq (many1 isTagChar) (char '>'))

/-- What follows the sigil of a placeholder: a dollar sign or a number, each a group. -/
def target : Pattern := alt (group (char '$')) (group (many1 Char.isDigit))

/-- A placeholder for a value. Its groups are the tag, the second dollar sign and the number. -/
def valuePlaceholder : Pattern := seq (char '$') (seq (optional (group tag)) target)

/-- A placeholder for a location. Its groups are the dollar sign and the number. -/
def locationPlaceholder : Pattern := seq (char '@') target

end Pattern

/-- A placeholder as it was written. -/
structure Placeholder where
  form : ReferenceForm
  /-- The type tag, brackets included. -/
  tag : Option Text
  /-- The digits of the number. A placeholder without a number ends in a dollar sign. -/
  digits : Option Text
  deriving DecidableEq, Repr

namespace Placeholder

/-- The text of a placeholder. -/
def text (p : Placeholder) : Text := p.form.sigil :: (p.tag.getD [] ++ p.digits.getD ['$'])

/-- The symbol that a placeholder speaks of. -/
def target (p : Placeholder) : ReferenceTarget :=
  match p.digits with
  | some digits => .index digits.decimal
  | none => .whole

/-- A placeholder is refused if its number does not fit into 64 bits. It has been passed by then,
but the fault is its own. -/
def checked (p : Placeholder) : Except Fault Placeholder :=
  match p.digits with
  | some digits =>
    if digits.wordValue?.isSome then .ok p else .error ⟨.unreadable digits, 0, p.text.length⟩
  | none => .ok p

/-- Reads the placeholder at the start of a text, if one is there. -/
def lex? (s : Text) : Option (Except Fault Placeholder) :=
  match Pattern.valuePlaceholder.match? s with
  | some m => some (checked ⟨.value, m.group? 0, m.group? 2⟩)
  | none =>
    match Pattern.locationPlaceholder.match? s with
    | some m => some (checked ⟨.location, none, m.group? 1⟩)
    | none => none

/-- The reference that a placeholder is, at an offset of its code. The tag follows the sigil. -/
def reference (p : Placeholder) (position : Position) (offset : Nat) : Reference where
  form := p.form
  target := p.target
  tag := p.tag.map fun raw => ⟨raw, position.shifted 1⟩
  span := ⟨offset, offset + p.text.byteSize⟩

end Placeholder

/-! ## 2. Pieces -/

/-- A piece of action code. -/
inductive Piece where
  | opening
  | closing
  | quoted (mark : Char) (inner : Text)
  | comment (inner : Text)
  | placeholder (p : Placeholder)
  | plain (ch : Char)
  deriving DecidableEq, Repr

namespace Piece

/-- The text of a piece. -/
def text : Piece → Text
  | opening => ['{']
  | closing => ['}']
  | quoted mark inner => quotedRun mark inner
  | comment inner => commentRun inner
  | placeholder p => p.text
  | plain ch => [ch]

theorem text_ne_nil (piece : Piece) : piece.text ≠ [] := by
  cases piece <;> simp [text, quotedRun, commentRun, commentOpening, Placeholder.text]

/-- Reads the piece at the start of a text that begins with `ch`. -/
def read (ch : Char) (rest : Text) : Except Fault Piece :=
  if ch = '"' ∨ ch = '\'' then
    (readQuoted ch (ch :: rest)).map (quoted ch)
  else
    match Placeholder.lex? (ch :: rest) with
    | some reading => reading.map placeholder
    | none =>
      if commentOpening.isPrefixOf (ch :: rest) then
        (readComment (ch :: rest)).map fun taken => comment taken.value
      else if ch = '{' then .ok opening
      else if ch = '}' then .ok closing
      else .ok (plain ch)

/-- How many inner blocks are open after a piece, if `depth` are open before it; none when the piece
closes the block itself. -/
def depthAfter? : Piece → Nat → Option Nat
  | opening, depth => some (depth + 1)
  | closing, 0 => none
  | closing, depth + 1 => some depth
  | _, depth => some depth

/-- The reference that a piece is, if it is a placeholder. -/
def reference? (position : Position) (offset : Nat) : Piece → Option Reference
  | placeholder p => some (p.reference position offset)
  | _ => none

end Piece

/-! ## 3. Blocks -/

/-- A block of action code, as the pieces it is made of. -/
abbrev Code := List Piece

namespace Code

/-- Reads the pieces of a block after its opening brace, the closing brace included. `passed`
characters of the block come before the text, and `depth` inner blocks are open. -/
def readFrom (passed depth : Nat) : Text → Except Fault Code
  | [] => .error ⟨.openBrace 0, passed, passed⟩
  | ch :: rest =>
    match Piece.read ch rest with
    | .error fault => .error (fault.shift passed)
    | .ok piece =>
      match piece.depthAfter? depth with
      | none => .ok [piece]
      | some depth =>
        (readFrom (passed + piece.text.length) depth
          ((ch :: rest).drop piece.text.length)).map (piece :: ·)
termination_by s => s.length
decreasing_by
  have := List.length_pos_iff.2 piece.text_ne_nil
  simp only [List.length_drop, List.length_cons]
  omega

/-- Reads a whole block, braces included. If another character stands first, it is passed, and the
fault is found after it. -/
def read : Text → Except Fault Code
  | [] => .error (.unknownAt 0)
  | ch :: rest =>
    if ch = '{' then (readFrom 1 0 rest).map (.opening :: ·) else .error (.unknownAt 1)

/-- The text of a block. -/
def text (code : Code) : Text := code.flatMap Piece.text

/-- The references among pieces, the first of which stands at `position` and at byte `offset` of the
code. -/
def referencesFrom (position : Position) (offset : Nat) : List Piece → List Reference
  | [] => []
  | piece :: more =>
    (piece.reference? position offset).toList ++
      referencesFrom (position.after piece.text) (offset + piece.text.byteSize) more

/-- The references in a block that begins at `position`. -/
def references (position : Position) (code : Code) : List Reference :=
  referencesFrom position 0 code

end Code

end GrammarLexer
