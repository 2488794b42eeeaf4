import GrammarLexer.Form

/-!
# Decomposing a text

A text is decomposed into items from left to right: single blanks, and the lexemes between them. The
decomposition stops where no form starts, or where the form that starts there cannot be read.

* `Item` -- a blank, or a lexeme with the text that it was read from;
* `decompose` -- the items of a text, and the fault after them if there is one;
* `Decomposition.text`, `Decomposition.tokens` -- the text that was read, and its tokens when it
  begins at a position.
-/

namespace GrammarLexer

/-- A stretch of a text, read. -/
inductive Item where
  | blank (ch : Char)
  | lexeme (value : Lexeme) (text : Text)
  deriving DecidableEq, Repr

namespace Item

/-- The text that an item was read from. -/
def text : Item → Text
  | blank ch => [ch]
  | lexeme _ text => text

/-- The token that an item gives at a position, if any. -/
def token? (position : Position) : Item → Option Token
  | blank _ => none
  | lexeme value _ => value.token? position

end Item

/-- How far a text could be read. The fault is told from the end of the items. -/
structure Decomposition where
  items : List Item
  fault : Option Fault
  deriving DecidableEq, Repr

namespace Decomposition

/-- The decomposition with one more item in front. -/
def cons (item : Item) (d : Decomposition) : Decomposition := { d with items := item :: d.items }

/-- The text that could be read. -/
def text (d : Decomposition) : Text := d.items.flatMap Item.text

/-- The tokens of items, the first of which begins at a position. -/
def tokensFrom (position : Position) : List Item → List Token
  | [] => []
  | item :: more => (item.token? position).toList ++ tokensFrom (position.after item.text) more

/-- The tokens of a text that begins at a position. -/
def tokens (d : Decomposition) (position : Position) : List Token := tokensFrom position d.items

end Decomposition

/-- Decomposes a text from left to right, up to its end or to the first fault. -/
def decompose : Text → Decomposition
  | [] => ⟨[], none⟩
  | ch :: rest =>
    if isBlank ch then (decompose rest).cons (.blank ch)
    else
      match _h : Form.lexFirst? Form.all (ch :: rest) with
      | none => ⟨[], some (.unknownAt 0)⟩
      | some (_, .error fault) => ⟨[], some fault⟩
      | some (_, .ok taken) =>
        (decompose ((ch :: rest).drop taken.width)).cons
          (.lexeme taken.value ((ch :: rest).take taken.width))
termination_by s => s.length
decreasing_by
  · simp
  · have := Form.width_pos_of_lexFirst? _h
    simp only [List.length_drop, List.length_cons]
    omega

end GrammarLexer
