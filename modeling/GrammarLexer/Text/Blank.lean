import GrammarLexer.Text
import GrammarLexer.Text.CodePoint

/-!
# Blanks

A blank is a character with the Unicode property White_Space: twenty-five code points. The
zero-width space, the word joiner and the information separators below the space do not have it.

* `whiteSpace`, `isBlank` -- the property, and whether a character has it;
* `Text.word` -- what stands before the first blank.
-/

namespace GrammarLexer

/-- The code points with the property White_Space. -/
def whiteSpace : CodePointSet :=
  ⟨[(0x9, 0xD), (0x20, 0x20), (0x85, 0x85), (0xA0, 0xA0), (0x1680, 0x1680), (0x2000, 0x200A),
    (0x2028, 0x2029), (0x202F, 0x202F), (0x205F, 0x205F), (0x3000, 0x3000)]⟩

/-- Is this character blank? -/
def isBlank (ch : Char) : Bool := whiteSpace.has ch

/-- The word at the start of a text: everything before its first blank. -/
def Text.word (s : Text) : Text := s.takeWhile fun ch => !isBlank ch

end GrammarLexer
