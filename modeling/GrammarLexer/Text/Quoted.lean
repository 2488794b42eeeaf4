import GrammarLexer.Text
import GrammarLexer.Text.GraphemeExtend
import GrammarLexer.Text.Printable

/-!
# Quoted text

The form in which a text is shown inside another one: between double quotes, with an escape for
every character that would end the quotes, start an escape, or not be seen.

* `escapeWith`, `Text.quotedWith` -- the form of a character and of a text, whichever characters are
  taken to be hidden;
* `isHidden` -- the characters that are not seen.

An apostrophe stands for itself. A hidden character is written by its code point in hexadecimal
digits.
-/

namespace GrammarLexer

/-- How a character stands between the quotes when the `hidden` ones are those that are not seen. -/
def escapeWith (hidden : Char → Bool) (ch : Char) : Text :=
  if ch = '\x00' then ['\\', '0']
  else if ch = '\t' then ['\\', 't']
  else if ch = '\r' then ['\\', 'r']
  else if ch = '\n' then ['\\', 'n']
  else if ch = '"' then ['\\', '"']
  else if ch = '\\' then ['\\', '\\']
  else if hidden ch then ['\\', 'u', '{'] ++ Nat.toDigits 16 ch.toNat ++ ['}']
  else [ch]

/-- A text between double quotes, each character in its escaped form. -/
def Text.quotedWith (hidden : Char → Bool) (s : Text) : Text :=
  '"' :: (s.flatMap (escapeWith hidden) ++ ['"'])

/-- Is this character not seen? It is not printable, or it is drawn onto its neighbour. -/
def isHidden (ch : Char) : Bool := isExtendingMark ch || !isPrintable ch

end GrammarLexer
