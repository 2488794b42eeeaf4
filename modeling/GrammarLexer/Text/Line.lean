import GrammarLexer.Text

/-!
# Lines

Only a newline ends a line, and it belongs to the line that it ends. The last line may lack one, and
the empty text has no line at all.

* `Text.lines` -- the lines of a text, each with its newline;
* `Line`, `numberFrom`, `Text.numberedLines` -- the same with their numbers, from one;
* `Text.shown` -- the line around a place, without its newline; the end of the text, right after a
  newline, still shows the line before it;
* `Text.snippetAt?` -- the line that is shown for a byte offset.

The lines of a text make up the text (`flatten_lines`), also when they are numbered
(`flatMap_numberedLines`).
-/

namespace GrammarLexer

/-- A line of a file: its text as written, newline included, and its number in the file. -/
structure Line where
  text : Text
  number : Nat
  deriving DecidableEq, Repr

/-- Lines of these texts, numbered from `n` on. -/
def numberFrom (n : Nat) (texts : List Text) : List Line :=
  (texts.zipIdx n).map fun entry => ⟨entry.1, entry.2⟩

theorem numberFrom_cons (n : Nat) (text : Text) (texts : List Text) :
    numberFrom n (text :: texts) = ⟨text, n⟩ :: numberFrom (n + 1) texts := rfl

theorem numberFrom_append (n : Nat) (a b : List Text) :
    numberFrom n (a ++ b) = numberFrom n a ++ numberFrom (n + a.length) b := by
  simp [numberFrom, List.zipIdx_append]

theorem flatMap_numberFrom (n : Nat) (texts : List Text) :
    (numberFrom n texts).flatMap Line.text = texts.flatten := by
  induction texts generalizing n with
  | nil => rfl
  | cons text texts ih => rw [numberFrom_cons, List.flatMap_cons, ih, List.flatten_cons]

namespace Text

/-- The lines of a text, each with the newline that ends it. -/
def lines : Text → List Text
  | [] => []
  | ch :: rest =>
    if ch = '\n' then [ch] :: lines rest
    else
      match lines rest with
      | [] => [[ch]]
      | line :: more => (ch :: line) :: more

/-- The lines of a text make up the text. -/
theorem flatten_lines (s : Text) : (lines s).flatten = s := by
  induction s with
  | nil => rfl
  | cons ch rest ih =>
    simp only [lines]
    split
    · simp [ih]
    · split
      case h_1 h => simp_all
      case h_2 h => simp_all

/-- The lines of a text with their numbers, from one. -/
def numberedLines (s : Text) : List Line := numberFrom 1 s.lines

theorem flatMap_numberedLines (s : Text) : s.numberedLines.flatMap Line.text = s :=
  (flatMap_numberFrom 1 s.lines).trans s.flatten_lines

/-- The part of a text after its last newline: all of it if it has none. -/
def lastLine (s : Text) : Text := (s.reverse.takeWhile (· ≠ '\n')).reverse

/-- The line that is shown for a place between two texts: what stands around it up to the newlines,
and at the end, right after a newline, the line which that newline ends. -/
def shown (before after : Text) : Text :=
  if after = [] ∧ before ≠ [] ∧ before.lastLine = [] then
    -- the text ends in a newline: leave it out and look again
    lastLine before.dropLast
  else
    before.lastLine ++ after.takeWhile (· ≠ '\n')

/-- The line that is shown for a byte offset. An offset past the end counts as the end, and one
inside a character has no line. -/
def snippetAt? (s : Text) (index : Nat) : Option Text :=
  (splitAt? (min index s.byteSize) s).map fun parts => shown parts.1 parts.2

end Text

end GrammarLexer
