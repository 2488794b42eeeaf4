import GrammarLexer.Proofs.Locations
import GrammarLexer.Proofs.Separation

/-!
# What leaves no trace

A comment gives no token, and neither does the word for an empty rule. Written over with spaces, one
for each character that is no newline, they leave a text that has the same tokens at the same places.

* `overwrite`, `Text.cleared` -- what a character is written over with, and a text in which all that
  leaves no trace is written over;
* `Item.inBlanks`, `Reads.cleared` -- **a cleared text is read as before**, with blanks instead;
* `Position.after_overwrite` -- lines and columns are counted as before;
* `scanFrom_cleared` -- **a cleared text has the same tokens.**
-/

namespace GrammarLexer

open Decomposition (tokensFrom)

/-! ## 1. Writing over -/

/-- What a character is written over with. A newline stays. -/
def overwrite (ch : Char) : Char := if ch = '\n' then '\n' else ' '

/-- The lexemes that leave no trace: comments, and the word for an empty rule. -/
def Lexeme.isTraceless : Lexeme → Bool
  | comment _ | emptyRule => true
  | _ => false

/-- The text of an item, written over if the item leaves no trace. -/
def Item.cleared : Item → Text
  | blank ch => [ch]
  | lexeme value word => if value.isTraceless then word.map overwrite else word

/-- A text that can be read, with all that leaves no trace written over. -/
def Text.cleared (s : Text) : Text := (decompose s).items.flatMap Item.cleared

/-- What a cleared item is read as. -/
def Item.inBlanks : Item → List Item
  | blank ch => [.blank ch]
  | lexeme value word =>
    if value.isTraceless then (word.map overwrite).map .blank else [.lexeme value word]

theorem isBlank_overwrite (ch : Char) : isBlank (overwrite ch) = true := by
  unfold overwrite
  split <;> decide

theorem isBlank_of_mem_overwritten {word : Text} {ch : Char} (h : ch ∈ word.map overwrite) :
    isBlank ch = true := by
  obtain ⟨ch', -, rfl⟩ := List.mem_map.1 h
  exact isBlank_overwrite ch'

/-! ## 2. Reading -/

/-- A cleared text begins as before, or with a blank. -/
theorem Reads.head?_cleared {items : List Item} {s : Text} (h : Reads items s) :
    (items.flatMap Item.cleared).head? = s.head? ∨
      ∃ ch, (items.flatMap Item.cleared).head? = some ch ∧ isBlank ch = true := by
  cases h with
  | done => exact .inl rfl
  | blank => exact .inl rfl
  | @lexeme value items word rest hlexes =>
    obtain ⟨ch, more, rfl⟩ := List.exists_cons_of_ne_nil hlexes.ne_nil
    rw [List.flatMap_cons, Item.cleared]
    split
    · exact .inr ⟨overwrite ch, rfl, isBlank_overwrite ch⟩
    · exact .inl rfl

/-- What ends before a text ends before the cleared text: no colon comes up, since a text that can
be read does not begin with one. -/
theorem Reads.endsLike_cleared {items items' : List Item} {s : Text} (h : Reads items s)
    (h' : Reads items' (items.flatMap Item.cleared)) :
    s.EndsLike (items.flatMap Item.cleared) where
  stops {cls} hcls hs := by
    rcases h.head?_cleared with hhead | ⟨ch, hhead, hblank⟩
    · rwa [Text.Stops, hhead]
    · rw [Text.Stops, hhead]
      exact hcls ch hblank
  no_colon _ := h'.no_colon

/-- **A cleared text is read as before**, with blanks for what leaves no trace. -/
theorem Reads.cleared {items : List Item} {s : Text} (h : Reads items s) :
    Reads (items.flatMap Item.inBlanks) (items.flatMap Item.cleared) := by
  induction h with
  | done => exact .done
  | blank hblank _ ih => exact .blank hblank ih
  | @lexeme value items word rest hlexes hrest ih =>
    rw [List.flatMap_cons, List.flatMap_cons, Item.inBlanks, Item.cleared]
    split
    · exact ih.prepend_blanks fun ch => isBlank_of_mem_overwritten
    · exact .lexeme (hlexes.change (hrest.endsLike_cleared ih)) ih

/-! ## 3. Places -/

/-- A character and what it is written over with take the same place. -/
theorem Position.next_overwrite (p : Position) (ch : Char) : p.next (overwrite ch) = p.next ch := by
  unfold overwrite
  split
  case isTrue hch => rw [hch]
  case isFalse hch => rw [next, next, if_neg hch, if_neg (by decide)]

theorem Position.after_overwrite (p : Position) (word : Text) :
    p.after (word.map overwrite) = p.after word := by
  induction word generalizing p with
  | nil => rfl
  | cons ch word ih => rw [List.map_cons, after_cons, after_cons, ih, next_overwrite]

theorem Lexeme.token?_of_isTraceless {value : Lexeme} (h : value.isTraceless = true)
    (p : Position) : value.token? p = none := by
  cases value with
  | comment | emptyRule => rfl
  | _ => cases h

/-- Blanks for what leaves no trace change no token. -/
theorem tokensFrom_inBlanks (p : Position) (items : List Item) :
    tokensFrom p (items.flatMap Item.inBlanks) = tokensFrom p items := by
  induction items generalizing p with
  | nil => rfl
  | cons item items ih =>
    cases item with
    | blank ch => exact ih (p.next ch)
    | lexeme value word =>
      rw [List.flatMap_cons, Item.inBlanks, tokensFrom]
      split
      case isTrue htraceless =>
        rw [tokensFrom_blanks, Position.after_overwrite, ih, Item.token?,
          Lexeme.token?_of_isTraceless htraceless]
        rfl
      case isFalse =>
        rw [List.singleton_append, tokensFrom, ih]

/-- **A cleared text has the same tokens**: comments and the word for an empty rule can be written
over with spaces, and kinds, values, references and all positions stay. -/
theorem scanFrom_cleared {n : Nat} {s : Text} {tokens : List Token}
    (h : scanFrom n s = .ok tokens) :
    scanFrom n s.cleared = .ok tokens ∧
      ∀ items, Reads items s → s.cleared = items.flatMap Item.cleared := by
  have hcleared : ∀ items, Reads items s → s.cleared = items.flatMap Item.cleared := by
    intro items hreads
    rw [Text.cleared, hreads.decompose]
  obtain ⟨items, hreads, rfl⟩ := scanFrom_eq_ok_iff.1 h
  refine ⟨scanFrom_eq_ok_iff.2 ⟨items.flatMap Item.inBlanks, ?_, ?_⟩, hcleared⟩
  · rw [hcleared items hreads]
    exact hreads.cleared
  · rw [tokensFrom_inBlanks]

/-- A comment of two lines with a colon and a letter of two bytes in it, right after a name, and the
word for an empty rule between a name and a semicolon. -/
theorem scanFrom_cleared_between_names :
    scanFrom 3 "x/*:é\n*/y%empty;".toList = .ok [.ofText .ident ['x'] ⟨3, 1⟩,
        .ofText .ident ['y'] ⟨4, 3⟩, .ofText .semicolon [';'] ⟨4, 10⟩] ∧
      scanFrom 3 "x    \n  y      ;".toList = .ok [.ofText .ident ['x'] ⟨3, 1⟩,
        .ofText .ident ['y'] ⟨4, 3⟩, .ofText .semicolon [';'] ⟨4, 10⟩] := by
  have hx : Lexes (.identifier ['x'] false) ['x'] "/*:é\n*/y%empty;".toList :=
    .name ⟨'x', [], rfl, rfl, by simp⟩ rfl (by decide)
  have hcomment : Lexes (.comment ":é\n".toList) (commentRun ":é\n".toList) "y%empty;".toList :=
    .comment (Text.endsFirst_of_before? (s := ":é\n*/".toList) rfl)
  have hy : Lexes (.identifier ['y'] false) ['y'] "%empty;".toList :=
    .name ⟨'y', [], rfl, rfl, by simp⟩ rfl (by decide)
  have hempty : Lexes .emptyRule emptyWord [';'] := .emptyRule rfl
  have hafter : Reads _ "y%empty;".toList :=
    .lexeme hy (.lexeme hempty (.lexeme .semicolon .done))
  have hlater : Reads _ "/*:é\n*/y%empty;".toList := .lexeme hcomment hafter
  have hreads : Reads _ "x/*:é\n*/y%empty;".toList := .lexeme hx hlater
  have hscan : scanFrom 3 "x/*:é\n*/y%empty;".toList = .ok [.ofText .ident ['x'] ⟨3, 1⟩,
      .ofText .ident ['y'] ⟨4, 3⟩, .ofText .semicolon [';'] ⟨4, 10⟩] :=
    scanFrom_eq_ok_iff.2 ⟨_, hreads, rfl⟩
  obtain ⟨hagain, hcleared⟩ := scanFrom_cleared hscan
  rw [hcleared _ hreads] at hagain
  exact ⟨hscan, hagain⟩

end GrammarLexer
