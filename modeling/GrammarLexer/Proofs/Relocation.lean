import GrammarLexer.Proofs.Scanning

/-!
# The same text elsewhere

What a text is read as does not depend on where it stands; only the positions do. A text that begins
on a later line, or after other text, has the same tokens at other places, and the same error.

* `Token.relocate`, `LexError.relocate` -- a token, or an error, with its positions changed, those
  of the tags in action code included;
* `Position.Follows` -- a change of positions that goes along with counting lines and columns;
* `Position.Follows.tokensFrom` -- **the tokens of items at another place**;
* `Cursor.down`, `Fault.error_down` -- a cursor some lines further down, and the error there;
* `scanFrom` -- the scan of a text whose lines are numbered from some line on;
* `scanFrom_add` -- **scanning further down gives the same, further down**.
-/

namespace GrammarLexer

open Decomposition (tokensFrom)

/-! ## 1. Changed positions -/

/-- The place `k` lines further down. -/
def Position.down (k : Nat) (p : Position) : Position := ⟨p.line + k, p.column⟩

/-- A reference whose tag stands elsewhere. -/
def Reference.relocate (f : Position → Position) (r : Reference) : Reference :=
  { r with tag := r.tag.map fun tag => { tag with position := f tag.position } }

/-- A token that stands elsewhere, with the tags in it. -/
def Token.relocate (f : Position → Position) (t : Token) : Token :=
  { t with position := f t.position, references := t.references.map (Reference.relocate f) }

/-- A site that is elsewhere but shows the same line. -/
def Site.relocate (f : Position → Position) (site : Site) : Site :=
  { site with position := f site.position }

/-- An error that was found elsewhere. -/
def LexError.relocate (f : Position → Position) : LexError → LexError
  | unknownToken found site => unknownToken found (site.relocate f)
  | braceMismatch opened site => braceMismatch (f opened) (site.relocate f)
  | quoteMismatch terminator opened site => quoteMismatch terminator (f opened) (site.relocate f)
  | commentMismatch opened site => commentMismatch (f opened) (site.relocate f)
  | unreachableStage stage => unreachableStage stage

/-! ## 2. Tokens elsewhere -/

/-- `Follows f P`: among the positions with `P`, which no character leads out of, changing a position
and passing a character can be exchanged. -/
structure Position.Follows (f : Position → Position) (P : Position → Prop) : Prop where
  stays : ∀ {p} (ch : Char), P p → P (p.next ch)
  next : ∀ {p} (ch : Char), P p → f (p.next ch) = (f p).next ch

theorem Position.follows_down (k : Nat) : Follows (down k) fun _ => True where
  stays _ _ := trivial
  next {p} ch _ := by
    unfold next
    split
    · simp only [down, Position.mk.injEq, and_true]
      omega
    · rfl

/-- A character other than a newline is one column. -/
theorem Position.shifted_one {p : Position} {ch : Char} (h : ch ≠ '\n') :
    p.shifted 1 = p.next ch := by
  rw [next, if_neg h]
  rfl

namespace Position.Follows

variable {f : Position → Position} {P : Position → Prop} {p : Position}

theorem stays_after (h : Follows f P) (hp : P p) (s : Text) : P (p.after s) := by
  induction s generalizing p with
  | nil => exact hp
  | cons ch s ih => exact ih (h.stays ch hp)

theorem after (h : Follows f P) (hp : P p) (s : Text) : f (p.after s) = (f p).after s := by
  induction s generalizing p with
  | nil => rfl
  | cons ch s ih => rw [after_cons, after_cons, ih (h.stays ch hp), h.next ch hp]

theorem reference (h : Follows f P) (hp : P p) (holder : Placeholder) (offset : Nat) :
    holder.reference (f p) offset = (holder.reference p offset).relocate f := by
  have hsigil : holder.form.sigil ≠ '\n' := by cases holder.form <;> decide
  have hshift : (f p).shifted 1 = f (p.shifted 1) := by
    rw [shifted_one hsigil, shifted_one hsigil, h.next _ hp]
  simp [Placeholder.reference, Reference.relocate, hshift, Function.comp_def]

theorem reference? (h : Follows f P) (hp : P p) (piece : Piece) (offset : Nat) :
    piece.reference? (f p) offset = (piece.reference? p offset).map (Reference.relocate f) := by
  cases piece with
  | placeholder holder => exact congrArg some (h.reference hp holder offset)
  | _ => rfl

/-- The references among pieces at another place. -/
theorem referencesFrom (h : Follows f P) (hp : P p) (pieces : Code) (offset : Nat) :
    Code.referencesFrom (f p) offset pieces =
      (Code.referencesFrom p offset pieces).map (Reference.relocate f) := by
  induction pieces generalizing p offset with
  | nil => rfl
  | cons piece more ih =>
    rw [Code.referencesFrom, Code.referencesFrom, List.map_append, h.reference? hp,
      ← h.after hp, ih (h.stays_after hp _), Option.toList_map]

theorem token? (h : Follows f P) (hp : P p) (value : Lexeme) :
    value.token? (f p) = (value.token? p).map (Token.relocate f) := by
  cases value with
  | code block =>
    have hrefs := h.referencesFrom hp block 0
    simp [Lexeme.token?, Token.relocate, Code.references, hrefs]
  | identifier name colon => cases colon <;> rfl
  | _ => rfl

/-- **The tokens of items at another place** are the same tokens there. -/
theorem tokensFrom (h : Follows f P) (hp : P p) (items : List Item) :
    tokensFrom (f p) items = (tokensFrom p items).map (Token.relocate f) := by
  induction items generalizing p with
  | nil => rfl
  | cons item more ih =>
    have hitem : item.token? (f p) = (item.token? p).map (Token.relocate f) := by
      cases item with
      | blank ch => rfl
      | lexeme value text => exact h.token? hp value
    rw [Decomposition.tokensFrom, Decomposition.tokensFrom, List.map_append, hitem, ← h.after hp,
      ih (h.stays_after hp _), Option.toList_map]

end Position.Follows

/-! ## 3. Errors further down -/

namespace Cursor

/-- The cursor at the same place of the same text, which begins `k` lines further down. -/
def down (k : Nat) (c : Cursor) : Cursor := { c with line := c.line + k }

theorem start_add (text : Text) (line k : Nat) :
    start text (line + k) = (start text line).down k := rfl

theorem bump_down (c : Cursor) (k : Nat) : (c.down k).bump = c.bump.down k := by
  obtain ⟨text, rest, index, line, lineStart⟩ := c
  cases rest with
  | nil => rfl
  | cons ch rest =>
    by_cases hch : ch = '\n'
    · simp [down, bump, hch, Nat.add_right_comm]
    · simp [down, bump, hch]

theorem skip_down (c : Cursor) (k n : Nat) : (c.down k).skip n = (c.skip n).down k := by
  induction n generalizing c with
  | zero => rfl
  | succ n ih => rw [skip, skip, bump_down, ih]

theorem position_down (c : Cursor) (k : Nat) : (c.down k).position = c.position.down k := rfl

theorem site_down (c : Cursor) (k : Nat) : (c.down k).site = c.site.relocate (Position.down k) :=
  rfl

end Cursor

/-- **The error that a fault is, further down.** -/
theorem Fault.error_down (fault : Fault) (c : Cursor) (k : Nat) :
    fault.error (c.down k) = (fault.error c).relocate (Position.down k) := by
  obtain ⟨cause, place, stop⟩ := fault
  cases cause <;>
    simp only [error, Cursor.skip_down, Cursor.unknownToken, Cursor.braceMismatch,
      Cursor.quoteMismatch, Cursor.commentMismatch, Cursor.position_down, Cursor.site_down] <;>
    rfl

/-! ## 4. Scans -/

/-- What scanning gives for the lines of a text, the first of which is line `n`. -/
def scanFrom (n : Nat) (s : Text) : Except LexError (List Token) :=
  (scanLines (numberFrom n s.lines)).result

/-- Scanning lines is scanning their text from the number of the first line on. -/
theorem scanFrom_eq (n : Nat) (s : Text) : scanFrom n s = (scanText s n).result := by
  have htext : (numberFrom n s.lines).flatMap Line.text = s := by
    rw [flatMap_numberFrom, Text.flatten_lines]
  cases hlines : s.lines with
  | nil =>
    have hs : s = [] := by
      rw [← Text.flatten_lines s, hlines]
      rfl
    subst hs
    rw [scanFrom, scanText, decompose]
    rfl
  | cons line more =>
    rw [hlines] at htext
    rw [scanFrom, hlines]
    exact congrArg (fun text => (scanText text n).result) htext

/-- A text is scanned if it is a sequence of blanks and lexemes, and the tokens are theirs. -/
theorem scanFrom_eq_ok_iff {n : Nat} {s : Text} {tokens : List Token} :
    scanFrom n s = .ok tokens ↔ ∃ items, Reads items s ∧ tokens = tokensFrom ⟨n, 1⟩ items := by
  have hscan := scanLines_result_iff [⟨s, n⟩] tokens
  simp only [scanLines, List.flatMap_cons, List.flatMap_nil, List.append_nil, decompose_eq_iff]
    at hscan
  rw [scanFrom_eq, hscan]
  rfl

/-- **Scanning further down gives the same, further down**: the same tokens or the same error. -/
theorem scanFrom_add (n k : Nat) (s : Text) :
    scanFrom (n + k) s =
      ((scanFrom n s).map (List.map (Token.relocate (Position.down k)))).mapError
        (LexError.relocate (Position.down k)) := by
  rw [scanFrom_eq, scanFrom_eq, scanText, scanText, Cursor.start_add]
  cases (decompose s).fault with
  | none =>
    have htokens := (Position.follows_down k).tokensFrom (p := (Cursor.start s n).position) trivial
      (decompose s).items
    simp only [Scan.result, Option.map_none]
    exact congrArg Except.ok htokens
  | some fault =>
    simp only [Scan.result, Option.map_some, Cursor.skip_down, Fault.error_down]
    rfl

end GrammarLexer
