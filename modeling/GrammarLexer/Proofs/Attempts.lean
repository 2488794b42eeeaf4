import GrammarLexer.Proofs.Diagnosis

/-!
# Attempts at forms

An attempt at a form looks ahead first, and reads only where the form starts. So it does nothing
elsewhere, and where it reads, little can go wrong. Attempts at several forms, one after another,
share a cursor; as one form at most starts, their order does not matter.

* `Fault.Misplaced`, `Form.misplaced_iff` -- the faults of a reading that is out of place, and where
  they come up;
* `Form.FailsAt` -- why a form that starts can still not be read;
* `Form.Contract`, `Form.contract` -- **what an attempt at a form comes to**;
* `Cursor.chain` -- attempts at one form after another;
* `Cursor.chain_perm` -- **the order of the attempts does not matter**.
-/

namespace GrammarLexer

open Text (Stops IsRun)

/-! ## 1. Readings out of place -/

/-- The fault of a reading that was asked for where its form does not start: it cannot use the first
character, which it may have taken, or it finds no digit. -/
inductive Fault.Misplaced : Fault → Prop where
  | before : Misplaced (.unknownAt 0)
  | after : Misplaced (.unknownAt 1)
  | noDigit : Misplaced ⟨.unreadable [], 0, 0⟩

theorem Piece.Fails.not_misplaced {s : Text} {fault : Fault} (h : Fails s fault) (k : Nat) :
    ¬ (fault.shift k).Misplaced := by
  intro hmisplaced
  generalize hfault : fault.shift k = shifted at hmisplaced
  have hcause := congrArg Fault.cause hfault
  cases h with
  | quote | comment => cases hmisplaced <;> cases hcause
  | placeholder hp _ hdigits =>
    cases hmisplaced with
    | before | after => cases hcause
    | noDigit =>
      cases hcause
      exact (hp.digits _ hdigits).1 rfl

/-- What is stuck although a form starts there is not out of place. -/
theorem Stuck.not_misplaced {s : Text} {fault : Fault} (h : Stuck s fault) {form : Form}
    (hstarts : form.startsHere s = true) : ¬ fault.Misplaced := by
  intro hmisplaced
  cases h with
  | nothing _ hnone =>
    rw [hnone form] at hstarts
    cases hstarts
  | number hrun =>
    cases hmisplaced
    exact hrun.1 rfl
  | word hword =>
    obtain ⟨name, rfl, -⟩ := hword
    cases hmisplaced
  | code hfails =>
    cases hfails with
    | atEnd => cases hmisplaced
    | atPiece _ hpiece => exact hpiece.not_misplaced _ hmisplaced
  | string | comment => cases hmisplaced

theorem readPattern_of_not_upcoming {p : Pattern} {s : Text} (h : p.upcoming s = false) :
    readPattern p s = .error (.unknownAt 0) := by
  have hnone : p.match? s = none := Option.isNone_iff_eq_none.1 (Option.isSome_eq_false_iff.1 h)
  rw [readPattern, hnone]

namespace Form

variable {form : Form} {s : Text}

/-- A form that does not start is out of place. A comment is an exception: it is read as if its
opening were there. -/
theorem exists_misplaced (hcomment : form ≠ .comment) (h : form.startsHere s = false) :
    ∃ fault, form.read s = .error fault ∧ fault.Misplaced := by
  cases form with
  | punctuator =>
    cases s with
    | nil => exact ⟨_, rfl, .before⟩
    | cons ch rest =>
      have hch : ch ≠ ';' ∧ ch ≠ '|' := by simpa [startsHere] using h
      refine ⟨_, ?_, .after⟩
      rw [read, readPunctuator, if_neg hch.1, if_neg hch.2]
  | number =>
    have hdigits : s.takeWhile Char.isDigit = [] := Text.takeWhile_eq_nil_of_stops h
    refine ⟨_, ?_, .noDigit⟩
    rw [read, readNumber, hdigits]
    rfl
  | tag =>
    refine ⟨_, ?_, .before⟩
    rw [read, readPattern_of_not_upcoming h]
    rfl
  | identifier =>
    refine ⟨_, ?_, .before⟩
    rw [read, readIdentifier, readPattern_of_not_upcoming h]
    rfl
  | percentWord =>
    refine ⟨_, ?_, .before⟩
    rw [read, readPercentWord, readPattern_of_not_upcoming h]
  | userCode =>
    cases s with
    | nil => exact ⟨_, rfl, .before⟩
    | cons ch rest =>
      have hch : ch ≠ '{' := by simpa [startsHere] using h
      refine ⟨_, ?_, .after⟩
      rw [read, Code.read, if_neg hch]
      rfl
  | stringLiteral =>
    cases s with
    | nil => exact ⟨_, rfl, .before⟩
    | cons ch rest =>
      have hch : ch ≠ '"' := by simpa [startsHere] using h
      refine ⟨_, ?_, .after⟩
      rw [read, readQuoted, if_neg hch]
      rfl
  | comment => exact absurd rfl hcomment
  | charLiteral =>
    refine ⟨_, ?_, .before⟩
    rw [read, readPattern_of_not_upcoming h]
    rfl

/-- **A reading is out of place just where its form does not start.** -/
theorem misplaced_iff : (∃ fault, form.read s = .error fault ∧ fault.Misplaced) ↔
    form ≠ .comment ∧ form.startsHere s = false := by
  constructor
  · rintro ⟨fault, hread, hmisplaced⟩
    constructor
    · rintro rfl
      have hcomment := eq_error_of_map_eq_error hread
      rw [readComment] at hcomment
      split at hcomment
      · cases hcomment
      · cases hcomment
        cases hmisplaced
    · refine Bool.eq_false_iff.2 fun hstarts => ?_
      exact (stuck_of_lex? (lex?_eq_some_iff.2 ⟨hstarts, hread⟩)).not_misplaced hstarts hmisplaced
  · rintro ⟨hcomment, h⟩
    exact exists_misplaced hcomment h

end Form

/-! ## 2. Forms that start and fail -/

/-- `here.FailsInCode e`: action code cannot go on at this cursor. A quoted run or a comment is
never closed, or the number of a placeholder does not fit. -/
inductive Cursor.FailsInCode (here : Cursor) : LexError → Prop where
  | quote {mark : Char} {more : Text} : here.rest = mark :: more → isQuote mark = true →
      mark ∉ more →
      FailsInCode here ((here.skip here.rest.length).quoteMismatch mark here.position)
  | comment {more : Text} : here.rest = commentOpening ++ more → ¬ commentClosing <:+: more →
      FailsInCode here ((here.skip here.rest.length).commentMismatch here.position)
  | placeholder {p : Placeholder} {digits : Text} : p.WellFormed →
      Longest IsPlaceholder p.text here.rest → p.digits = some digits →
      Text.wordLimit ≤ digits.decimal → FailsInCode here (.unknownToken digits here.site)

/-- `form.FailsAt c e`: the form starts at the cursor and can still not be read. Punctuators, tags,
names and characters are always read where they start. -/
inductive Form.FailsAt (c : Cursor) : Form → LexError → Prop where
  | number {digits after : Text} : c.rest = digits ++ after → IsRun Char.isDigit digits →
      Stops Char.isDigit after → Text.wordLimit ≤ digits.decimal →
      FailsAt c .number (.unknownToken digits c.site)
  /-- The word is not listed, and goes on past none that is. -/
  | percentWord {word after : Text} : c.rest = word ++ after → IsPercentWord word →
      Stops isNameChar after → (∀ keyword ∈ keywords, ¬ keyword <+: word) →
      FailsAt c .percentWord c.unknownToken
  | stringLiteral {more : Text} : c.rest = '"' :: more → '"' ∉ more →
      FailsAt c .stringLiteral ((c.skip c.rest.length).quoteMismatch '"' c.position)
  | comment {more : Text} : c.rest = commentOpening ++ more → ¬ commentClosing <:+: more →
      FailsAt c .comment ((c.skip c.rest.length).commentMismatch c.position)
  /-- The text is over while the block is open. -/
  | openBlock {pieces : Code} {last : Nat} : c.rest = '{' :: Code.text pieces →
      Code.Trail 0 pieces last [] →
      FailsAt c .userCode ((c.skip c.rest.length).braceMismatch c.position)
  /-- A piece of the block cannot be read. -/
  | insideBlock {pieces : Code} {last : Nat} {here : Cursor} {e : LexError} :
      c.rest = '{' :: (Code.text pieces ++ here.rest) → Code.Trail 0 pieces last here.rest →
      here = c.skip (1 + (Code.text pieces).length) → here.FailsInCode e → FailsAt c .userCode e

theorem Piece.Fails.failsInCode {here : Cursor} {fault : Fault} (h : Fails here.rest fault) :
    here.FailsInCode (fault.error here) := by
  generalize hrest : here.rest = rest at h
  cases h with
  | @quote mark more hquote hmem =>
    have hfails := Cursor.FailsInCode.quote hrest hquote hmem
    rwa [hrest] at hfails
  | @comment more hclosing =>
    have hfails := Cursor.FailsInCode.comment hrest hclosing
    rwa [hrest] at hfails
  | @placeholder p digits after hp hlong hdigits hlarge =>
    exact .placeholder hp (by rwa [hrest]) hdigits hlarge

namespace Form

variable {form : Form} {c : Cursor} {fault : Fault}

/-- **A form that starts fails for a reason of its own.** -/
theorem failsAt_of_lex? (h : form.lex? c.rest = some (.error fault)) :
    form.FailsAt c (fault.error c) := by
  have hstuck := stuck_of_lex? h
  obtain ⟨hstarts, -⟩ := lex?_eq_some_iff.1 h
  -- which form it is, the first character tells
  have hopened := openedBy_of_startsHere hstarts
  generalize hrest : c.rest = rest at hstuck hstarts hopened
  cases hstuck with
  | nothing _ hnone =>
    rw [hnone form] at hstarts
    cases hstarts
  | @number digits after hrun hafter hlarge =>
    obtain ⟨ch, more, rfl⟩ := List.exists_cons_of_ne_nil hrun.1
    have hnumber : some Form.number = some form := by
      rw [← hopened]
      exact (if_pos (hrun.2 ch List.mem_cons_self)).symm
    cases hnumber
    exact .number hrest hrun hafter hlarge
  | @word word after hword hafter hnone =>
    obtain ⟨name, rfl, hname⟩ := hword
    cases hopened
    exact .percentWord hrest ⟨name, rfl, hname⟩ hafter hnone
  | @code s _ hcode =>
    cases hopened
    cases hcode with
    | @atEnd pieces last htrail =>
      have hfails := FailsAt.openBlock hrest htrail
      rw [hrest, List.length_cons, Nat.add_comm] at hfails
      exact hfails
    | @atPiece pieces last after f htrail hpiece =>
      have hafter : (c.skip (1 + (Code.text pieces).length)).rest = after := by
        rw [Cursor.rest_skip, hrest, Nat.add_comm, List.drop_succ_cons, List.drop_left]
      rw [Fault.error_shift]
      rw [← hafter] at hrest htrail hpiece
      exact .insideBlock hrest htrail rfl hpiece.failsInCode
  | @string more hmem =>
    cases hopened
    have hfails := FailsAt.stringLiteral hrest hmem
    rwa [hrest] at hfails
  | @comment more hclosing =>
    cases hopened
    have hfails := FailsAt.comment hrest hclosing
    rwa [hrest] at hfails

end Form

/-! ## 3. One attempt -/

namespace Cursor

theorem index_lt_index_skip {c : Cursor} (h : c.rest ≠ []) {n : Nat} (hn : 0 < n) :
    c.index < (c.skip n).index := by
  have hpos := Text.byteSize_take_pos h hn
  rw [index_skip]
  omega

end Cursor

/-- What an attempt at a form keeps to, wherever the cursor is. -/
structure Form.Contract (form : Form) (c : Cursor) : Prop where
  /-- Where the form does not start, nothing happens. -/
  refuses : form.startsHere c.rest = false → (Operation.lex form).run c = (.outcome .nothing, c)
  /-- Where it starts, it is read. -/
  reads : form.startsHere c.rest = true → (Operation.lex form).run c = (Operation.read form).run c
  /-- Reading finds itself out of place only where the form does not start. -/
  misplaced : (∃ fault, form.read c.rest = .error fault ∧ fault.Misplaced) ↔
    form ≠ .comment ∧ form.startsHere c.rest = false
  /-- Where the form starts, the cursor moves past it, or the form fails for a reason of its own. -/
  comes_to : form.startsHere c.rest = true →
    (∃ value c', (Operation.lex form).run c = (.outcome (.lexed form value c.position), c') ∧
      c.index < c'.index) ∨
    ∃ e c', (Operation.lex form).run c = (.outcome (.errant e), c') ∧ form.FailsAt c e

/-- **Every attempt keeps to the contract.** -/
theorem Form.contract (form : Form) (c : Cursor) : form.Contract c := by
  have hattempt := c.lexFirst_cons form []
  have hreads : form.startsHere c.rest = true →
      (Operation.lex form).run c = (Operation.read form).run c := by
    intro hstarts
    rw [Operation.run, hattempt, if_pos hstarts]
    rfl
  refine ⟨fun hstarts => ?_, hreads, misplaced_iff, fun hstarts => ?_⟩
  · rw [Operation.run, hattempt, if_neg (Bool.eq_false_iff.1 hstarts)]
    rfl
  · rw [hreads hstarts, Operation.run]
    have hne : c.rest ≠ [] := by
      intro hnil
      have hopened := openedBy_of_startsHere hstarts
      rw [hnil] at hopened
      cases hopened
    cases hread : form.read c.rest with
    | ok taken =>
      exact .inl ⟨_, _, rfl, Cursor.index_lt_index_skip hne (width_pos hread)⟩
    | error fault =>
      exact .inr ⟨_, _, rfl, failsAt_of_lex? (lex?_eq_some_iff.2 ⟨hstarts, hread⟩)⟩

/-! ## 4. One attempt after another -/

/-- Which of some forms reads does not depend on their order. -/
theorem Form.lexFirst?_perm {forms forms' : List Form} (h : forms.Perm forms') (s : Text) :
    lexFirst? forms s = lexFirst? forms' s := by
  refine Option.ext fun found => ?_
  rw [lexFirst?_eq_some_iff, lexFirst?_eq_some_iff, h.mem_iff]

namespace Cursor

/-- One attempt more. It is made only if those before came to nothing, and from where they left the
cursor. -/
def orLex (tried : Outcome × Cursor) (form : Form) : Outcome × Cursor :=
  match tried.1 with
  | .nothing => tried.2.lexFirst [form]
  | .lexed .. | .errant _ => tried

/-- Attempts at one form after another, until one comes to something. -/
def chain (c : Cursor) (forms : List Form) : Outcome × Cursor := forms.foldl orLex (.nothing, c)

theorem foldl_orLex_conclude (c : Cursor) (form : Form) (reading : Except Fault (Taken Lexeme))
    (forms : List Form) : forms.foldl orLex (c.conclude form reading) = c.conclude form reading := by
  induction forms with
  | nil => rfl
  | cons form forms ih =>
    cases reading with
    | ok taken => exact ih
    | error fault => exact ih

theorem chain_cons (c : Cursor) (form : Form) (forms : List Form) :
    c.chain (form :: forms) =
      if form.startsHere c.rest = true then c.conclude form (form.read c.rest)
      else c.chain forms := by
  have hfirst : orLex (.nothing, c) form = c.lexFirst [form] := rfl
  rw [chain, List.foldl_cons, hfirst, lexFirst_cons]
  by_cases hstarts : form.startsHere c.rest = true
  · rw [if_pos hstarts, if_pos hstarts, foldl_orLex_conclude]
  · rw [if_neg hstarts, if_neg hstarts]
    rfl

/-- **Attempts at forms come to what the first form that starts comes to.** -/
theorem chain_eq_lexFirst (c : Cursor) (forms : List Form) : c.chain forms = c.lexFirst forms := by
  induction forms with
  | nil => rfl
  | cons form forms ih => rw [chain_cons, lexFirst_cons, ih]

/-- **The order of attempts does not matter.** One form at most starts at a cursor. So attempts at
some forms, one after another, come to the same in any order, and leave the cursor at the same
place; and that is what reading by the first form that starts comes to. -/
theorem chain_perm (c : Cursor) :
    (∀ form form' : Form, form.startsHere c.rest = true → form'.startsHere c.rest = true →
      form = form') ∧
    ∀ forms forms' : List Form, forms.Perm forms' →
      c.chain forms = c.chain forms' ∧
      (Operation.lexFirst forms).run c = (Operation.lexFirst forms').run c ∧
      (Operation.lexFirst forms).run c = (.outcome (c.chain forms).1, (c.chain forms).2) := by
  refine ⟨fun _ _ => Form.startsHere_unique, fun forms forms' h => ?_⟩
  have hsame : c.lexFirst forms = c.lexFirst forms' := by
    rw [lexFirst, lexFirst, Form.lexFirst?_perm h]
  refine ⟨?_, ?_, ?_⟩
  · rw [chain_eq_lexFirst, chain_eq_lexFirst, hsame]
  · rw [Operation.run, Operation.run, hsame]
  · rw [Operation.run, chain_eq_lexFirst]
    rfl

/-- A comment that is never closed is told at the end of the text, however late it is tried. -/
theorem chain_perm_open_comment :
    Form.startsHere .comment "/*é".toList = true ∧
      (start "/*é".toList 1).chain [.comment, .percentWord, .charLiteral] =
        (.errant (.commentMismatch ⟨1, 1⟩ ⟨⟨1, 4⟩, "/*é".toList⟩),
          ⟨"/*é".toList, [], 4, 1, 0⟩) := by
  have hlate : (start "/*é".toList 1).chain [.percentWord, .charLiteral, .comment] =
      (.errant (.commentMismatch ⟨1, 1⟩ ⟨⟨1, 4⟩, "/*é".toList⟩),
        ⟨"/*é".toList, [], 4, 1, 0⟩) := by
    decide
  obtain ⟨-, hperm⟩ := chain_perm (start "/*é".toList 1)
  obtain ⟨hsame, -⟩ := hperm [.comment, .percentWord, .charLiteral]
    [.percentWord, .charLiteral, .comment] (by decide)
  exact ⟨rfl, hsame.trans hlate⟩

end Cursor

end GrammarLexer
