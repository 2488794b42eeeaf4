import GrammarLexer.Proofs.Scanning

/-!
# Where reading gets stuck

A text that cannot be decomposed has a beginning that can, and after it a place at which reading is
stuck. What stands at that place is said here without a reader, for each cause apart.

* `Piece.Fails` -- what cannot be read as a piece of action code, and the fault;
* `Code.Trail` -- pieces after which a block is still open;
* `Stuck` -- what cannot be read at all, and the fault;
* `ReadsTo items s rest` -- the text is these items, and then `rest`;
* `decompose_eq_fault_iff` -- **decomposing stops at the first text that is stuck**, and says why;
* `ReadsTo.exists_lexeme` -- every token comes from a lexeme of the text, also where the scan fails
  later.
-/

namespace GrammarLexer

open Text (Stops IsRun)
open Decomposition (tokensFrom)

/-! ## 1. Runs that are never closed -/

/-- A reading that fails after a change failed before it. -/
theorem eq_error_of_map_eq_error {ε α β : Type} {f : α → β} {x : Except ε α} {e : ε}
    (h : x.map f = .error e) : x = .error e := by
  cases x with
  | ok a => cases h
  | error e' =>
    cases h
    rfl

/-- Nothing stands before a mark that does not occur. -/
theorem Text.before?_eq_none_iff {mark s : Text} (hm : mark ≠ []) :
    before? mark s = none ↔ ¬ mark <:+: s := by
  induction s with
  | nil => simp [before?, hm]
  | cons ch rest ih =>
    rw [before?, List.infix_cons_iff]
    by_cases hpre : mark <+: ch :: rest
    · simp [hpre]
    · simp [hpre, ih]

theorem readQuoted_open {mark : Char} {more : Text} (h : mark ∉ more) :
    readQuoted mark (mark :: more) =
      .error ⟨.openQuote mark 0, more.length + 1, more.length + 1⟩ := by
  have hnone : Text.before? [mark] more = none := by
    refine (Text.before?_eq_none_iff (List.cons_ne_nil _ _)).2 fun hinfix => h ?_
    exact hinfix.subset List.mem_cons_self
  rw [readQuoted, if_pos rfl, hnone]

/-- A quoted run fails only if it is never closed. -/
theorem readQuoted_eq_error_iff {mark : Char} {more : Text} {fault : Fault} :
    readQuoted mark (mark :: more) = .error fault ↔
      mark ∉ more ∧ fault = ⟨.openQuote mark 0, more.length + 1, more.length + 1⟩ := by
  by_cases h : mark ∈ more
  · obtain ⟨inner, rest, rfl, hinner⟩ := List.eq_append_cons_of_mem h
    have hread : readQuoted mark (mark :: (inner ++ mark :: rest)) = .ok inner :=
      readQuoted_eq_ok_iff.2 ⟨hinner, rest, by simp [quotedRun]⟩
    simp [hread]
  · simp [readQuoted_open h, h, eq_comm]

/-- A comment fails only if it is never closed. -/
theorem readComment_eq_error_iff {more : Text} {fault : Fault} :
    readComment (commentOpening ++ more) = .error fault ↔
      ¬ commentClosing <:+: more ∧ fault =
        ⟨.openComment 0, (commentOpening ++ more).length, (commentOpening ++ more).length⟩ := by
  have hdrop : (commentOpening ++ more).drop 2 = more := rfl
  have hnone : Text.before? commentClosing more = none ↔ _ :=
    Text.before?_eq_none_iff (by decide)
  rw [← hnone, readComment, covering_commentOpening, hdrop]
  cases Text.before? commentClosing more with
  | none => simp [eq_comm]
  | some inner => simp

/-! ## 2. Action code -/

/-- A placeholder is refused if its number does not fit. -/
theorem Placeholder.checked_eq_error_iff {p : Placeholder} {fault : Fault} (h : p.WellFormed) :
    p.checked = .error fault ↔ ∃ digits, p.digits = some digits ∧
      Text.wordLimit ≤ digits.decimal ∧ fault = ⟨.unreadable digits, 0, p.text.length⟩ := by
  rcases hp : p.digits with _ | digits
  · simp [checked, hp]
  · have hrun := h.digits digits hp
    have hvalue : digits.wordValue?.isSome = true ↔ digits.decimal < Text.wordLimit := by
      rw [Text.wordValue?, if_neg hrun.1]
      split <;> simp_all
    by_cases hfits : digits.decimal < Text.wordLimit
    · simp [checked, hp, hvalue.2 hfits, Nat.not_le_of_lt hfits]
    · have hnone : ¬ digits.wordValue?.isSome = true := fun hsome => hfits (hvalue.1 hsome)
      simp [checked, hp, hnone, Nat.le_of_not_lt hfits, eq_comm]

namespace Piece

/-- `Fails s fault`: action code that goes on with the text `s` cannot be read there. A quoted run
or a comment is never closed, or the number of the longest placeholder there does not fit. -/
inductive Fails : Text → Fault → Prop where
  | quote {mark : Char} {more : Text} : isQuote mark = true → mark ∉ more →
      Fails (mark :: more) ⟨.openQuote mark 0, more.length + 1, more.length + 1⟩
  | comment {more : Text} : ¬ commentClosing <:+: more →
      Fails (commentOpening ++ more)
        ⟨.openComment 0, (commentOpening ++ more).length, (commentOpening ++ more).length⟩
  | placeholder {p : Placeholder} {digits rest : Text} : p.WellFormed →
      Longest IsPlaceholder p.text (p.text ++ rest) → p.digits = some digits →
      Text.wordLimit ≤ digits.decimal →
      Fails (p.text ++ rest) ⟨.unreadable digits, 0, p.text.length⟩

/-- What the reader refuses cannot be read. -/
theorem fails_of_read {ch : Char} {rest : Text} {fault : Fault} (h : read ch rest = .error fault) :
    Fails (ch :: rest) fault := by
  by_cases hquote : isQuote ch = true
  · rw [read, if_pos (isQuote_iff.1 hquote)] at h
    obtain ⟨hmem, rfl⟩ := readQuoted_eq_error_iff.1 (eq_error_of_map_eq_error h)
    exact .quote hquote hmem
  · rcases Placeholder.lex?_cases (ch :: rest) with ⟨hnone, -⟩ | ⟨p, hp, hlong, hlex⟩
    · rw [read_of_noPlaceholder (Bool.eq_false_iff.2 hquote) hnone] at h
      split at h
      case isTrue hopen =>
        obtain ⟨more, hmore⟩ := hopen
        rw [← hmore] at h ⊢
        obtain ⟨hclosing, rfl⟩ := readComment_eq_error_iff.1 (eq_error_of_map_eq_error h)
        exact .comment hclosing
      case isFalse =>
        split at h
        · cases h
        · split at h <;> cases h
    · rw [read, if_neg (fun hq => hquote (isQuote_iff.2 hq)), hlex] at h
      obtain ⟨digits, hdigits, hlarge, rfl⟩ :=
        (Placeholder.checked_eq_error_iff hp).1 (eq_error_of_map_eq_error h)
      obtain ⟨after, hafter⟩ := hlong.isPrefix
      rw [← hafter] at hlong ⊢
      exact .placeholder hp hlong hdigits hlarge

/-- What cannot be read is refused by the reader. -/
theorem Fails.read {s : Text} {fault : Fault} (h : Fails s fault) {ch : Char} {rest : Text}
    (hs : s = ch :: rest) : Piece.read ch rest = .error fault := by
  cases h with
  | quote hquote hmem =>
    cases hs
    rw [Piece.read, if_pos (isQuote_iff.1 hquote), readQuoted_open hmem]
    rfl
  | @comment more hclosing =>
    have hch : '/' = ch := (List.cons.inj hs).1
    subst hch
    have hnone := noPlaceholder_cons rest (show '/' ≠ '$' by decide) (by decide)
    rw [read_of_noPlaceholder (by decide) hnone, ← hs, if_pos (List.prefix_append _ _),
      readComment_eq_error_iff.2 ⟨hclosing, rfl⟩]
    rfl
  | @placeholder p digits after hp hlong hdigits hlarge =>
    have hquote : ¬ (ch = '"' ∨ ch = '\'') := by
      obtain ⟨x, more, hx, hsigil⟩ := hp.isPlaceholder.head
      rw [hx] at hs
      obtain ⟨rfl, -⟩ := List.cons.inj hs
      rcases hsigil with rfl | rfl <;> decide
    rw [hs] at hlong
    rw [Piece.read, if_neg hquote, Placeholder.lex?_eq_some hp hlong,
      (Placeholder.checked_eq_error_iff hp).2 ⟨digits, hdigits, hlarge, rfl⟩]
    rfl

/-- At the end of the text there is nothing to fail at. -/
theorem Fails.ne_nil {s : Text} {fault : Fault} (h : Fails s fault) : s ≠ [] := by
  cases h with
  | quote => exact List.cons_ne_nil _ _
  | comment => exact List.cons_ne_nil _ _
  | placeholder => exact List.cons_ne_nil _ _

end Piece

namespace Code

/-- `Trail depth pieces last rest`: the pieces stand one after another before `rest`, and none of
them closes the block. With `depth` inner blocks open before them, `last` are open after them. -/
inductive Trail : Nat → Code → Nat → Text → Prop where
  | done {depth : Nat} {rest : Text} : Trail depth [] depth rest
  | step {depth next last : Nat} {piece : Piece} {more : Code} {rest : Text} :
      piece.Stands (text more ++ rest) → piece.depthAfter? depth = some next →
      Trail next more last rest → Trail depth (piece :: more) last rest

/-- `FailsAfter passed s fault`: pieces lead through the text `s`, of whose block `passed`
characters come before it, to its end or to a place where no piece can be read. -/
inductive FailsAfter (passed depth : Nat) : Text → Fault → Prop where
  | atEnd {pieces : Code} {last : Nat} : Trail depth pieces last [] →
      FailsAfter passed depth (text pieces)
        ⟨.openBrace 0, passed + (text pieces).length, passed + (text pieces).length⟩
  | atPiece {pieces : Code} {last : Nat} {rest : Text} {fault : Fault} :
      Trail depth pieces last rest → Piece.Fails rest fault →
      FailsAfter passed depth (text pieces ++ rest) (fault.shift (passed + (text pieces).length))

variable {passed depth next : Nat} {s : Text} {fault : Fault} {piece : Piece}

theorem FailsAfter.cons (hstands : piece.Stands s) (hdepth : piece.depthAfter? depth = some next)
    (h : FailsAfter (passed + piece.text.length) next s fault) :
    FailsAfter passed depth (piece.text ++ s) fault := by
  cases h with
  | @atEnd pieces last htrail =>
    have hstands' : piece.Stands (text pieces ++ []) := by rwa [List.append_nil]
    have hlength : passed + piece.text.length + (text pieces).length =
        passed + (text (piece :: pieces)).length := by
      rw [text_cons, List.length_append, Nat.add_assoc]
    rw [hlength]
    exact .atEnd (.step hstands' hdepth htrail)
  | @atPiece pieces last rest fault htrail hfails =>
    have hlength : passed + piece.text.length + (text pieces).length =
        passed + (text (piece :: pieces)).length := by
      rw [text_cons, List.length_append, Nat.add_assoc]
    rw [hlength, ← List.append_assoc]
    exact .atPiece (.step hstands hdepth htrail) hfails

/-- A block whose reading fails is a trail of pieces up to where it does. -/
theorem failsAfter_of_readFrom (h : readFrom passed depth s = .error fault) :
    FailsAfter passed depth s fault := by
  fun_induction readFrom passed depth s with
  | case1 passed depth =>
    cases h
    exact .atEnd .done
  | case2 passed depth ch rest f hread =>
    cases h
    exact .atPiece .done (Piece.fails_of_read hread)
  | case3 => cases h
  | case4 passed depth ch rest piece hread next hdepth ih =>
    obtain ⟨after, hafter, hstands⟩ := Piece.stands_of_read hread
    rw [hafter, List.drop_left] at ih h
    rw [hafter]
    exact .cons hstands hdepth (ih (eq_error_of_map_eq_error h))

theorem readFrom_piece {after : Text} (hstands : piece.Stands after)
    (hdepth : piece.depthAfter? depth = some next) :
    readFrom passed depth (piece.text ++ after) =
      (readFrom (passed + piece.text.length) next after).map (piece :: ·) := by
  obtain ⟨ch, rest, hcons⟩ := List.exists_cons_of_ne_nil
    (List.append_ne_nil_of_left_ne_nil piece.text_ne_nil after)
  have hread := hstands.read hcons.symm
  rw [hcons, readFrom, hread]
  simp only [hdepth]
  rw [← hcons, List.drop_left]

/-- Reading goes along a trail. -/
theorem Trail.readFrom {pieces : Code} {last : Nat} {rest : Text}
    (h : Trail depth pieces last rest) :
    Code.readFrom passed depth (text pieces ++ rest) =
      (Code.readFrom (passed + (text pieces).length) last rest).map (pieces ++ ·) := by
  induction h generalizing passed with
  | done => exact (congrFun Except.map_id _).symm
  | @step _ _ _ piece more _ hstands hdepth _ ih =>
    rw [text_cons, List.length_append, ← Nat.add_assoc, List.append_assoc,
      readFrom_piece hstands hdepth, ih]
    cases Code.readFrom (passed + piece.text.length + (text more).length) _ _ <;> rfl

/-- **The reading of a block fails where its trail of pieces cannot go on.** -/
theorem readFrom_eq_error_iff :
    readFrom passed depth s = .error fault ↔ FailsAfter passed depth s fault := by
  constructor
  · exact failsAfter_of_readFrom
  · intro h
    cases h with
    | @atEnd pieces last htrail =>
      rw [← List.append_nil (text pieces), htrail.readFrom, readFrom, List.append_nil]
      rfl
    | @atPiece pieces last rest f htrail hfails =>
      obtain ⟨ch, more, rfl⟩ := List.exists_cons_of_ne_nil hfails.ne_nil
      rw [htrail.readFrom, readFrom, hfails.read rfl]
      rfl

end Code

/-! ## 3. Lexemes -/

/-- `Stuck s fault`: no lexeme can be read at the text `s`, for one of these reasons. -/
inductive Stuck : Text → Fault → Prop where
  /-- No form starts here. -/
  | nothing {ch : Char} {more : Text} : isBlank ch = false →
      (∀ form, Form.startsHere form (ch :: more) = false) → Stuck (ch :: more) (.unknownAt 0)
  /-- A number does not fit. -/
  | number {digits rest : Text} : IsRun Char.isDigit digits → Stops Char.isDigit rest →
      Text.wordLimit ≤ digits.decimal →
      Stuck (digits ++ rest) ⟨.unreadable digits, 0, digits.length⟩
  /-- A word is no keyword, and goes on past none. -/
  | word {word rest : Text} : IsPercentWord word → Stops isNameChar rest →
      (∀ keyword ∈ keywords, ¬ keyword <+: word) →
      Stuck (word ++ rest) ⟨.unknown, 0, word.length⟩
  /-- A block is never closed, or something in it cannot be read. -/
  | code {s : Text} {fault : Fault} : Code.FailsAfter 1 0 s fault → Stuck ('{' :: s) fault
  /-- A string is never closed. -/
  | string {more : Text} : '"' ∉ more →
      Stuck ('"' :: more) ⟨.openQuote '"' 0, more.length + 1, more.length + 1⟩
  /-- A comment is never closed. -/
  | comment {more : Text} : ¬ commentClosing <:+: more →
      Stuck (commentOpening ++ more)
        ⟨.openComment 0, (commentOpening ++ more).length, (commentOpening ++ more).length⟩

theorem readNumber_eq_error {s : Text} {fault : Fault} (hdigit : s.head?.any Char.isDigit = true)
    (h : readNumber s = .error fault) : Stuck s fault := by
  have hsplit := List.takeWhile_append_dropWhile (p := Char.isDigit) (l := s)
  have hne : s.takeWhile Char.isDigit ≠ [] := by
    cases s with
    | nil => cases hdigit
    | cons ch rest =>
      have hch : ch.isDigit = true := hdigit
      simp [hch]
  have hlarge : Text.wordLimit ≤ Text.decimal (s.takeWhile Char.isDigit) ∧
      fault = ⟨.unreadable (s.takeWhile Char.isDigit), 0, (s.takeWhile Char.isDigit).length⟩ := by
    simp only [readNumber, Text.wordValue?, if_neg hne] at h
    split at h
    case h_1 => cases h
    case h_2 hvalue =>
      split at hvalue
      · cases hvalue
      case isFalse hlarge => exact ⟨Nat.le_of_not_lt hlarge, (Except.error.inj h).symm⟩
  obtain ⟨hlarge, rfl⟩ := hlarge
  have hstuck := Stuck.number ⟨hne, fun ch hch => Text.of_mem_takeWhile hch⟩
    (Text.stops_dropWhile Char.isDigit s) hlarge
  rwa [hsplit] at hstuck

/-- A word that is looked up in vain begins with no keyword. -/
theorem not_prefix_of_unlisted {word : Text} (hempty : word ≠ emptyWord)
    (hdirective : Directive.ofKeyword? word = none) (hextends : ¬ extendsKeyword word = true) :
    ∀ keyword ∈ keywords, ¬ keyword <+: word := by
  intro keyword hkeyword hpre
  by_cases he : keyword = word
  · subst he
    rcases List.mem_append.1 hkeyword with hd | hd
    · obtain ⟨d, -, rfl⟩ := List.mem_map.1 hd
      rw [Directive.ofKeyword?_keyword] at hdirective
      cases hdirective
    · exact hempty (List.mem_singleton.1 hd)
  · exact hextends (extendsKeyword_iff.2 ⟨keyword, hkeyword, hpre, he⟩)

theorem stuck_percentWord {s : Text} {fault : Fault}
    (h : Form.percentWord.lex? s = some (.error fault)) : Stuck s fault := by
  obtain ⟨m, hm⟩ := Option.isSome_iff_exists.1 (Form.lex?_eq_some_iff.1 h).1
  obtain ⟨word, rest, rfl, hword, hrest, rfl⟩ := Pattern.match?_percentWord_iff.1 hm
  rw [Lexes.lex?_percentWord hword hrest] at h
  split at h
  case isTrue => cases h
  case isFalse hempty =>
    split at h
    case h_1 => cases h
    case h_2 hdirective =>
      split at h
      case isTrue => cases h
      case isFalse hextends =>
        cases h
        exact .word hword hrest (not_prefix_of_unlisted hempty hdirective hextends)

/-- **A form that starts and cannot be read is stuck** for its own reason. Tags, names, character
literals and punctuators are always read where they start. -/
theorem Form.stuck_of_lex? {form : Form} {s : Text} {fault : Fault}
    (h : form.lex? s = some (.error fault)) : Stuck s fault := by
  obtain ⟨hstarts, hread⟩ := lex?_eq_some_iff.1 h
  cases form with
  | punctuator =>
    simp only [startsHere, Bool.or_eq_true, beq_iff_eq] at hstarts
    rcases hstarts with hhead | hhead
    · obtain ⟨rest, rfl⟩ := List.head?_eq_some_iff.1 hhead
      cases hread
    · obtain ⟨rest, rfl⟩ := List.head?_eq_some_iff.1 hhead
      cases hread
  | number => exact readNumber_eq_error hstarts hread
  | tag =>
    obtain ⟨m, hm⟩ := Option.isSome_iff_exists.1 hstarts
    simp [Form.read, readPattern, hm, Except.map] at hread
  | identifier =>
    obtain ⟨m, hm⟩ := Option.isSome_iff_exists.1 hstarts
    simp [Form.read, readIdentifier, readPattern, hm, Except.map] at hread
  | percentWord => exact stuck_percentWord h
  | userCode =>
    obtain ⟨rest, rfl⟩ := List.head?_eq_some_iff.1 (beq_iff_eq.1 hstarts)
    have hcode := eq_error_of_map_eq_error hread
    rw [Code.read, if_pos rfl] at hcode
    exact .code (Code.readFrom_eq_error_iff.1 (eq_error_of_map_eq_error hcode))
  | stringLiteral =>
    obtain ⟨more, rfl⟩ := List.head?_eq_some_iff.1 (beq_iff_eq.1 hstarts)
    obtain ⟨hmem, rfl⟩ := readQuoted_eq_error_iff.1 (eq_error_of_map_eq_error hread)
    exact .string hmem
  | comment =>
    obtain ⟨more, rfl⟩ := List.isPrefixOf_iff_prefix.1 hstarts
    obtain ⟨hclosing, rfl⟩ := readComment_eq_error_iff.1 (eq_error_of_map_eq_error hread)
    exact .comment hclosing
  | charLiteral =>
    obtain ⟨m, hm⟩ := Option.isSome_iff_exists.1 hstarts
    simp [Form.read, readPattern, hm, Except.map] at hread

/-- A number that does not fit is passed and refused. -/
theorem lex?_tooLarge {digits rest : Text} (hrun : IsRun Char.isDigit digits)
    (hrest : Stops Char.isDigit rest) (hlarge : Text.wordLimit ≤ digits.decimal) :
    Form.number.lex? (digits ++ rest) =
      some (.error ⟨.unreadable digits, 0, digits.length⟩) := by
  refine Form.lex?_eq_some_iff.2 ⟨?_, ?_⟩
  · obtain ⟨ch, more, rfl⟩ := List.exists_cons_of_ne_nil hrun.1
    exact hrun.2 ch List.mem_cons_self
  · have hnone : Text.wordValue? digits = none := by
      rw [Text.wordValue?, if_neg hrun.1, if_neg (Nat.not_lt_of_le hlarge)]
    simp only [Form.read, readNumber, Text.takeWhile_append_of_stops hrun.2 hrest, hnone]

/-- A word that begins with no keyword is passed and refused. -/
theorem lex?_unlisted {word rest : Text} (hword : IsPercentWord word)
    (hrest : Stops isNameChar rest) (hnone : ∀ keyword ∈ keywords, ¬ keyword <+: word) :
    Form.percentWord.lex? (word ++ rest) = some (.error ⟨.unknown, 0, word.length⟩) := by
  obtain ⟨hempty, hdirective⟩ :=
    ofKeyword?_of_not_mem fun hmem => hnone word hmem List.prefix_rfl
  have hextends : ¬ extendsKeyword word = true := fun hext => by
    obtain ⟨keyword, hkeyword, hpre, -⟩ := extendsKeyword_iff.1 hext
    exact hnone keyword hkeyword hpre
  rw [Lexes.lex?_percentWord hword hrest, if_neg hempty, hdirective]
  simp only [if_neg hextends]

/-- **Where no lexeme can be read, decomposing stops** with the fault. -/
theorem Stuck.decompose {s : Text} {fault : Fault} (h : Stuck s fault) :
    decompose s = ⟨[], some fault⟩ := by
  -- a form that starts and fails is the one that is tried first
  have hfails : ∀ {s : Text} {fault : Fault} (form : Form), form.lex? s = some (.error fault) →
      GrammarLexer.decompose s = ⟨[], some fault⟩ := by
    intro s fault form hlex
    have hfirst := Form.lexFirst?_all_iff.2 hlex
    obtain ⟨ch, hhead, hopened⟩ := Option.bind_eq_some_iff.1
      (Form.openedBy_of_startsHere (Form.lex?_eq_some_iff.1 hlex).1)
    have hblank := Form.not_isBlank_of_openedBy hopened
    obtain ⟨rest, rfl⟩ := List.head?_eq_some_iff.1 hhead
    rw [GrammarLexer.decompose, if_neg (by rw [hblank]; decide)]
    split
    case h_1 hnone => rw [hfirst] at hnone; cases hnone
    case h_2 herror => rw [hfirst] at herror; cases herror; rfl
    case h_3 hok => rw [hfirst] at hok; cases hok
  cases h with
  | @nothing ch more hblank hnone =>
    have hfirst : Form.lexFirst? Form.all (ch :: more) = none := by
      refine List.findSome?_eq_none_iff.2 fun form _ => ?_
      rw [Form.lex?, hnone form]
      rfl
    rw [GrammarLexer.decompose, if_neg (by rw [hblank]; decide)]
    split
    case h_1 => rfl
    case h_2 herror => rw [hfirst] at herror; cases herror
    case h_3 hok => rw [hfirst] at hok; cases hok
  | number hrun hrest hlarge => exact hfails .number (lex?_tooLarge hrun hrest hlarge)
  | word hword hrest hnone => exact hfails .percentWord (lex?_unlisted hword hrest hnone)
  | @code s _ hcode =>
    refine hfails .userCode (Form.lex?_eq_some_iff.2 ⟨rfl, ?_⟩)
    rw [Form.read, Code.read, if_pos rfl, Code.readFrom_eq_error_iff.2 hcode]
    rfl
  | @string more hmem =>
    refine hfails .stringLiteral (Form.lex?_eq_some_iff.2 ⟨rfl, ?_⟩)
    rw [Form.read, readQuoted_open hmem]
    rfl
  | @comment more hclosing =>
    refine hfails .comment (Form.lex?_eq_some_iff.2
      ⟨List.isPrefixOf_iff_prefix.2 (List.prefix_append _ _), ?_⟩)
    rw [Form.read, readComment_eq_error_iff.2 ⟨hclosing, rfl⟩]
    rfl

/-! ## 4. Texts -/

/-- `ReadsTo items s rest`: the text `s` is made up of these blanks and lexemes, and then of
`rest`. -/
inductive ReadsTo : List Item → Text → Text → Prop where
  | done {rest : Text} : ReadsTo [] rest rest
  | blank {ch : Char} {items : List Item} {s rest : Text} : isBlank ch = true →
      ReadsTo items s rest → ReadsTo (.blank ch :: items) (ch :: s) rest
  | lexeme {value : Lexeme} {items : List Item} {word s rest : Text} : Lexes value word s →
      ReadsTo items s rest → ReadsTo (.lexeme value word :: items) (word ++ s) rest

theorem ReadsTo.text_eq {items : List Item} {s rest : Text} (h : ReadsTo items s rest) :
    s = items.flatMap Item.text ++ rest := by
  induction h with
  | done => rfl
  | blank _ _ ih =>
    rw [List.flatMap_cons, Item.text, List.append_assoc, ← ih, List.singleton_append]
  | lexeme _ _ ih => rw [List.flatMap_cons, Item.text, List.append_assoc, ← ih]

theorem Reads.readsTo {items : List Item} {s : Text} (h : Reads items s) :
    ReadsTo items s [] := by
  induction h with
  | done => exact .done
  | blank hblank _ ih => exact .blank hblank ih
  | lexeme hlexes _ ih => exact .lexeme hlexes ih

/-- Items in front of what is stuck are found. -/
theorem ReadsTo.decompose {items : List Item} {s rest : Text} {fault : Fault}
    (h : ReadsTo items s rest) (hstuck : Stuck rest fault) :
    decompose s = ⟨items, some fault⟩ := by
  induction h with
  | done => exact hstuck.decompose
  | blank hblank _ ih =>
    rw [decompose_blank hblank, ih hstuck]
    rfl
  | lexeme hlexes _ ih =>
    rw [hlexes.decompose, ih hstuck]
    rfl

theorem exists_stuck_of_decompose {s : Text} {fault : Fault}
    (h : (decompose s).fault = some fault) :
    ∃ rest, ReadsTo (decompose s).items s rest ∧ Stuck rest fault := by
  fun_induction decompose s with
  | case1 => cases h
  | case2 ch rest hblank ih =>
    obtain ⟨rest', hreads, hstuck⟩ := ih h
    exact ⟨rest', .blank hblank hreads, hstuck⟩
  | case3 ch rest hblank hnone =>
    cases h
    refine ⟨ch :: rest, .done, .nothing (Bool.eq_false_iff.2 hblank) fun form => ?_⟩
    have hform := List.findSome?_eq_none_iff.1 hnone form (Form.mem_all form)
    refine Bool.eq_false_iff.2 fun hstarts => ?_
    rw [Form.lex?, if_pos hstarts] at hform
    cases hform
  | case4 ch rest hblank form f hfirst =>
    cases h
    exact ⟨ch :: rest, .done, Form.stuck_of_lex? (Form.lex?_of_lexFirst? hfirst)⟩
  | case5 ch rest hblank form taken hfirst ih =>
    obtain ⟨word, after, hs, hwidth, hlexes⟩ :=
      Form.isLexeme_of_lex? (Form.lex?_of_lexFirst? hfirst)
    rw [hs, hwidth] at h ih ⊢
    rw [List.drop_left] at h ih
    rw [List.drop_left, List.take_left]
    obtain ⟨rest', hreads, hstuck⟩ := ih h
    exact ⟨rest', .lexeme hlexes hreads, hstuck⟩

/-- **Decomposing stops at the first text that is stuck**, after the items before it. -/
theorem decompose_eq_fault_iff {items : List Item} {s : Text} {fault : Fault} :
    decompose s = ⟨items, some fault⟩ ↔ ∃ rest, ReadsTo items s rest ∧ Stuck rest fault := by
  constructor
  · intro h
    have hstuck : ∃ rest, ReadsTo (decompose s).items s rest ∧ Stuck rest fault :=
      exists_stuck_of_decompose (by rw [h])
    rw [h] at hstuck
    exact hstuck
  · rintro ⟨rest, hreads, hstuck⟩
    exact hreads.decompose hstuck

/-! ## 5. Tokens before a fault -/

/-- Items lead up to a text, whether or not the decomposition goes on there. -/
theorem exists_readsTo_decompose (s : Text) : ∃ rest, ReadsTo (decompose s).items s rest := by
  cases hfault : (decompose s).fault with
  | none => exact ⟨[], (reads_decompose hfault).readsTo⟩
  | some fault =>
    obtain ⟨rest, hreads, -⟩ := exists_stuck_of_decompose hfault
    exact ⟨rest, hreads⟩

/-- **Every token comes from a lexeme that the items before it lead up to**, and its position is
counted over them. -/
theorem ReadsTo.exists_lexeme {items : List Item} {s rest : Text} {t : Token} {position : Position}
    (h : ReadsTo items s rest) (ht : t ∈ tokensFrom position items) :
    ∃ before value word more after, items = before ++ .lexeme value word :: more ∧
      ReadsTo before s (word ++ after) ∧ Lexes value word after ∧
      value.token? (position.after (before.flatMap Item.text)) = some t := by
  induction h generalizing position with
  | done => cases ht
  | @blank ch _ _ _ hblank _ ih =>
    obtain ⟨before, value, word, more, after, rfl, hreads, hlexes, htoken⟩ := ih ht
    exact ⟨.blank ch :: before, value, word, more, after, rfl, .blank hblank hreads, hlexes, htoken⟩
  | @lexeme value items word s _ hlexes _ ih =>
    rcases List.mem_append.1 ht with ht | ht
    · exact ⟨[], value, word, items, s, rfl, .done, hlexes, Option.mem_toList.1 ht⟩
    · obtain ⟨before, value', word', more, after, rfl, hreads, hlexes', htoken⟩ := ih ht
      refine ⟨.lexeme value word :: before, value', word', more, after, rfl, .lexeme hlexes hreads,
        hlexes', ?_⟩
      rw [List.flatMap_cons, Position.after_append]
      exact htoken

/-- The tokens of a scan, also of one that fails. -/
theorem tokens_scanLines (lines : List Line) :
    (scanLines lines).tokens =
      tokensFrom (startOf lines) (decompose (lines.flatMap Line.text)).items := by
  cases lines with
  | nil =>
    rw [List.flatMap_nil, decompose]
    rfl
  | cons first more =>
    rw [scanLines, scanText, Decomposition.tokens, Cursor.position_start]
    rfl

end GrammarLexer
