import GrammarLexer.Proofs.Faults
import GrammarLexer.Proofs.Tracking

/-!
# What an error says of the text

An error names a place and a cause. The cause stands at that place: the run that it says is open
was opened there and is closed nowhere after it, and what it says nothing reads is read by nothing.

* `BeginsAt`, `TopLevel`, `InCode` -- where a text begins: its position, and whether reading comes
  to it outside or inside action code;
* `Closes.of_piece`, `Code.Trail.closes` -- whatever closes a block goes along the pieces of a
  trail, so that no block begins where one is still open at the end;
* `LexError.Diagnoses` -- what is so if an error is right about a text;
* `diagnoses_of_scanFrom` -- **every error of a scan is right.**
-/

namespace GrammarLexer

open Text (Stops IsRun)

/-! ## 1. Places in a text -/

/-- `BeginsAt n s p rest`: in the text `s`, whose first line is line `n`, the position `p` is where
its part `rest` begins. -/
def BeginsAt (n : Nat) (s : Text) (p : Position) (rest : Text) : Prop :=
  ∃ pre, s = pre ++ rest ∧ p = Position.after ⟨n, 1⟩ pre

/-- Blanks and lexemes lead through the text to its part `rest`. -/
def TopLevel (s rest : Text) : Prop := ∃ items, ReadsTo items s rest

/-- The part `rest` of the text is in action code: blanks and lexemes lead to an opening brace, and
from there pieces lead to `rest`, none of which closes the block. -/
def InCode (s rest : Text) : Prop :=
  ∃ pieces last, TopLevel s ('{' :: (Code.text pieces ++ rest)) ∧ Code.Trail 0 pieces last rest

/-! ## 2. Blocks that are still open -/

namespace Closes

variable {depth : Nat} {t u after : Text}

theorem of_plain_run {w : Text} (hw : ∀ ch ∈ w, isPlain ch = true ∧ ch ≠ '/') (h : Closes depth t)
    (hs : t ++ u = w ++ after) : ∃ t', t = w ++ t' ∧ Closes depth t' := by
  induction w generalizing t with
  | nil => exact ⟨t, rfl, h⟩
  | cons ch w ih =>
    obtain ⟨x, t, rfl⟩ := List.exists_cons_of_ne_nil (l := t) fun hnil => not_nil (hnil ▸ h)
    obtain ⟨rfl, htail⟩ := List.cons.inj hs
    obtain ⟨hplain, hslash⟩ := hw x List.mem_cons_self
    obtain ⟨t', rfl, ht'⟩ := ih (fun ch hch => hw ch (List.mem_cons_of_mem _ hch))
      (h.of_plain hplain (Piece.not_commentOpening_cons _ hslash)) htail
    exact ⟨t', rfl, ht'⟩

theorem of_quoted_run {mark : Char} {inner : Text} (hmark : isQuote mark = true)
    (hinner : mark ∉ inner) (h : Closes depth t) (hs : t ++ u = quotedRun mark inner ++ after) :
    ∃ t', t = quotedRun mark inner ++ t' ∧ Closes depth t' := by
  cases h with
  | quoted _ hinner' hrest =>
    rw [List.append_assoc] at hs
    obtain ⟨rfl, rfl, -⟩ := quotedRun_unique hinner' hinner hs
    exact ⟨_, rfl, hrest⟩
  | comment =>
    rw [List.append_assoc] at hs
    exact absurd hs.symm (quotedRun_append_ne hmark)
  | plain hplain =>
    obtain ⟨rfl, -⟩ := List.cons.inj hs
    rw [(isPlain_iff.1 hplain).1] at hmark
    cases hmark
  | _ =>
    -- a brace is no quote
    obtain ⟨rfl, -⟩ := List.cons.inj hs
    exact absurd hmark (by decide)

theorem of_comment_run {inner : Text} (hinner : Text.EndsFirst commentClosing inner)
    (h : Closes depth t) (hs : t ++ u = commentRun inner ++ after) :
    ∃ t', t = commentRun inner ++ t' ∧ Closes depth t' := by
  cases h with
  | quoted hquote =>
    rw [List.append_assoc] at hs
    exact absurd hs (quotedRun_append_ne hquote)
  | comment hinner' hrest =>
    rw [List.append_assoc] at hs
    obtain ⟨rfl, -⟩ := commentRun_unique hinner' hinner hs
    exact ⟨_, rfl, hrest⟩
  | @plain _ ch t hplain hnext hrest =>
    -- what closes goes on after the slash, with the star
    obtain ⟨x, t, rfl⟩ := List.exists_cons_of_ne_nil (l := t) fun hnil => not_nil (hnil ▸ hrest)
    obtain ⟨hslash, hs⟩ := List.cons.inj hs
    exact absurd ⟨hslash, congrArg some (List.cons.inj hs).1⟩ hnext
  | _ => cases hs

/-- **What closes a block goes along its pieces**: it begins with the piece that stands first, and
goes on with what closes the block after that piece, or is over with it. -/
theorem of_piece {piece : Piece} {next : Nat} (h : Closes depth t) (hstands : piece.Stands after)
    (hdepth : piece.depthAfter? depth = some next) (hs : t ++ u = piece.text ++ after) :
    ∃ t', t = piece.text ++ t' ∧ Closes next t' := by
  obtain ⟨x, t, rfl⟩ := List.exists_cons_of_ne_nil (l := t) fun hnil => not_nil (hnil ▸ h)
  cases hstands with
  | opening =>
    cases hdepth
    obtain ⟨rfl, -⟩ := List.cons.inj hs
    exact ⟨t, rfl, h.of_opening⟩
  | closing =>
    obtain ⟨rfl, -⟩ := List.cons.inj hs
    rcases h.of_closing with ⟨rfl, -⟩ | ⟨below, rfl, hbelow⟩
    · cases hdepth
    · cases hdepth
      exact ⟨t, rfl, hbelow⟩
  | quoted hquote hmem =>
    cases hdepth
    exact of_quoted_run hquote hmem h hs
  | comment hfirst =>
    cases hdepth
    exact of_comment_run hfirst h hs
  | placeholder hp =>
    cases hdepth
    exact of_plain_run hp.isPlaceholder.isPlain h hs
  | plain hquote hleft hright hopen =>
    cases hdepth
    obtain ⟨rfl, -⟩ := List.cons.inj hs
    have hopen' : ¬ commentOpening <+: x :: t := fun hpre => hopen (hpre.trans ⟨u, hs⟩)
    exact ⟨t, rfl, h.of_plain (isPlain_iff.2 ⟨hquote, hleft, hright⟩) hopen'⟩

end Closes

/-- What closes a block goes along all pieces of a trail. -/
theorem Code.Trail.closes {depth last : Nat} {pieces : Code} {t u rest : Text}
    (h : Trail depth pieces last rest) (ht : Closes depth t) (hs : t ++ u = text pieces ++ rest) :
    ∃ t', t = text pieces ++ t' ∧ Closes last t' := by
  induction h generalizing t with
  | done => exact ⟨t, rfl, ht⟩
  | @step _ _ _ piece more rest hstands hdepth _ ih =>
    rw [text_cons, List.append_assoc] at hs
    obtain ⟨more, rfl, hmore⟩ := ht.of_piece hstands hdepth hs
    rw [List.append_assoc] at hs
    obtain ⟨t', rfl, ht'⟩ := ih hmore (List.append_cancel_left hs)
    exact ⟨t', by rw [text_cons, List.append_assoc], ht'⟩

/-- **No block begins at a brace from which a trail leads to the end of the text.** -/
theorem Code.Trail.not_isBlock {last : Nat} {pieces : Code} {b : Text}
    (h : Trail 0 pieces last []) (hb : IsBlock b) : ¬ b <+: '{' :: text pieces := by
  rintro ⟨u, hu⟩
  obtain ⟨t, rfl, ht⟩ := isBlock_iff.1 hb
  have hs : t ++ u = text pieces ++ [] := by
    rw [List.append_nil]
    exact (List.cons.inj hu).2
  obtain ⟨t', rfl, ht'⟩ := h.closes ht hs
  rw [List.append_assoc, List.append_cancel_left_eq] at hs
  rw [(List.append_eq_nil_iff.1 hs).1] at ht'
  exact Closes.not_nil ht'

/-! ## 3. Errors that are right -/

/-- Nothing reads `found`, which stands at the start of `rest` outside action code: no form starts
with the character there; or a word after a percent sign is not listed; or the digits there, all of
them, are of a number that does not fit. In the first two cases `found` goes up to the next
blank. -/
inductive Unreadable (found rest : Text) : Prop where
  | nothing : found = rest.word → (∀ form, Form.startsHere form rest = false) →
      (∀ value word after, rest = word ++ after → ¬ Lexes value word after) → Unreadable found rest
  | word {word after : Text} : found = rest.word → rest = word ++ after → IsPercentWord word →
      Stops isNameChar after → (∀ keyword ∈ keywords, ¬ keyword <+: word) → word <+: found →
      Unreadable found rest
  | number {after : Text} : rest = found ++ after → IsRun Char.isDigit found →
      Stops Char.isDigit after → Text.wordLimit ≤ found.decimal → Unreadable found rest

/-- `e.Diagnoses n s`: the error is right about the text `s`, whose first line is line `n`. -/
def LexError.Diagnoses (n : Nat) (s : Text) : LexError → Prop
  | .quoteMismatch mark opened site =>
    ∃ more, BeginsAt n s opened (mark :: more) ∧ mark ∉ more ∧
      site.position = Position.after ⟨n, 1⟩ s ∧
      (mark = '"' ∧ TopLevel s (mark :: more) ∨ isQuote mark = true ∧ InCode s (mark :: more))
  | .commentMismatch opened site =>
    ∃ more, BeginsAt n s opened (commentOpening ++ more) ∧ ¬ commentClosing <:+: more ∧
      site.position = Position.after ⟨n, 1⟩ s ∧
      (TopLevel s (commentOpening ++ more) ∨ InCode s (commentOpening ++ more))
  | .braceMismatch opened site =>
    ∃ pieces last, BeginsAt n s opened ('{' :: Code.text pieces) ∧
      TopLevel s ('{' :: Code.text pieces) ∧ Code.Trail 0 pieces last [] ∧
      (∀ b, IsBlock b → ¬ b <+: '{' :: Code.text pieces) ∧
      site.position = Position.after ⟨n, 1⟩ s
  | .unknownToken found site =>
    found ≠ [] ∧ (∀ ch ∈ found, isBlank ch = false) ∧ ∃ rest, BeginsAt n s site.position rest ∧
      (TopLevel s rest ∧ found <+: rest ∧ Unreadable found rest ∨
        InCode s rest ∧ ∃ p : Placeholder, p.WellFormed ∧ Longest IsPlaceholder p.text rest ∧
          p.digits = some found ∧ Text.wordLimit ≤ found.decimal)
  | .unreachableStage _ => False

/-! ## 4. Every error is right -/

theorem Text.word_prefix (s : Text) : s.word <+: s := List.takeWhile_prefix _

theorem Text.not_isBlank_of_mem_word {s : Text} {ch : Char} (h : ch ∈ s.word) :
    isBlank ch = false := by
  simpa using of_mem_takeWhile h

theorem isBlank_of_isDigit {ch : Char} (h : ch.isDigit = true) : isBlank ch = false := by
  refine Bool.eq_false_iff.2 fun hblank => ?_
  rw [isDigit_of_isBlank hblank] at h
  cases h

/-- A word after a percent sign has no blank in it. -/
theorem IsPercentWord.not_isBlank {word : Text} (h : IsPercentWord word) :
    ∀ ch ∈ word, isBlank ch = false := by
  obtain ⟨name, rfl, hname⟩ := h
  intro ch hch
  rcases List.mem_cons.1 hch with rfl | hch
  · exact GrammarLexer.not_isBlank (by decide) (by decide)
  · refine Bool.eq_false_iff.2 fun hblank => ?_
    have hnameChar := isNameChar_of_isBlank hblank
    rw [hname.isNameChar ch hch] at hnameChar
    cases hnameChar

theorem Fault.error_shift (fault : Fault) (c : Cursor) (k : Nat) :
    (fault.shift k).error c = fault.error (c.skip k) := by
  obtain ⟨cause, place, stop⟩ := fault
  cases cause <;> simp [error, shift, Cause.shift, Cursor.skip_add]

section

variable {n : Nat} {s passed : Text} {c : Cursor} {fault : Fault}

theorem Cursor.Passed.beginsAt (h : c.Passed s n passed) : BeginsAt n s c.position c.rest :=
  ⟨passed, h.split.symm, h.position_eq⟩

/-- A cursor that has skipped everything is at the end. -/
theorem Cursor.Passed.position_end (h : c.Passed s n passed) {k : Nat} (hk : c.rest.length ≤ k) :
    (c.skip k).position = Position.after ⟨n, 1⟩ s := by
  rw [(h.skip k).position_eq, List.take_of_length_le hk, h.split]

/-- **What fails in action code is told as it is.** -/
theorem Piece.Fails.diagnoses (h : Fails c.rest fault) (hc : c.Passed s n passed)
    (hcode : InCode s c.rest) : (fault.error c).Diagnoses n s := by
  have hbegins := hc.beginsAt
  generalize hrest : c.rest = rest at h hcode hbegins
  cases h with
  | @quote mark more hquote hmem =>
    refine ⟨more, hbegins, hmem, hc.position_end ?_, .inr ⟨hquote, hcode⟩⟩
    exact Nat.le_of_eq (congrArg List.length hrest)
  | @comment more hclosing =>
    refine ⟨more, hbegins, hclosing, hc.position_end ?_, .inr hcode⟩
    exact Nat.le_of_eq (congrArg List.length hrest)
  | @placeholder p digits after hp hlong hdigits hlarge =>
    have hrun := hp.digits digits hdigits
    exact ⟨hrun.1, fun ch hch => isBlank_of_isDigit (hrun.2 ch hch), _, hbegins,
      .inr ⟨hcode, p, hp, hlong, hdigits, hlarge⟩⟩

/-- **What is stuck is told as it is.** -/
theorem Stuck.diagnoses (h : Stuck c.rest fault) (hc : c.Passed s n passed)
    (htop : TopLevel s c.rest) : (fault.error c).Diagnoses n s := by
  have hbegins := hc.beginsAt
  generalize hrest : c.rest = rest at h htop hbegins
  cases h with
  | @nothing ch more hblank hnone =>
    have hword : Text.word (ch :: more) ≠ [] := by simp [Text.word, hblank]
    have herror : Fault.error (.unknownAt 0) c = .unknownToken (Text.word (ch :: more)) c.site := by
      simp only [Fault.error, Fault.unknownAt, Cursor.skip_zero, Cursor.unknownToken, hrest,
        if_neg hword]
    rw [herror]
    refine ⟨hword, fun ch hch => Text.not_isBlank_of_mem_word hch, _, hbegins,
      .inl ⟨htop, Text.word_prefix _, .nothing rfl hnone ?_⟩⟩
    intro value word after hs hlexes
    -- where a lexeme begins, its form starts
    have hstarts := (Form.lex?_eq_some_iff.1 hlexes.lex?).1
    rw [← hs, hnone] at hstarts
    cases hstarts
  | @number digits after hrun hafter hlarge =>
    exact ⟨hrun.1, fun ch hch => isBlank_of_isDigit (hrun.2 ch hch), _, hbegins,
      .inl ⟨htop, List.prefix_append _ _, .number rfl hrun hafter hlarge⟩⟩
  | @word word after hword hafter hnone =>
    have hpre : word <+: Text.word (word ++ after) :=
      Text.prefix_takeWhile (fun ch hch => by rw [hword.not_isBlank ch hch]; rfl)
        (List.prefix_append _ _)
    have hne : Text.word (word ++ after) ≠ [] := by
      obtain ⟨name, rfl, -⟩ := hword
      exact fun hnil => List.cons_ne_nil _ _ (List.prefix_nil.1 (hnil ▸ hpre))
    have herror : Fault.error ⟨.unknown, 0, word.length⟩ c =
        .unknownToken (Text.word (word ++ after)) c.site := by
      simp only [Fault.error, Cursor.skip_zero, Cursor.unknownToken, hrest, if_neg hne]
    rw [herror]
    exact ⟨hne, fun ch hch => Text.not_isBlank_of_mem_word hch, _, hbegins,
      .inl ⟨htop, Text.word_prefix _, .word rfl rfl hword hafter hnone hpre⟩⟩
  | @code t _ hfails =>
    cases hfails with
    | @atEnd pieces last htrail =>
      refine ⟨pieces, last, hbegins, htop, htrail, fun b hb => htrail.not_isBlock hb,
        hc.position_end ?_⟩
      refine Nat.le_of_eq ?_
      rw [hrest, List.length_cons, Nat.add_comm]
    | @atPiece pieces last rest f htrail hfails =>
      have hskip := hc.skip (1 + (Code.text pieces).length)
      have hafter : (c.skip (1 + (Code.text pieces).length)).rest = rest := by
        rw [Cursor.rest_skip, hrest, Nat.add_comm, List.drop_succ_cons, List.drop_left]
      rw [Fault.error_shift]
      refine Piece.Fails.diagnoses ?_ hskip ?_
      · rwa [hafter]
      · rw [hafter]
        exact ⟨pieces, last, htop, htrail⟩
  | @string more hmem =>
    refine ⟨more, hbegins, hmem, hc.position_end ?_, .inl ⟨rfl, htop⟩⟩
    exact Nat.le_of_eq (congrArg List.length hrest)
  | @comment more hclosing =>
    refine ⟨more, hbegins, hclosing, hc.position_end ?_, .inl htop⟩
    exact Nat.le_of_eq (congrArg List.length hrest)

end

/-- The cursor after the items of a text has passed their text. -/
theorem ReadsTo.passed {items : List Item} {s rest : Text} (h : ReadsTo items s rest) (n : Nat) :
    ((Cursor.start s n).skip (items.flatMap Item.text).length).Passed s n
        (items.flatMap Item.text) ∧
      ((Cursor.start s n).skip (items.flatMap Item.text).length).rest = rest := by
  have hs := h.text_eq
  have hpassed := (Cursor.Passed.start s n).skip (items.flatMap Item.text).length
  have hrest : (Cursor.start s n).rest = items.flatMap Item.text ++ rest := hs
  rw [List.nil_append, hrest, List.take_left] at hpassed
  refine ⟨hpassed, ?_⟩
  rw [Cursor.rest_skip, hrest, List.drop_left]

/-- A scan fails where reading is stuck, with the error that the fault is there. -/
theorem scanFrom_eq_error_iff {n : Nat} {s : Text} {e : LexError} :
    scanFrom n s = .error e ↔ ∃ items rest fault, ReadsTo items s rest ∧ Stuck rest fault ∧
      e = fault.error ((Cursor.start s n).skip (items.flatMap Item.text).length) := by
  rw [scanFrom_eq, scanText, Scan.result]
  constructor
  · intro h
    cases hfault : (decompose s).fault with
    | none =>
      rw [hfault] at h
      cases h
    | some fault =>
      rw [hfault] at h
      cases h
      obtain ⟨rest, hreads, hstuck⟩ := exists_stuck_of_decompose hfault
      exact ⟨_, rest, fault, hreads, hstuck, rfl⟩
  · rintro ⟨items, rest, fault, hreads, hstuck, rfl⟩
    rw [decompose_eq_fault_iff.2 ⟨rest, hreads, hstuck⟩]
    rfl

/-- **Every error of a scan is right.** An open quote, comment or brace was opened where the error
says and is closed nowhere, and the error is found at the end of the text; an apostrophe is such an
opening in action code only. What nothing reads has no blank in it, and is one of these: outside
action code a word, a number or a character that no lexeme is, and in action code the number of a
placeholder, if it does not fit. -/
theorem diagnoses_of_scanFrom {n : Nat} {s : Text} {e : LexError} (h : scanFrom n s = .error e) :
    e.Diagnoses n s := by
  obtain ⟨items, rest, fault, hreads, hstuck, rfl⟩ := scanFrom_eq_error_iff.1 h
  obtain ⟨hpassed, hrest⟩ := hreads.passed n
  refine Stuck.diagnoses ?_ hpassed ?_
  · rwa [hrest]
  · rw [hrest]
    exact ⟨items, hreads⟩

/-- An apostrophe in action code is left open, after a comment with a quote in it. -/
theorem diagnoses_open_apostrophe :
    scanFrom 3 "a\n\x7b/*\"*/'b".toList =
        .error (.quoteMismatch '\'' ⟨4, 7⟩ ⟨⟨4, 9⟩, "\x7b/*\"*/'b".toList⟩) ∧
      (LexError.quoteMismatch '\'' ⟨4, 7⟩ ⟨⟨4, 9⟩, "\x7b/*\"*/'b".toList⟩).Diagnoses 3
        "a\n\x7b/*\"*/'b".toList := by
  have hcomment : Text.EndsFirst commentClosing ['"'] :=
    Text.endsFirst_of_before? (s := "\"*/".toList) rfl
  have htrail : Code.Trail 0 [.comment ['"']] 0 "'b".toList := .step (.comment hcomment) rfl .done
  have hstuck : Stuck "\x7b/*\"*/'b".toList _ := .code (.atPiece htrail (.quote rfl (by decide)))
  have hname : Lexes (.identifier ['a'] false) ['a'] "\n\x7b/*\"*/'b".toList :=
    .name ⟨'a', [], rfl, rfl, by simp⟩ rfl (by decide)
  have hreads : ReadsTo _ "a\n\x7b/*\"*/'b".toList _ := .lexeme hname (.blank rfl .done)
  have hscan : scanFrom 3 "a\n\x7b/*\"*/'b".toList = .error _ :=
    scanFrom_eq_error_iff.2 ⟨_, _, _, hreads, hstuck, rfl⟩
  exact ⟨hscan, diagnoses_of_scanFrom hscan⟩

end GrammarLexer
