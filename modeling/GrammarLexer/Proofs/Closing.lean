import GrammarLexer.Proofs.GuardedCode
import GrammarLexer.Proofs.LongestMatch

/-!
# Where delimited runs close

A quoted run goes up to the very next quote, and a comment up to the first closing mark that does
not overlap its opening one. Nothing in between hides the mark, and without it the whole text is
passed in vain.

* `Text.OccursAfter` -- a mark occurs in a text, its first characters apart;
* `Text.Through` -- the beginning of a text up to the first such mark, the mark included;
* `Text.through_of_before?`, `Text.before?_eq_none_iff_not_occursAfter` -- the search for a mark
  finds it there, or finds that there is none;
* `Cursor.ClosesFirst` -- a run is taken through the first mark, or is found open at the end of the
  text; `Cursor.closesFirst_of_before?` -- why it is;
* `Cursor.delimited_runs_close_first` -- **quoted runs and comments close at the first mark.**
-/

namespace GrammarLexer

/-! ## 1. The first mark -/

namespace Text

/-- The mark occurs in the text, and does so after its first `n` characters. -/
def OccursAfter (n : Nat) (mark s : Text) : Prop := ∃ k, n ≤ k ∧ mark <+: s.drop k

/-- `Through n mark run s`: the text `s` begins with `run`, which ends in the mark, and it is the
first mark of all that begin after the first `n` characters. -/
structure Through (n : Nat) (mark run s : Text) : Prop where
  isPrefix : run <+: s
  closes : ∃ k, n ≤ k ∧ mark <+: s.drop k ∧ run.length = k + mark.length
  first : ∀ k, n ≤ k → mark <+: s.drop k → run.length ≤ k + mark.length

variable {n : Nat} {mark run s : Text}

theorem Through.occursAfter (h : Through n mark run s) : OccursAfter n mark s := by
  obtain ⟨k, hk, hmark, -⟩ := h.closes
  exact ⟨k, hk, hmark⟩

/-- What stands before the mark is not cut short: no mark begins in it. -/
theorem EndsFirst.length_le {inner rest : Text} {j : Nat} (h : EndsFirst mark inner)
    (hmark : mark <+: (inner ++ mark ++ rest).drop j) : inner.length ≤ j := by
  refine Nat.le_of_not_lt fun hlt => ?_
  obtain ⟨q, hq⟩ := hmark
  -- with what comes before it, the early mark is a beginning of the text that ends in the mark
  have hwhole : inner.take j ++ mark ++ q = inner ++ mark ++ rest := by
    have htake : (inner ++ mark ++ rest).take j = inner.take j := by
      rw [List.append_assoc, List.take_append_of_le_length (Nat.le_of_lt hlt)]
    rw [List.append_assoc, hq, ← htake, List.take_append_drop]
  obtain ⟨q', hq'⟩ : inner.take j ++ mark <+: inner ++ mark := by
    refine List.prefix_of_prefix_length_le ⟨q, hwhole⟩ (List.prefix_append _ rest) ?_
    rw [List.length_append, List.length_append, List.length_take]
    omega
  have hnil := h _ _ hq'.symm
  have hlength := congrArg List.length hq'
  rw [hnil, List.append_nil, List.length_append, List.length_append, List.length_take] at hlength
  omega

/-- **The search finds the first mark**: with the opening and the mark, what it gives is the
beginning of the text through that mark. -/
theorem through_of_before? {inner : Text} (hm : mark ≠ []) (h : before? mark s = some inner)
    (opening : Text) :
    Through opening.length mark (opening ++ inner ++ mark) (opening ++ s) := by
  obtain ⟨hfirst, rest, rfl⟩ := (before?_eq_some_iff hm).1 h
  refine ⟨⟨rest, by simp⟩, ⟨opening.length + inner.length, Nat.le_add_right _ _, ?_, ?_⟩,
    fun k hk hmark => ?_⟩
  · rw [List.drop_length_add_append, List.append_assoc, List.drop_left]
    exact List.prefix_append _ _
  · rw [List.length_append, List.length_append]
  · obtain ⟨j, rfl⟩ := Nat.exists_eq_add_of_le hk
    rw [List.drop_length_add_append] at hmark
    have hle := hfirst.length_le hmark
    rw [List.length_append, List.length_append]
    omega

/-- **The search finds nothing** exactly where the mark does not occur after the opening. -/
theorem before?_eq_none_iff_not_occursAfter (hm : mark ≠ []) (opening s : Text) :
    before? mark s = none ↔ ¬ OccursAfter opening.length mark (opening ++ s) := by
  rw [before?_eq_none_iff hm, not_iff_not]
  constructor
  · rintro ⟨p, q, rfl⟩
    refine ⟨opening.length + p.length, Nat.le_add_right _ _, ?_⟩
    rw [List.drop_length_add_append, List.append_assoc, List.drop_left]
    exact List.prefix_append _ _
  · rintro ⟨k, hk, hmark⟩
    obtain ⟨j, rfl⟩ := Nat.exists_eq_add_of_le hk
    rw [List.drop_length_add_append] at hmark
    exact hmark.isInfix.trans (List.drop_suffix j s).isInfix

end Text

/-! ## 2. Answers -/

theorem Form.lex?_comment {s : Text} (h : commentOpening <+: s) :
    Form.comment.lex? s = some (Form.comment.read s) :=
  Form.lex?_eq_some_iff.2 ⟨List.isPrefixOf_iff_prefix.2 h, rfl⟩

/-- The run that an answer is about, marks included, or the error. -/
def Answer.delimited? : Answer → Option (Except LexError Text)
  | quoted result => some result
  | outcome (.lexed _ (.comment inner) _) => some (.ok (commentRun inner))
  | outcome (.errant e) => some (.error e)
  | _ => none

namespace Cursor

/-- `c.ClosesFirst op steps n mark unclosed`: asked for the run that stands at the cursor, whose
opening takes `n` characters, `op` gives it through the first mark after them; without a mark it
gives the error `unclosed` at the end of the text. So do `steps`, one character at a time. -/
structure ClosesFirst (c : Cursor) (op : Operation) (steps : Guarded Text) (n : Nat) (mark : Text)
    (unclosed : Position → Site → LexError) : Prop where
  /-- A run is given where the mark occurs after the opening, and only there. -/
  closes_iff : (∃ run, (op.run c).1.delimited? = some (.ok run)) ↔ Text.OccursAfter n mark c.rest
  /-- It goes through the first such mark, and the cursor stands after it. -/
  closes : ∀ run, (op.run c).1.delimited? = some (.ok run) →
    Text.Through n mark run c.rest ∧ c.Passes run (op.run c).2
  /-- Else the cursor is at the end, which is where the error is found. -/
  fails : ¬ Text.OccursAfter n mark c.rest →
    (op.run c).1.delimited? = some (.error (unclosed c.position (op.run c).2.site)) ∧
      c.Passes c.rest (op.run c).2 ∧ (op.run c).2.atEnd = true
  /-- A cursor that has counted from the start of a text tells where the run began and where the
  text ends. -/
  located : ¬ Text.OccursAfter n mark c.rest → ∀ text line passed, c.Passed text line passed →
    c.position = Position.after ⟨line, 1⟩ passed ∧ (op.run c).2.index = text.byteSize ∧
      (op.run c).2.position = Position.after ⟨line, 1⟩ text
  /-- Step by step it comes to the same. -/
  stepwise : c.Placed → ∃ result, (op.run c).1.delimited? = some result ∧
    Guarded.Leads steps c result (op.run c).2

/-- **A run closes where the search finds its mark.** -/
theorem closesFirst_of_before? {c : Cursor} {op : Operation} {steps : Guarded Text}
    {ahead mark : Text} {unclosed : Position → Site → LexError} (opening : Text)
    (hrest : c.rest = opening ++ ahead) (hm : mark ≠ [])
    (hclosed : ∀ inner, Text.before? mark ahead = some inner → ∃ answer,
      op.run c = (answer, c.skip (opening ++ inner ++ mark).length) ∧
      answer.delimited? = some (.ok (opening ++ inner ++ mark)))
    (hopen : Text.before? mark ahead = none → ∃ answer, op.run c = (answer, c.skip c.rest.length) ∧
      answer.delimited? = some (.error (unclosed c.position (c.skip c.rest.length).site)))
    (hsteps : c.Placed → ∃ result, (op.run c).1.delimited? = some result ∧
      Guarded.Leads steps c result (op.run c).2) :
    c.ClosesFirst op steps opening.length mark unclosed := by
  have hnone := Text.before?_eq_none_iff_not_occursAfter hm opening ahead
  rw [← hrest] at hnone
  have hpasses : c.Passes c.rest (c.skip c.rest.length) := passes_skip (List.append_nil _).symm
  cases hbefore : Text.before? mark ahead with
  | some inner =>
    have hthrough := Text.through_of_before? hm hbefore opening
    obtain ⟨answer, hrun, hanswer⟩ := hclosed inner hbefore
    obtain ⟨after, hafter⟩ := hthrough.isPrefix
    rw [← hrest] at hthrough hafter
    have hoccurs := hthrough.occursAfter
    rw [hrun] at hsteps
    refine ⟨?_, fun run hrun' => ?_, fun hno => absurd hoccurs hno, fun hno => absurd hoccurs hno,
      ?_⟩
    · rw [hrun]
      exact ⟨fun _ => hoccurs, fun _ => ⟨_, hanswer⟩⟩
    · rw [hrun] at hrun' ⊢
      rw [hanswer] at hrun'
      cases hrun'
      exact ⟨hthrough, passes_skip hafter.symm⟩
    · rwa [hrun]
  | none =>
    obtain ⟨answer, hrun, hanswer⟩ := hopen hbefore
    have hno := hnone.1 hbefore
    rw [hrun] at hsteps
    refine ⟨?_, fun run hrun' => ?_, fun _ => ?_, fun _ text line passed hpassed => ?_, ?_⟩
    · rw [hrun, hanswer]
      exact ⟨fun ⟨run, hrun'⟩ => (nomatch hrun'), fun hoccurs => absurd hoccurs hno⟩
    · rw [hrun, hanswer] at hrun'
      cases hrun'
    · rw [hrun]
      refine ⟨hanswer, hpasses, ?_⟩
      rw [atEnd, rest_skip, List.drop_length]
      rfl
    · rw [hrun]
      have hend := hpasses.passed hpassed
      rw [hpassed.split] at hend
      exact ⟨hpassed.position_eq, hend.index_eq, hend.position_eq⟩
    · rwa [hrun]

theorem closesFirst_readQuoted {c : Cursor} {mark : Char} (h : c.rest.head? = some mark) :
    c.ClosesFirst (.readQuoted mark) (Guarded.takeQuoted mark) 1 [mark] (.quoteMismatch mark) := by
  obtain ⟨ahead, hrest⟩ := List.head?_eq_some_iff.1 h
  refine closesFirst_of_before? [mark] hrest (List.cons_ne_nil _ _)
    (fun inner hbefore => ?_) (fun hbefore => ?_) fun hplaced => ?_
  · refine ⟨.quoted (.ok (quotedRun mark inner)), ?_, rfl⟩
    rw [Operation.run, takeQuoted, hrest, GrammarLexer.readQuoted, if_pos rfl, hbefore]
    rfl
  · refine ⟨.quoted (.error (.quoteMismatch mark c.position (c.skip c.rest.length).site)), ?_, rfl⟩
    rw [Operation.run, takeQuoted, hrest, GrammarLexer.readQuoted, if_pos rfl, hbefore]
    rfl
  · exact ⟨_, rfl, Guarded.leads_takeQuoted hplaced mark⟩

theorem closesFirst_comment {c : Cursor} (h : commentOpening <+: c.rest) {op : Operation}
    (hop : op.AsksFor .comment) :
    c.ClosesFirst op Guarded.takeComment 2 commentClosing .commentMismatch := by
  have hrun := hop.run_eq (Form.lex?_comment h)
  obtain ⟨ahead, hahead⟩ := h
  have hrest : c.rest = commentOpening ++ ahead := hahead.symm
  refine closesFirst_of_before? commentOpening hrest (by decide)
    (fun inner hbefore => ?_) (fun hbefore => ?_) fun hplaced => ?_
  · refine ⟨.outcome (.lexed .comment (.comment inner) c.position), ?_, rfl⟩
    obtain ⟨hfirst, rest, hinner⟩ := (Text.before?_eq_some_iff (by decide)).1 hbefore
    have hread : readComment c.rest = .ok ⟨inner, (commentRun inner).length⟩ := by
      refine (readComment_eq_ok_iff ⟨ahead, hahead⟩).2 ⟨hfirst, rfl, rest, ?_⟩
      rw [hrest, hinner, commentRun]
      simp only [List.append_assoc]
    rw [hrun, Form.read, hread]
    rfl
  · refine ⟨.outcome (.errant (.commentMismatch c.position (c.skip c.rest.length).site)), ?_, rfl⟩
    have hread : readComment c.rest = .error ⟨.openComment 0, c.rest.length, c.rest.length⟩ := by
      rw [hrest]
      exact readComment_eq_error_iff.2 ⟨(Text.before?_eq_none_iff (by decide)).1 hbefore, rfl⟩
    rw [hrun, Form.read, hread]
    rfl
  · have hperforms := Guarded.performs_takeComment hplaced
    rw [hrun, Form.read]
    cases hreading : readComment c.rest with
    | ok taken =>
      rw [hreading] at hperforms
      exact ⟨_, rfl, hperforms⟩
    | error fault =>
      rw [hreading] at hperforms
      exact ⟨_, rfl, hperforms⟩

/-- What is between the marks of a comment is cut out of it, and no closing mark is in it. -/
theorem inside_of_delimited? {c : Cursor} (h : commentOpening <+: c.rest) {op : Operation}
    (hop : op.AsksFor .comment) {run : Text}
    (hrun : (op.run c).1.delimited? = some (.ok run)) :
    ∃ inner, (op.run c).1 = .outcome (.lexed .comment (.comment inner) c.position) ∧
      run = commentOpening ++ inner ++ commentClosing ∧ commentInside? run = some inner ∧
      ¬ commentClosing <:+: inner := by
  rw [hop.run_eq (Form.lex?_comment h), Form.read] at hrun ⊢
  cases hreading : readComment c.rest with
  | error fault =>
    rw [hreading] at hrun
    cases hrun
  | ok taken =>
    rw [hreading] at hrun
    cases hrun
    refine ⟨taken.value, rfl, rfl, Guarded.commentInside?_commentRun taken.value, ?_⟩
    rintro ⟨p, q, hinner⟩
    obtain ⟨hfirst, -⟩ := (readComment_eq_ok_iff h).1 hreading
    have hnil := hfirst p (q ++ commentClosing) (by rw [← hinner]; simp)
    cases (List.append_eq_nil_iff.1 hnil).2

/-- **Quoted runs and comments close at the first mark.** Where a character stands at the cursor,
the run between it and its next occurrence is taken, whatever the character is, or there is none and
the run is open; likewise a comment goes through the first closing mark after its opening one, with
which that mark shares no character. Either way the cursor stops right after the run, and the run is
given as it was written. A run that is open is passed up to the end of the text; there the error is
found, and it names the place where the run began. -/
theorem delimited_runs_close_first (c : Cursor) :
    (∀ mark, c.rest.head? = some mark → c.ClosesFirst (.readQuoted mark)
      (Guarded.takeQuoted mark) 1 [mark] (.quoteMismatch mark)) ∧
    (commentOpening <+: c.rest → ∀ op : Operation, op.AsksFor .comment →
      c.ClosesFirst op Guarded.takeComment 2 commentClosing .commentMismatch ∧
      ∀ run, (op.run c).1.delimited? = some (.ok run) →
        ∃ inner, (op.run c).1 = .outcome (.lexed .comment (.comment inner) c.position) ∧
          run = commentOpening ++ inner ++ commentClosing ∧ commentInside? run = some inner ∧
          ¬ commentClosing <:+: inner) :=
  ⟨fun _ => closesFirst_readQuoted, fun h _ hop =>
    ⟨closesFirst_comment h hop, fun _ => inside_of_delimited? h hop⟩⟩

/-- A run between two newlines, a comment that an overlapping mark does not close, and one that it
leaves open. -/
theorem delimited_runs_close_first_overlapping :
    (∃ c', (Operation.readQuoted '\n').run (.start "\né\n\n".toList 1) =
        (.quoted (.ok "\né\n".toList), c') ∧
      Text.Through 1 ['\n'] "\né\n".toList "\né\n\n".toList ∧
      (Cursor.start "\né\n\n".toList 1).Passes "\né\n".toList c') ∧
    (∃ c', (Operation.read .comment).run (.start "/*/**/*/".toList 1) =
        (.outcome (.lexed .comment (.comment "/*".toList) ⟨1, 1⟩), c') ∧
      Text.Through 2 commentClosing "/*/**/".toList "/*/**/*/".toList ∧
      (Cursor.start "/*/**/*/".toList 1).Passes "/*/**/".toList c') ∧
    ∃ c', (Operation.lex .comment).run (.start "/*/\né".toList 5) =
        (.outcome (.errant (.commentMismatch ⟨5, 1⟩ ⟨⟨6, 2⟩, ['é']⟩)), c') ∧
      ¬ Text.OccursAfter 2 commentClosing "/*/\né".toList ∧
      (Cursor.start "/*/\né".toList 5).Passes "/*/\né".toList c' ∧ c'.atEnd = true := by
  have hquoted := (delimited_runs_close_first (.start "\né\n\n".toList 1)).1 '\n' rfl
  obtain ⟨hthrough, hpasses⟩ := hquoted.closes "\né\n".toList rfl
  have hcomment := ((delimited_runs_close_first (.start "/*/**/*/".toList 1)).2 ⟨_, rfl⟩
    (.read .comment) (.inr rfl)).1
  obtain ⟨hthrough', hpasses'⟩ := hcomment.closes "/*/**/".toList rfl
  have hopen := ((delimited_runs_close_first (.start "/*/\né".toList 5)).2 ⟨_, rfl⟩
    (.lex .comment) (.inl rfl)).1
  have hno : ¬ Text.OccursAfter 2 commentClosing "/*/\né".toList := fun hoccurs => by
    obtain ⟨run, hrun⟩ := hopen.closes_iff.2 hoccurs
    cases hrun
  exact ⟨⟨_, rfl, hthrough, hpasses⟩, ⟨_, rfl, hthrough', hpasses'⟩, _, rfl, hno,
    (hopen.fails hno).2⟩

end Cursor

end GrammarLexer
