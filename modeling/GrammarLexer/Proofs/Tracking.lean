import GrammarLexer.Proofs.References
import GrammarLexer.Proofs.Separation

/-!
# Cursors tell their place

A cursor counts while it moves: bytes, lines, and where its line starts. However it was moved, the
three counters are those of the text that it has passed, and nothing else is kept of how it got
there.

* `Cursor.Passed text first passed c` -- the cursor stands in the text after `passed`, and its
  counters say so;
* `Cursor.Passed.bump`, `Cursor.Passed.skip` -- one character more, and any number of them;
* `Cursor.Passed.slice_line`, `Cursor.Passed.position_eq` -- the slice that the column is counted
  in, and the position;
* `Cursor.Reached` -- the cursors that operations lead to;
* `Cursor.determined_by_index` -- **a cursor is told by its byte offset**, whatever led there.
-/

namespace GrammarLexer

/-! ## 1. The line that a text ends in -/

namespace Text

/-- A text that ends where a line begins: it is empty, or its last character is a newline. -/
def EndsLine (before : Text) : Prop := before = [] ∨ before.getLast? = some '\n'

/-- What follows the last newline is the last line. -/
theorem lastLine_append {before own : Text} (hbefore : EndsLine before) (hown : '\n' ∉ own) :
    lastLine (before ++ own) = own := by
  have hkeep : ∀ ch ∈ own.reverse, decide (ch ≠ '\n') = true := by
    intro ch hch
    simp only [decide_eq_true_eq]
    rintro rfl
    exact hown (List.mem_reverse.1 hch)
  have hstop : before.reverse.takeWhile (· ≠ '\n') = [] := by
    rcases hbefore with rfl | hlast
    · rfl
    · obtain ⟨start, rfl⟩ := List.getLast?_eq_some_iff.1 hlast
      simp
  rw [lastLine, List.reverse_append, List.takeWhile_append_of_pos hkeep, hstop, List.append_nil,
    List.reverse_reverse]

/-- Every text is divided by its last newline. -/
theorem exists_lastLine (s : Text) :
    ∃ before, s = before ++ s.lastLine ∧ '\n' ∉ s.lastLine ∧ EndsLine before := by
  induction s using List.reverseRecOn with
  | nil => exact ⟨[], rfl, List.not_mem_nil, .inl rfl⟩
  | append_singleton s ch ih =>
    obtain ⟨before, hs, hown, hbefore⟩ := ih
    rw [lastLine_append_singleton]
    by_cases hch : ch = '\n'
    · subst hch
      rw [if_pos rfl]
      exact ⟨s ++ ['\n'], (List.append_nil _).symm, List.not_mem_nil, .inr (by simp)⟩
    · rw [if_neg hch]
      refine ⟨before, ?_, ?_, hbefore⟩
      · rw [← List.append_assoc, ← hs]
      · simp [hown, Ne.symm hch]

/-- Two beginnings of a text of the same size are the same. -/
theorem eq_of_byteSize_eq {p q r t : Text} (h : p ++ q = r ++ t) (hsize : p.byteSize = r.byteSize) :
    p = r ∧ q = t := by
  have hp := splitAt?_byteSize p q
  rw [h, hsize, splitAt?_byteSize] at hp
  cases hp
  exact ⟨rfl, rfl⟩

end Text

/-! ## 2. What a cursor has passed -/

namespace Cursor

/-- `c.Passed text first passed`: in the text, whose first line is line `first`, the cursor stands
after `passed`. It is on the line that `passed` ends in, and its three counters are the size of
`passed`, the number of that line, and the size of what comes before that line. -/
structure Passed (text : Text) (first : Nat) (passed : Text) (c : Cursor) : Prop where
  text_eq : c.text = text
  split : passed ++ c.rest = text
  index_eq : c.index = passed.byteSize
  line_eq : c.line = first + passed.count '\n'
  lineStart_eq : ∃ before own, passed = before ++ own ∧ '\n' ∉ own ∧ Text.EndsLine before ∧
    c.lineStart = before.byteSize

namespace Passed

variable {text passed : Text} {first : Nat} {c c' : Cursor}

theorem start (text : Text) (first : Nat) : (Cursor.start text first).Passed text first [] where
  text_eq := rfl
  split := rfl
  index_eq := rfl
  line_eq := rfl
  lineStart_eq := ⟨[], [], rfl, List.not_mem_nil, .inl rfl, rfl⟩

/-- **One character more.** Only a newline changes the line, and the next line starts after it. -/
theorem bump {ch : Char} {rest : Text} (h : c.Passed text first passed)
    (hrest : c.rest = ch :: rest) :
    c.bump.Passed text first (passed ++ [ch]) := by
  have hbump : c.bump.rest = rest := by rw [rest_bump, hrest, List.drop_one, List.tail_cons]
  refine ⟨by rw [text_bump, h.text_eq], ?_, ?_, ?_, ?_⟩
  · rw [hbump, ← h.split, hrest, List.append_assoc, List.singleton_append]
  · rw [index_bump, hrest, h.index_eq, Text.byteSize_append]
    rfl
  · by_cases hch : ch = '\n'
    · simp [Cursor.bump, hrest, hch, h.line_eq, Nat.add_assoc]
    · simp [Cursor.bump, hrest, hch, h.line_eq]
  · by_cases hch : ch = '\n'
    · refine ⟨passed ++ [ch], [], (List.append_nil _).symm, List.not_mem_nil, .inr ?_, ?_⟩
      · simp [hch]
      · simp [Cursor.bump, hrest, hch, h.index_eq]
    · obtain ⟨before, own, rfl, hown, hbefore, hstart⟩ := h.lineStart_eq
      refine ⟨before, own ++ [ch], List.append_assoc _ _ _, ?_, hbefore, ?_⟩
      · simp [hown, Ne.symm hch]
      · simp [Cursor.bump, hrest, hch, hstart]

/-- A cursor at the end stays. -/
theorem bump_of_rest_eq_nil (hrest : c.rest = []) : c.bump = c := by
  unfold Cursor.bump
  rw [hrest]

/-- **Any number of characters more**, as far as there are any. -/
theorem skip (h : c.Passed text first passed) (n : Nat) :
    (c.skip n).Passed text first (passed ++ c.rest.take n) := by
  induction n generalizing c passed with
  | zero => rwa [List.take_zero, List.append_nil]
  | succ n ih =>
    cases hrest : c.rest with
    | nil =>
      have hstay := ih h
      rwa [hrest, List.take_nil, ← bump_of_rest_eq_nil hrest] at hstay
    | cons ch rest =>
      have hnext := ih (h.bump hrest)
      rwa [rest_bump, hrest, List.drop_one, List.tail_cons, List.append_assoc] at hnext

/-- What has been passed fixes the cursor. -/
theorem unique (h : c.Passed text first passed) (h' : c'.Passed text first passed) : c = c' := by
  obtain ⟨before, own, rfl, hown, hbefore, hstart⟩ := h.lineStart_eq
  obtain ⟨before', own', hpassed, hown', hbefore', hstart'⟩ := h'.lineStart_eq
  have hlast : own = own' := by
    rw [← Text.lastLine_append hbefore hown, hpassed, Text.lastLine_append hbefore' hown']
  subst hlast
  obtain rfl := List.append_cancel_right hpassed
  have hrest : c.rest = c'.rest := List.append_cancel_left (h.split.trans h'.split.symm)
  obtain ⟨ctext, crest, cindex, cline, cstart⟩ := c
  obtain ⟨ctext', crest', cindex', cline', cstart'⟩ := c'
  have htext : ctext = ctext' := h.text_eq.trans h'.text_eq.symm
  have hindex : cindex = cindex' := h.index_eq.trans h'.index_eq.symm
  have hline : cline = cline' := h.line_eq.trans h'.line_eq.symm
  have hlineStart : cstart = cstart' := hstart.trans hstart'.symm
  have hrest' : crest = crest' := hrest
  subst htext hindex hline hlineStart hrest'
  rfl

/-- **The byte offset fixes what has been passed.** -/
theorem eq_of_index_eq {passed' : Text} (h : c.Passed text first passed)
    (h' : c'.Passed text first passed') (hindex : c.index = c'.index) : passed = passed' := by
  rw [h.index_eq, h'.index_eq] at hindex
  exact (Text.eq_of_byteSize_eq (h.split.trans h'.split.symm) hindex).1

/-- The offset is a boundary of the text, and divides it at the cursor. -/
theorem splitAt?_index (h : c.Passed text first passed) :
    text.splitAt? c.index = some (passed, c.rest) := by
  rw [h.index_eq, ← h.split]
  exact Text.splitAt?_byteSize passed c.rest

/-- The slice that the column is counted in is there: both its ends are boundaries, in order. -/
theorem slice_line (h : c.Passed text first passed) :
    text.slice? c.lineStart c.index = some passed.lastLine := by
  obtain ⟨before, own, hpassed, hown, hbefore, hstart⟩ := h.lineStart_eq
  have hslice := Text.slice?_append before own c.rest
  rwa [← Text.byteSize_append, ← hpassed, h.split, ← hstart, ← h.index_eq,
    ← Text.lastLine_append hbefore hown, ← hpassed] at hslice

/-- **The position is counted up to the cursor.** -/
theorem position_eq (h : c.Passed text first passed) :
    c.position = Position.after ⟨first, 1⟩ passed := by
  rw [Position.after_start, position, passedOfLine, h.text_eq, h.slice_line, h.line_eq,
    Nat.add_comm 1]
  rfl

end Passed

/-! ## 3. The cursors that operations lead to -/

/-- Past the placeholder that stands at the cursor, also if its number is refused. A cursor with
none before it stays. -/
def passPlaceholder (c : Cursor) : Cursor :=
  match Placeholder.lex? c.rest with
  | some (.ok p) => c.skip p.text.length
  | some (.error fault) => c.skip fault.stop
  | none => c

/-- Past what `find` matches at the start of the text ahead, told by its size in bytes. A cursor at
which nothing matches stays. -/
def passMatch (c : Cursor) (find : Text → Option Nat) : Cursor :=
  match find c.rest with
  | some size => c.advance size
  | none => c

/-- `Reached text line c`: operations lead from the start of the text to this cursor, in any order
and whether they succeed or fail. -/
inductive Reached (text : Text) (line : Nat) : Cursor → Prop where
  | start : Reached text line (.start text line)
  | ask {c : Cursor} (op : Operation) : Reached text line c → Reached text line (op.run c).2
  | placeholder {c : Cursor} : Reached text line c → Reached text line c.passPlaceholder
  | matched {c : Cursor} (find : Text → Option Nat) : Reached text line c →
      Reached text line (c.passMatch find)

theorem exists_skip_of_conclude (c : Cursor) (form : Form)
    (reading : Except Fault (Taken Lexeme)) : ∃ n, (c.conclude form reading).2 = c.skip n := by
  cases reading with
  | ok taken => exact ⟨taken.width, rfl⟩
  | error fault => exact ⟨fault.stop, rfl⟩

theorem exists_skip_of_lexFirst (c : Cursor) (forms : List Form) :
    ∃ n, (c.lexFirst forms).2 = c.skip n := by
  unfold lexFirst
  split
  · exact exists_skip_of_conclude _ _ _
  · exact ⟨0, rfl⟩

/-- **Every operation moves a cursor forward by some characters**, and does nothing else to it. -/
theorem exists_skip_of_run (c : Cursor) (op : Operation) : ∃ n, (op.run c).2 = c.skip n := by
  cases op with
  | take => exact ⟨1, rfl⟩
  | advance size => exact ⟨_, rfl⟩
  | takeWhile keep => exact ⟨_, rfl⟩
  | takeMatch p =>
    rw [Operation.run, takeMatch]
    split
    · exact ⟨_, rfl⟩
    · exact ⟨0, rfl⟩
  | lex form => exact exists_skip_of_lexFirst c [form]
  | read form => exact exists_skip_of_conclude c form _
  | lexFirst forms => exact exists_skip_of_lexFirst c forms
  | readQuoted mark =>
    rw [Operation.run, takeQuoted]
    split
    · exact ⟨_, rfl⟩
    · exact ⟨_, rfl⟩
  | _ => exact ⟨0, rfl⟩

theorem exists_skip_of_passPlaceholder (c : Cursor) : ∃ n, c.passPlaceholder = c.skip n := by
  unfold passPlaceholder
  split
  · exact ⟨_, rfl⟩
  · exact ⟨_, rfl⟩
  · exact ⟨0, rfl⟩

theorem exists_skip_of_passMatch (c : Cursor) (find : Text → Option Nat) :
    ∃ n, c.passMatch find = c.skip n := by
  unfold passMatch
  split
  · exact ⟨_, rfl⟩
  · exact ⟨0, rfl⟩

/-- **Every cursor that operations lead to has counted what it passed.** -/
theorem Reached.passed {text : Text} {line : Nat} {c : Cursor} (h : Reached text line c) :
    ∃ passed, c.Passed text line passed := by
  have hmove : ∀ {c c' : Cursor}, (∃ n, c' = c.skip n) → (∃ passed, c.Passed text line passed) →
      ∃ passed, c'.Passed text line passed := by
    rintro c _ ⟨n, rfl⟩ ⟨passed, hpassed⟩
    exact ⟨_, hpassed.skip n⟩
  induction h with
  | start => exact ⟨[], .start text line⟩
  | ask op _ ih => exact hmove (exists_skip_of_run _ op) ih
  | placeholder _ ih => exact hmove (exists_skip_of_passPlaceholder _) ih
  | matched find _ ih => exact hmove (exists_skip_of_passMatch _ find) ih

end Cursor

/-! ## 4. Sessions -/

namespace Session

variable {text : Text} {line : Nat} {session next : Session}

/-- Every cursor of the session is one that operations lead to. -/
def AllReached (text : Text) (line : Nat) (session : Session) : Prop :=
  ∀ entry ∈ session, Cursor.Reached text line entry.2

theorem AllReached.cursor {name : String} {c : Cursor} (h : session.AllReached text line)
    (hc : session.cursor? name = some c) : Cursor.Reached text line c := by
  obtain ⟨before, after, hsession, -⟩ := List.lookup_eq_some_iff.1 hc
  refine h (name, c) ?_
  rw [hsession]
  simp

theorem AllReached.put {name : String} {c : Cursor} (h : session.AllReached text line)
    (hc : Cursor.Reached text line c) : (session.put name c).AllReached text line := by
  intro entry hentry
  rcases List.mem_cons.1 hentry with rfl | hentry
  · exact hc
  · exact h entry hentry

/-- **One step**: it asks a cursor, or copies one to another name. -/
theorem AllReached.step {step : Step} {answer : Answer × Cursor} (h : session.AllReached text line)
    (hstep : session.step? step = some (answer, next)) :
    Cursor.Reached text line answer.2 ∧ next.AllReached text line := by
  cases step with
  | ask name op =>
    obtain ⟨c, hc, he⟩ := Option.map_eq_some_iff.1 hstep
    cases he
    have hnext := (h.cursor hc).ask op
    exact ⟨hnext, h.put hnext⟩
  | fork name copy =>
    obtain ⟨c, hc, he⟩ := Option.map_eq_some_iff.1 hstep
    cases he
    exact ⟨h.cursor hc, h.put (h.cursor hc)⟩
  | follow name leader =>
    obtain ⟨-, -, hleader⟩ := Option.bind_eq_some_iff.1 hstep
    obtain ⟨c, hc, he⟩ := Option.map_eq_some_iff.1 hleader
    cases he
    exact ⟨h.cursor hc, h.put (h.cursor hc)⟩

/-- **Any number of steps.** -/
theorem AllReached.run {steps : List Step} {answers : List (Answer × Cursor)}
    (h : session.AllReached text line) (hrun : session.run? steps = some answers) :
    ∀ entry ∈ answers, Cursor.Reached text line entry.2 := by
  induction steps generalizing session answers with
  | nil =>
    cases hrun
    intro entry hentry
    cases hentry
  | cons step steps ih =>
    obtain ⟨⟨answer, next⟩, hstep, hrest⟩ := Option.bind_eq_some_iff.1 hrun
    obtain ⟨more, hmore, rfl⟩ := Option.map_eq_some_iff.1 hrest
    obtain ⟨hanswer, hnext⟩ := h.step hstep
    intro entry hentry
    rcases List.mem_cons.1 hentry with rfl | hentry
    · exact hanswer
    · exact ih hnext hmore entry hentry

theorem allReached_start (name : String) (text : Text) (line : Nat) :
    (start name text line).AllReached text line := by
  intro entry hentry
  rw [List.mem_singleton.1 hentry]
  exact .start

end Session

/-- **A cursor is told by its byte offset.** Whatever was asked of the cursors of a session, and of
cursors at placeholders and other matches, each stands after a beginning of the text that is as long
as its offset says, on the line that the newlines before it make, and knows where that line starts.
So there is one cursor for an offset, and with it one position. -/
theorem Cursor.determined_by_index (text : Text) (line : Nat) :
    (∀ name steps answers, (Session.start name text line).run? steps = some answers →
      ∀ entry ∈ answers, Reached text line entry.2) ∧
    (∀ c, Reached text line c → ∃ passed, c.Passed text line passed ∧
      text.splitAt? c.index = some (passed, c.rest) ∧
      c.position = Position.after ⟨line, 1⟩ passed) ∧
    ∀ c c', Reached text line c → Reached text line c' → c.index = c'.index →
      c = c' ∧ c.position = c'.position := by
  refine ⟨fun name steps answers hrun => (Session.allReached_start name text line).run hrun,
    fun c hc => ?_, fun c c' hc hc' hindex => ?_⟩
  · obtain ⟨passed, hpassed⟩ := hc.passed
    exact ⟨passed, hpassed, hpassed.splitAt?_index, hpassed.position_eq⟩
  · obtain ⟨passed, hpassed⟩ := hc.passed
    obtain ⟨passed', hpassed'⟩ := hc'.passed
    obtain rfl := hpassed.eq_of_index_eq hpassed' hindex
    obtain rfl := hpassed.unique hpassed'
    exact ⟨rfl, rfl⟩

/-- Past a letter of two bytes and a newline: a copy that failed to read a comment there and was
followed, and a cursor that passed a class of characters. -/
theorem Cursor.same_place_after_failure :
    (∃ answers, (Session.start "main" "é\n".toList 7).run? [.fork "main" "ahead",
        .ask "ahead" (.read .comment), .follow "main" "ahead"] = some answers ∧
      ∀ entry ∈ answers, Reached "é\n".toList 7 entry.2) ∧
    (∃ passed, ((Operation.read .comment).run (.start "é\n".toList 7)).2.Passed "é\n".toList 7
      passed) ∧
    ((Operation.read .comment).run (.start "é\n".toList 7)).2 =
      ((Operation.takeWhile fun _ => true).run (.start "é\n".toList 7)).2 := by
  obtain ⟨hsession, hpassed, hsame⟩ := determined_by_index "é\n".toList 7
  refine ⟨⟨_, rfl, ?_⟩, ?_, ?_⟩
  · exact hsession "main" [.fork "main" "ahead", .ask "ahead" (.read .comment),
      .follow "main" "ahead"] _ rfl
  · obtain ⟨passed, h, -⟩ := hpassed _ (Reached.start.ask (.read .comment))
    exact ⟨passed, h⟩
  · exact (hsame _ _ (Reached.start.ask _) (Reached.start.ask _) rfl).1

end GrammarLexer
