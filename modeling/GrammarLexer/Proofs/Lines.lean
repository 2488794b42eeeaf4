import GrammarLexer.Position
import GrammarLexer.Text.Line

/-!
# Places in consecutive lines

Lines of a file that follow one another have one text, and a place in that text has a line and a
column. Both are counted while the text is passed; here they are tied to the lines themselves.

* `Consecutive n lines` -- lines as they stand in a file, numbered from `n` on;
* `consecutive_numberFrom` -- the lines of a text are such lines, and so is every run of them
  (`Consecutive.left_of_append`, `Consecutive.right_of_append`);
* `Locates lines p rest` -- line and column of `p` name the place at which `rest` begins;
* `Consecutive.locates` -- **counting line and column names the place**;
* `locates_in_file` -- the same for some lines of a file, in them and in the file.
-/

namespace GrammarLexer

/-! ## 1. Counting -/

/-- Without a newline only the column is counted. -/
theorem Position.after_of_not_mem {p : Position} {s : Text} (h : '\n' ∉ s) :
    p.after s = p.shifted s.length := by
  induction s generalizing p with
  | nil => rfl
  | cons ch s ih =>
    simp only [List.mem_cons, not_or] at h
    rw [after_cons, ih h.2, next, if_neg (Ne.symm h.1)]
    simp only [shifted, List.length_cons, Position.mk.injEq, true_and]
    omega

/-- A newline begins the next line. -/
theorem Position.after_line {p : Position} {body : Text} (h : '\n' ∉ body) :
    p.after (body ++ ['\n']) = ⟨p.line + 1, 1⟩ := by
  rw [after_append, after_of_not_mem h]
  rfl

theorem Position.le_line_after (p : Position) (s : Text) : p.line ≤ (p.after s).line := by
  induction s generalizing p with
  | nil => exact Nat.le_refl _
  | cons ch s ih =>
    have hnext : p.line ≤ (p.next ch).line := by
      unfold next
      split
      · exact Nat.le_succ _
      · exact Nat.le_refl _
    exact Nat.le_trans hnext (ih (p.next ch))

/-! ## 2. Consecutive lines -/

/-- `Consecutive n lines`: numbered from `n` on, each ended by its only newline, which the last one
may lack. -/
inductive Consecutive : Nat → List Line → Prop where
  | nil {n : Nat} : Consecutive n []
  | last {n : Nat} {text : Text} : text ≠ [] → '\n' ∉ text → Consecutive n [⟨text, n⟩]
  | cons {n : Nat} {body : Text} {more : List Line} : '\n' ∉ body → Consecutive (n + 1) more →
      Consecutive n (⟨body ++ ['\n'], n⟩ :: more)

namespace Consecutive

variable {n : Nat} {lines more : List Line} {a b : List Line} {text : Text}

theorem cons_char {ch : Char} (hch : ch ≠ '\n') (h : Consecutive n (⟨text, n⟩ :: more)) :
    Consecutive n (⟨ch :: text, n⟩ :: more) := by
  cases h with
  | last _ hmem =>
    refine .last (List.cons_ne_nil _ _) ?_
    simp [hch.symm, hmem]
  | @cons _ body _ hmem hmore =>
    have hbody : '\n' ∉ ch :: body := by simp [hch.symm, hmem]
    exact .cons hbody hmore

/-- A part of consecutive lines at their beginning. -/
theorem left_of_append (h : Consecutive n (a ++ b)) : Consecutive n a := by
  induction a generalizing n with
  | nil => exact .nil
  | cons line a ih =>
    generalize hlines : line :: a ++ b = lines at h
    cases h with
    | nil => cases hlines
    | last hne hmem =>
      obtain ⟨rfl, hrest⟩ := List.cons.inj hlines
      obtain ⟨rfl, -⟩ := List.append_eq_nil_iff.1 hrest
      exact .last hne hmem
    | cons hmem hmore =>
      obtain ⟨rfl, rfl⟩ := List.cons.inj hlines
      exact .cons hmem (ih hmore)

/-- What comes after consecutive lines begins where counting their text ends. -/
theorem right_of_append (h : Consecutive n (a ++ b)) (hb : b ≠ []) :
    ∃ m, Consecutive m b ∧ Position.after ⟨n, 1⟩ (a.flatMap Line.text) = ⟨m, 1⟩ := by
  induction a generalizing n with
  | nil => exact ⟨n, h, rfl⟩
  | cons line a ih =>
    generalize hlines : line :: a ++ b = lines at h
    cases h with
    | nil => cases hlines
    | last =>
      obtain ⟨-, hrest⟩ := List.cons.inj hlines
      exact absurd (List.append_eq_nil_iff.1 hrest).2 hb
    | cons hmem hmore =>
      obtain ⟨rfl, rfl⟩ := List.cons.inj hlines
      obtain ⟨m, hm, hafter⟩ := ih hmore
      refine ⟨m, hm, ?_⟩
      rw [List.flatMap_cons, Position.after_append, Position.after_line hmem]
      exact hafter

theorem numbers (h : Consecutive n lines) :
    lines.map Line.number = List.range' n lines.length := by
  induction h with
  | nil | last => rfl
  | cons _ _ ih => rw [List.map_cons, ih, List.length_cons, List.range'_succ]

theorem head?_number (h : Consecutive n lines) (hne : lines ≠ []) :
    lines.head?.map Line.number = some n := by
  cases h with
  | nil => exact absurd rfl hne
  | last | cons => rfl

end Consecutive

/-- The lines of a text are consecutive, whatever the number of the first one is. -/
theorem consecutive_numberFrom (s : Text) (n : Nat) : Consecutive n (numberFrom n s.lines) := by
  induction s generalizing n with
  | nil => exact .nil
  | cons ch rest ih =>
    rw [Text.lines]
    split
    case isTrue hch =>
      subst hch
      exact .cons List.not_mem_nil (ih (n + 1))
    case isFalse hch =>
      have hrest := ih n
      split
      case h_1 => exact .last (List.cons_ne_nil _ _) (by simpa using Ne.symm hch)
      case h_2 line more hlines =>
        rw [hlines] at hrest
        exact hrest.cons_char hch

theorem consecutive_numberedLines (s : Text) : Consecutive 1 s.numberedLines :=
  consecutive_numberFrom s 1

/-! ## 3. Places -/

/-- The text of some lines, from the line of a number on. -/
def textFrom (number : Nat) (lines : List Line) : Text :=
  (lines.dropWhile fun line => line.number != number).flatMap Line.text

/-- `Locates lines p rest`: there is a line of that number with that column in it, and after the
characters before the column the text from that line on goes on with `rest`. -/
structure Locates (lines : List Line) (p : Position) (rest : Text) : Prop where
  line : ∃ line ∈ lines, line.number = p.line ∧ p.column - 1 < line.text.length
  column : 1 ≤ p.column
  text : (textFrom p.line lines).drop (p.column - 1) = rest

theorem textFrom_head (line : Line) (more : List Line) :
    textFrom line.number (line :: more) = line.text ++ more.flatMap Line.text := by
  rw [textFrom, List.dropWhile_cons_of_neg (by simp), List.flatMap_cons]

/-- A line of another number in front does not matter. -/
theorem Locates.cons {lines : List Line} {p : Position} {rest : Text} (h : Locates lines p rest)
    {line : Line} (hne : line.number ≠ p.line) : Locates (line :: lines) p rest where
  line := by
    obtain ⟨l, hl, hnumber, hcolumn⟩ := h.line
    exact ⟨l, List.mem_cons_of_mem _ hl, hnumber, hcolumn⟩
  column := h.column
  text := by
    rw [textFrom, List.dropWhile_cons_of_pos (by simpa using hne)]
    exact h.text

/-- A place in the first line, before its newline or on it. -/
theorem Locates.head {line : Line} {more : List Line} {pre rest : Text}
    (htext : line.text ++ more.flatMap Line.text = pre ++ rest)
    (hlength : pre.length < line.text.length) :
    Locates (line :: more) ⟨line.number, 1 + pre.length⟩ rest where
  line := ⟨line, List.mem_cons_self, rfl, by dsimp only; omega⟩
  column := Nat.le_add_right _ _
  text := by
    rw [textFrom_head, htext, Nat.add_sub_cancel_left]
    exact List.drop_left

/-- **Counting names the place**: line and column after a beginning of consecutive lines are those
at which the rest of them begins. -/
theorem Consecutive.locates {n : Nat} {lines : List Line} {pre rest : Text}
    (h : Consecutive n lines) (htext : lines.flatMap Line.text = pre ++ rest) (hrest : rest ≠ []) :
    Locates lines (Position.after ⟨n, 1⟩ pre) rest := by
  induction h generalizing pre with
  | nil => exact absurd (List.append_eq_nil_iff.1 htext.symm).2 hrest
  | @last n text hne hmem =>
    rw [List.flatMap_cons] at htext
    have hsplit : text = pre ++ rest := by simpa using htext
    have hpre : '\n' ∉ pre := fun hnl => hmem (hsplit ▸ List.mem_append_left _ hnl)
    rw [Position.after_of_not_mem hpre]
    refine .head htext ?_
    have hpos := List.length_pos_iff.2 hrest
    rw [hsplit, List.length_append]
    omega
  | @cons n body more hmem hmore ih =>
    rw [List.flatMap_cons] at htext
    have hline : body ++ ['\n'] <+: pre ++ rest := ⟨more.flatMap Line.text, htext⟩
    have hbody : body <+: pre ++ rest := (List.prefix_append _ _).trans hline
    by_cases hlength : pre.length ≤ body.length
    · -- the place is on this line
      have hpre : pre <+: body :=
        List.prefix_of_prefix_length_le (List.prefix_append _ _) hbody hlength
      rw [Position.after_of_not_mem fun hnl => hmem (hpre.subset hnl)]
      refine .head htext ?_
      rw [List.length_append]
      exact Nat.lt_succ_of_le hlength
    · -- the place is on a later line
      obtain ⟨pre', rfl⟩ : body ++ ['\n'] <+: pre := by
        refine List.prefix_of_prefix_length_le hline (List.prefix_append _ _) ?_
        rw [List.length_append]
        exact Nat.lt_of_not_le hlength
      rw [List.append_assoc (body ++ ['\n'])] at htext
      rw [Position.after_append, Position.after_line hmem]
      have hlater := Position.le_line_after ⟨n + 1, 1⟩ pre'
      refine (ih (List.append_cancel_left htext)).cons ?_
      dsimp only at hlater ⊢
      omega

/-- Where some lines begin. -/
def startOf (lines : List Line) : Position := ⟨(lines.head?.map Line.number).getD 1, 1⟩

/-- **A place in some lines of a file is one in the file**: counting from the number of the first of
these lines names it in both. -/
theorem locates_in_file {s : Text} {lines : List Line} {pre rest : Text}
    (h : lines <:+: s.numberedLines) (htext : lines.flatMap Line.text = pre ++ rest)
    (hrest : rest ≠ []) :
    Locates lines ((startOf lines).after pre) rest ∧
      ∃ more, Locates s.numberedLines ((startOf lines).after pre) (rest ++ more) := by
  obtain ⟨front, back, hfile⟩ := h
  have hne : lines ≠ [] := by
    intro he
    subst he
    exact hrest (List.append_eq_nil_iff.1 htext.symm).2
  have hall := consecutive_numberedLines s
  obtain ⟨m, hm, hafter⟩ : ∃ m, Consecutive m (lines ++ back) ∧
      Position.after ⟨1, 1⟩ (front.flatMap Line.text) = ⟨m, 1⟩ := by
    rw [← hfile, List.append_assoc] at hall
    exact hall.right_of_append (by simp [hne])
  have hlines := hm.left_of_append
  have hstart : startOf lines = ⟨m, 1⟩ := by
    rw [startOf, hlines.head?_number hne]
    rfl
  rw [hstart]
  refine ⟨hlines.locates htext hrest, back.flatMap Line.text, ?_⟩
  have hplace : (s.numberedLines).flatMap Line.text =
      (front.flatMap Line.text ++ pre) ++ (rest ++ back.flatMap Line.text) := by
    rw [← hfile, List.flatMap_append, List.flatMap_append, htext]
    simp only [List.append_assoc]
  have hlocates := hall.locates hplace (by simp [hrest])
  rwa [Position.after_append, hafter] at hlocates

end GrammarLexer
