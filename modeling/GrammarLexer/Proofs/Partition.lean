import GrammarLexer.Proofs.Layouts
import GrammarLexer.Proofs.Lines

/-!
# The lines of a file and its sections

Every line of a file goes to one section, or it is one of the lines that no section keeps: those
before the prologue, and the two that enclose the rules. Which of these it is, is told by cutting
the lines at the first line that is a delimiter, and what comes after it at the next delimiter.

* `Cut mark lines before found after` -- the lines are cut at the first that is `mark`; if there is
  none, they are left whole;
* `Dealt.cuts` -- dealing lines cuts them four times;
* `Sections.infix_numbers`, `Sections.sublist_numbers` -- the numbers of the lines in the sections;
* `layOut_cuts` -- **the sections of a file**.
-/

namespace GrammarLexer

/-! ## 1. Cuts -/

/-- `Cut mark lines before found after`: of the lines, `found` is the first that is `mark`, if there
is one, and `before` and `after` are those on its two sides. -/
inductive Cut (mark : Text) : List Line → List Line → Option Line → List Line → Prop where
  | found {before after : List Line} {line : Line} : (∀ l ∈ before, l.text ≠ mark) →
      line.text = mark → Cut mark (before ++ line :: after) before (some line) after
  | missing {lines : List Line} : (∀ l ∈ lines, l.text ≠ mark) → Cut mark lines lines none []

namespace Cut

variable {mark : Text} {lines before after : List Line} {found : Option Line}

theorem nil : Cut mark [] [] none [] := .missing fun _ h => absurd h List.not_mem_nil

/-- A cut loses no line. -/
theorem lines_eq (h : Cut mark lines before found after) :
    lines = before ++ found.toList ++ after := by
  cases h with
  | found => simp
  | missing => simp

/-- A cut is told by the lines: the first of them that is the mark ends what comes before. -/
theorem eq_takeWhile (h : Cut mark lines before found after) :
    before = lines.takeWhile (·.text != mark) ∧
      found = (lines.dropWhile (·.text != mark)).head? ∧
      after = (lines.dropWhile (·.text != mark)).tail := by
  cases h with
  | found hbefore hline =>
    have hkeep : ∀ l ∈ before, (l.text != mark) = true := fun l hl => by simpa using hbefore l hl
    rw [List.takeWhile_append_of_pos hkeep, List.dropWhile_append_of_pos hkeep]
    simp [hline]
  | missing hlines =>
    have hkeep : ∀ l ∈ lines, (l.text != mark) = true := fun l hl => by simpa using hlines l hl
    have htake : (lines ++ []).takeWhile _ = lines ++ _ := List.takeWhile_append_of_pos hkeep
    have hdrop : (lines ++ []).dropWhile _ = _ := List.dropWhile_append_of_pos hkeep
    rw [List.append_nil] at htake hdrop
    rw [htake, hdrop]
    exact ⟨(List.append_nil _).symm, rfl, rfl⟩

/-- **There is one cut.** -/
theorem unique {before' after' : List Line} {found' : Option Line}
    (h : Cut mark lines before found after) (h' : Cut mark lines before' found' after') :
    before = before' ∧ found = found' ∧ after = after' := by
  obtain ⟨rfl, rfl, rfl⟩ := h.eq_takeWhile
  obtain ⟨rfl, rfl, rfl⟩ := h'.eq_takeWhile
  exact ⟨rfl, rfl, rfl⟩

end Cut

/-! ## 2. Dealing cuts -/

/-- A line without its text: what the prologue keeps of its delimiters. -/
def Line.emptied (line : Line) : Line := ⟨[], line.number⟩

theorem Stage.endsAt_iff {stage : Stage} {delimiter line : Text}
    (h : stage.delimiter? = some delimiter) :
    stage.endsAt line = true ↔ line = delimiter ++ ['\n'] := by
  simp [endsAt, h]

/-- Lines that a stage keeps are none of its delimiter. -/
theorem Stage.Keeps.ne {stage : Stage} {delimiter : Text} {lines : List Line}
    (h : stage.Keeps lines) (hstage : stage.delimiter? = some delimiter) :
    ∀ line ∈ lines, line.text ≠ delimiter ++ ['\n'] := by
  intro line hline he
  have hend := (Stage.endsAt_iff hstage).2 he
  rw [h line hline] at hend
  cases hend

/-- Lines that a stage keeps, and the line that ends it, are a cut. -/
theorem Stage.Keeps.cut {stage : Stage} {delimiter : Text} {before : List Line} {mark : Line}
    (h : stage.Keeps before) (hmark : stage.endsAt mark.text = true)
    (hstage : stage.delimiter? = some delimiter) (after : List Line) :
    Cut (delimiter ++ ['\n']) (before ++ mark :: after) before (some mark) after :=
  .found (h.ne hstage) ((Stage.endsAt_iff hstage).1 hmark)

/-- **Dealing lines cuts them four times**: the prologue is what stands between the first two cuts,
with what is kept of the delimiters, and each later section what stands before its own cut. -/
theorem Dealt.cuts {lines : List Line} {layout : Layout} (h : Dealt lines layout) :
    ∃ dropped opening inside inner closing outside firstBreak body secondBreak,
      Cut "%\x7b\n".toList lines dropped opening inside ∧
      Cut "%\x7d\n".toList inside inner closing outside ∧
      Cut "%%\n".toList outside layout.sections.declarations firstBreak body ∧
      Cut "%%\n".toList body layout.sections.rules secondBreak layout.sections.epilogue ∧
      layout.sections.prologue =
        opening.toList.map Line.emptied ++ inner ++ closing.toList.map Line.emptied := by
  -- each stage begins after the cuts of the stages before it
  cases h with
  | initial hjunk =>
    exact ⟨_, none, [], [], none, [], none, [], none, .missing (hjunk.ne rfl), .nil, .nil, .nil, rfl⟩
  | prologue hdone hopening hinner =>
    cases hdone with | initial hjunk =>
    exact ⟨_, some _, _, _, none, [], none, [], none,
      hjunk.cut hopening rfl _, .missing (hinner.ne rfl), .nil, .nil,
      (List.append_nil _).symm⟩
  | declarations hdone hclosing hdeclarations =>
    cases hdone with | prologue hdone hopening hinner =>
    cases hdone with | initial hjunk =>
    simp only [List.append_assoc, List.cons_append]
    exact ⟨_, some _, _, _, some _, _, none, [], none,
      hjunk.cut hopening rfl _,
      hinner.cut hclosing rfl _,
      .missing (hdeclarations.ne rfl), .nil, rfl⟩
  | rules hdone hfirst hrules =>
    cases hdone with | declarations hdone hclosing hdeclarations =>
    cases hdone with | prologue hdone hopening hinner =>
    cases hdone with | initial hjunk =>
    simp only [List.append_assoc, List.cons_append]
    exact ⟨_, some _, _, _, some _, _, some _, _, none,
      hjunk.cut hopening rfl _,
      hinner.cut hclosing rfl _,
      hdeclarations.cut hfirst rfl _,
      .missing (hrules.ne rfl), rfl⟩
  | epilogue hdone hsecond =>
    cases hdone with | rules hdone hfirst hrules =>
    cases hdone with | declarations hdone hclosing hdeclarations =>
    cases hdone with | prologue hdone hopening hinner =>
    cases hdone with | initial hjunk =>
    simp only [List.append_assoc, List.cons_append]
    exact ⟨_, some _, _, _, some _, _, some _, _, some _,
      hjunk.cut hopening rfl _,
      hinner.cut hclosing rfl _,
      hdeclarations.cut hfirst rfl _,
      hrules.cut hsecond rfl _, rfl⟩

/-! ## 3. Numbers -/

/-- Lines that stand together in a file are numbered one by one. -/
theorem range'_of_infix {s : Text} {numbers : List Nat}
    (h : numbers <:+: s.numberedLines.map Line.number) :
    ∃ n, numbers = List.range' n numbers.length := by
  obtain ⟨front, back, hfile⟩ := h
  rw [(consecutive_numberedLines s).numbers] at hfile
  obtain ⟨k, -, hfront, -⟩ := List.range'_eq_append_iff.1 hfile.symm
  obtain ⟨m, -, -, hnumbers⟩ := List.range'_eq_append_iff.1 hfront.symm
  exact ⟨1 + m * 1, by rw [hnumbers, List.length_range']⟩

theorem numbers_emptied (lines : List Line) :
    (lines.map Line.emptied).map Line.number = lines.map Line.number := by
  rw [List.map_map]
  rfl

section

-- the sections of a file between lines that are not kept, all by their numbers
variable {file dropped firstBreak secondBreak : List Nat} {sections : Sections}
  (h : file = dropped ++ sections.prologue.map Line.number ++
    sections.declarations.map Line.number ++ firstBreak ++ sections.rules.map Line.number ++
    secondBreak ++ sections.epilogue.map Line.number)

include h

/-- The lines of a section stand together. -/
theorem Sections.infix_numbers (which : Section) :
    (sections.get which).map Line.number <:+: file := by
  rw [h]
  cases which with
  | prologue =>
    simp only [List.append_assoc]
    exact List.infix_append' _ _ _
  | declarations =>
    simp only [List.append_assoc (_ ++ sections.declarations.map Line.number)]
    exact List.infix_append _ _ _
  | rules =>
    simp only [List.append_assoc (_ ++ sections.rules.map Line.number)]
    exact List.infix_append _ _ _
  | epilogue => exact (List.suffix_append _ _).isInfix

/-- The sections stand one after another. -/
theorem Sections.sublist_numbers :
    ((sections.prologue ++ sections.declarations ++ sections.rules ++
      sections.epilogue).map Line.number).Sublist file := by
  rw [h, List.map_append, List.map_append, List.map_append]
  have hdeclarations := (List.sublist_append_right dropped
    (sections.prologue.map Line.number)).append
      (List.Sublist.refl (sections.declarations.map Line.number))
  have hrules := (hdeclarations.trans (List.sublist_append_left _ firstBreak)).append
    (List.Sublist.refl (sections.rules.map Line.number))
  exact (hrules.trans (List.sublist_append_left _ secondBreak)).append (List.Sublist.refl _)

end

/-! ## 4. The sections of a file -/

/-- **The sections of a file**: every file has a layout, whose sections are cut out of its lines at
the first `%{`, `%}`, `%%` and `%%`, each searched for after the one before it. A delimiter that is
missing leaves all remaining lines in one section. So every line of the file is dropped before the
prologue, or is one of the breaks around the rules, or is in one section once; the numbers in a
section follow one another, and so do the sections. -/
theorem layOut_cuts (text : Text) :
    ∃ layout dropped opening inside inner closing outside firstBreak body secondBreak,
      layOut text = .ok layout ∧
      Cut "%\x7b\n".toList text.numberedLines dropped opening inside ∧
      Cut "%\x7d\n".toList inside inner closing outside ∧
      Cut "%%\n".toList outside layout.sections.declarations firstBreak body ∧
      Cut "%%\n".toList body layout.sections.rules secondBreak layout.sections.epilogue ∧
      layout.sections.prologue =
        opening.toList.map Line.emptied ++ inner ++ closing.toList.map Line.emptied ∧
      text.numberedLines =
        dropped ++ opening.toList ++ inner ++ closing.toList ++ layout.sections.declarations ++
          firstBreak.toList ++ layout.sections.rules ++ secondBreak.toList ++
          layout.sections.epilogue ∧
      (∀ which, ∃ n, (layout.sections.get which).map Line.number =
        List.range' n (layout.sections.get which).length) ∧
      ((layout.sections.prologue ++ layout.sections.declarations ++ layout.sections.rules ++
        layout.sections.epilogue).map Line.number).Pairwise (· < ·) := by
  obtain ⟨layout, hlayout, hdealt⟩ := exists_layOut text
  obtain ⟨dropped, opening, inside, inner, closing, outside, firstBreak, body, secondBreak, hopening,
    hclosing, hfirst, hsecond, hprologue⟩ := hdealt.cuts
  have hlines : text.numberedLines =
      dropped ++ opening.toList ++ inner ++ closing.toList ++ layout.sections.declarations ++
        firstBreak.toList ++ layout.sections.rules ++ secondBreak.toList ++
        layout.sections.epilogue := by
    rw [hopening.lines_eq, hclosing.lines_eq, hfirst.lines_eq, hsecond.lines_eq]
    simp only [List.append_assoc]
  -- emptying a line leaves its number, so the numbers of the prologue are those of its lines
  have hnumbers : text.numberedLines.map Line.number =
      dropped.map Line.number ++ layout.sections.prologue.map Line.number ++
        layout.sections.declarations.map Line.number ++ firstBreak.toList.map Line.number ++
        layout.sections.rules.map Line.number ++ secondBreak.toList.map Line.number ++
        layout.sections.epilogue.map Line.number := by
    rw [hlines, hprologue]
    simp only [List.map_append, numbers_emptied, List.append_assoc]
  refine ⟨layout, dropped, opening, inside, inner, closing, outside, firstBreak, body, secondBreak,
    hlayout, hopening, hclosing, hfirst, hsecond, hprologue, hlines, fun which => ?_, ?_⟩
  · simpa only [List.length_map] using range'_of_infix (Sections.infix_numbers hnumbers which)
  · refine List.Pairwise.sublist (Sections.sublist_numbers hnumbers) ?_
    rw [(consecutive_numberedLines text).numbers]
    exact List.pairwise_lt_range'

-- neither a carriage return nor a missing newline makes a delimiter
example : layOut "a\n%\x7b\n%\x7d\r\n%\x7d\n%%".toList =
    .ok ⟨.declarations, ⟨[⟨[], 2⟩, ⟨"%\x7d\r\n".toList, 3⟩, ⟨[], 4⟩], [⟨"%%".toList, 5⟩], [], []⟩⟩ :=
  rfl

end GrammarLexer
