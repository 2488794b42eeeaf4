import GrammarLexer.Proofs.Assembly
import GrammarLexer.Proofs.Diagnosis

/-!
# Where errors show

An error shows a position and a line. Both are of the file, although a section is read as a text of
its own: the position names a place in the section, or the place right after it, and the line is the
one that holds the place, or the last line that there is.

* `Cursor.Passed.snippet_eq` -- a cursor shows the line around it;
* `Site.Shows` -- a site belongs to some lines: it is on one of them, or after the last;
* `Consecutive.shows` -- **every place of consecutive lines shows its line**;
* `Position.compare_after` -- passing a text leads to a later position;
* `Stuck.opensBefore` -- what is left open was opened before the place of the fault;
* `GrammarFile.error_located` -- **every error of a file is located** in the section that it is of.
-/

namespace GrammarLexer

open Text (Stops)

/-! ## 1. The line around a place -/

/-- A line without its newline. -/
def Line.body (line : Line) : Text := line.text.takeWhile (· ≠ '\n')

theorem Text.snippetAt?_byteSize (before after : Text) :
    snippetAt? (before ++ after) before.byteSize = some (shown before after) := by
  have hle : before.byteSize ≤ (before ++ after).byteSize := by
    rw [byteSize_append]
    exact Nat.le_add_right _ _
  rw [snippetAt?, Nat.min_eq_left hle, splitAt?_byteSize]
  rfl

/-- **A cursor shows the line around it.** -/
theorem Cursor.Passed.snippet_eq {text passed : Text} {first : Nat} {c : Cursor}
    (h : c.Passed text first passed) : c.snippet = Text.shown passed c.rest := by
  rw [snippet, h.text_eq, h.index_eq, ← h.split, Text.snippetAt?_byteSize]
  rfl

theorem Line.body_of_not_mem {text : Text} {n : Nat} (h : '\n' ∉ text) :
    (⟨text, n⟩ : Line).body = text := by
  have hkeep : ∀ ch ∈ text, decide (ch ≠ '\n') = true := fun ch hch => by
    simp only [decide_eq_true_eq]
    rintro rfl
    exact h hch
  have htake : (text ++ []).takeWhile (· ≠ '\n') = text :=
    Text.takeWhile_append_of_stops hkeep rfl
  rwa [List.append_nil] at htake

theorem Line.body_append_newline {body : Text} {n : Nat} (h : '\n' ∉ body) :
    (⟨body ++ ['\n'], n⟩ : Line).body = body := by
  refine Text.takeWhile_append_of_stops (fun ch hch => ?_) rfl
  simp only [decide_eq_true_eq]
  rintro rfl
  exact h hch

theorem Text.lastLine_of_not_mem {s : Text} (h : '\n' ∉ s) : lastLine s = s :=
  lastLine_append (.inl rfl) h

/-- Whole lines in front do not change the line that a text ends in. -/
theorem Text.lastLine_append_left {before : Text} (hbefore : EndsLine before) (s : Text) :
    lastLine (before ++ s) = lastLine s := by
  obtain ⟨start, hs, hown, hstart⟩ := exists_lastLine s
  have hends : EndsLine (before ++ start) := by
    rcases hstart with rfl | hlast
    · rwa [List.append_nil]
    · exact .inr (by rw [List.getLast?_append, hlast]; rfl)
  conv => lhs; rw [hs, ← List.append_assoc, lastLine_append hends hown]

/-- A text that begins after whole lines shows what it shows alone, if it has a character. -/
theorem Text.shown_append {before pre after : Text} (hbefore : EndsLine before)
    (hne : pre ++ after ≠ []) : shown (before ++ pre) after = shown pre after := by
  unfold shown
  rw [lastLine_append_left hbefore]
  by_cases hnil : pre = []
  · -- then something comes after the place
    have hafter : after ≠ [] := by
      intro he
      exact hne (by rw [hnil, he]; rfl)
    rw [if_neg fun h => hafter h.1, if_neg fun h => hafter h.1]
  · rw [List.dropLast_append_of_ne_nil hnil, lastLine_append_left hbefore]
    simp [hnil]

/-- A place in a line without its newline shows all of it. -/
theorem Text.shown_of_not_mem {pre own after : Text} (hline : '\n' ∉ pre ++ own)
    (hafter : Stops (· ≠ '\n') after) : shown pre (own ++ after) = pre ++ own := by
  have hpre : lastLine pre = pre :=
    lastLine_of_not_mem fun hmem => hline (List.mem_append_left own hmem)
  have hown : (own ++ after).takeWhile (· ≠ '\n') = own := by
    refine takeWhile_append_of_stops (fun ch hch => ?_) hafter
    simp only [decide_eq_true_eq]
    rintro rfl
    exact hline (List.mem_append_right pre hch)
  have hinside : ¬ (own ++ after = [] ∧ pre ≠ [] ∧ lastLine pre = []) := fun h =>
    h.2.1 (hpre ▸ h.2.2)
  rw [shown, if_neg hinside, hpre, hown]

/-- The end right after a newline shows the line which that newline ends. -/
theorem Text.shown_after_line {body : Text} (hbody : '\n' ∉ body) :
    shown (body ++ ['\n']) [] = body := by
  have hends : EndsLine (body ++ ['\n']) := .inr (by simp)
  have hlast := lastLine_append hends (List.not_mem_nil (a := '\n'))
  rw [List.append_nil] at hlast
  rw [shown, if_pos ⟨rfl, by simp, hlast⟩, List.dropLast_concat, lastLine_of_not_mem hbody]

/-! ## 2. Sites in lines -/

/-- `site.Shows lines`: the site is on one of the lines, at a column of it or right after it, and
shows that line; or it is at the start of the line after the last one, which ends in a newline, and
shows the last one. -/
inductive Site.Shows (lines : List Line) (site : Site) : Prop where
  | onLine {line : Line} : line ∈ lines → site.position.line = line.number →
      1 ≤ site.position.column → site.position.column ≤ line.body.length + 1 →
      site.snippet = line.body → Shows lines site
  | afterLast {last : Line} : lines.getLast? = some last → last.text.getLast? = some '\n' →
      site.position = ⟨last.number + 1, 1⟩ → site.snippet = last.body → Shows lines site

theorem Site.Shows.cons {lines : List Line} {site : Site} (h : site.Shows lines) (line : Line) :
    site.Shows (line :: lines) := by
  cases h with
  | onLine hline hnumber hleast hmost hsnippet =>
    exact .onLine (List.mem_cons_of_mem _ hline) hnumber hleast hmost hsnippet
  | afterLast hlast hnewline hposition hsnippet =>
    exact .afterLast (by rw [List.getLast?_cons, hlast]; rfl) hnewline hposition hsnippet

namespace Consecutive

variable {n : Nat} {lines : List Line}

theorem flatMap_ne_nil (h : Consecutive n lines) (hne : lines ≠ []) :
    lines.flatMap Line.text ≠ [] := by
  cases h with
  | nil => exact absurd rfl hne
  | last htext => simpa using htext
  | cons => simp

/-- Lines that stand together in a file are consecutive. -/
theorem of_infix {s : Text} (h : lines <:+: s.numberedLines) : ∃ n, Consecutive n lines := by
  by_cases hne : lines = []
  · exact ⟨0, hne ▸ .nil⟩
  · obtain ⟨front, back, hfile⟩ := h
    have hall := consecutive_numberedLines s
    rw [← hfile, List.append_assoc] at hall
    obtain ⟨m, hm, -⟩ := hall.right_of_append (List.append_ne_nil_of_left_ne_nil hne back)
    exact ⟨m, hm.left_of_append⟩

/-- **Every place of consecutive lines shows its line.** -/
theorem shows {pre rest : Text} (h : Consecutive n lines) (hne : lines ≠ [])
    (htext : lines.flatMap Line.text = pre ++ rest) :
    Site.Shows lines ⟨Position.after ⟨n, 1⟩ pre, Text.shown pre rest⟩ := by
  induction h generalizing pre with
  | nil => exact absurd rfl hne
  | @last n text _ hmem =>
    obtain rfl : text = pre ++ rest := by simpa using htext
    have hshown : Text.shown pre (rest ++ []) = pre ++ rest := Text.shown_of_not_mem hmem rfl
    have hbody := Line.body_of_not_mem (n := n) hmem
    rw [List.append_nil] at hshown
    rw [Position.after_of_not_mem fun hnl => hmem (List.mem_append_left _ hnl), hshown]
    refine .onLine (List.mem_singleton_self _) rfl (Nat.le_add_right _ _) ?_ hbody.symm
    rw [hbody, List.length_append]
    simp only [Position.shifted]
    omega
  | @cons n body more hmem hmore ih =>
    rw [List.flatMap_cons] at htext
    have hline : body ++ ['\n'] <+: pre ++ rest := ⟨more.flatMap Line.text, htext⟩
    by_cases hlength : pre.length ≤ body.length
    · -- the place is on this line
      obtain ⟨own, rfl⟩ : pre <+: body := List.prefix_of_prefix_length_le
        (List.prefix_append _ _) ((List.prefix_append _ _).trans hline) hlength
      have hrest : rest = own ++ '\n' :: more.flatMap Line.text := by
        rw [List.append_assoc, List.append_assoc, List.append_cancel_left_eq] at htext
        rw [← htext, List.singleton_append]
      have hstops : Stops (· ≠ '\n') ('\n' :: more.flatMap Line.text) := rfl
      rw [Position.after_of_not_mem fun hnl => hmem (List.mem_append_left _ hnl), hrest,
        Text.shown_of_not_mem hmem hstops]
      have hbody := Line.body_append_newline (n := n) hmem
      refine .onLine List.mem_cons_self rfl (Nat.le_add_right _ _) ?_ hbody.symm
      rw [hbody]
      simp only [Position.shifted]
      omega
    · -- the place is after this line
      obtain ⟨pre', rfl⟩ : body ++ ['\n'] <+: pre := by
        refine List.prefix_of_prefix_length_le hline (List.prefix_append _ _) ?_
        rw [List.length_append]
        exact Nat.lt_of_not_le hlength
      rw [List.append_assoc (body ++ ['\n']), List.append_cancel_left_eq] at htext
      rw [Position.after_append, Position.after_line hmem]
      by_cases hmore' : more = []
      · -- there is no line after it
        subst hmore'
        obtain ⟨rfl, rfl⟩ := List.append_eq_nil_iff.1 htext.symm
        rw [List.append_nil, Text.shown_after_line hmem]
        exact .afterLast rfl (by simp) rfl (Line.body_append_newline hmem).symm
      · rw [Text.shown_append (.inr (by simp)) (htext ▸ hmore.flatMap_ne_nil hmore')]
        exact (ih hmore' htext).cons _

end Consecutive

/-! ## 3. Openings -/

namespace Position

/-- Positions are compared by line, and then by column. -/
theorem compare_eq_lt_iff {p q : Position} :
    compare p q = .lt ↔ p.line < q.line ∨ p.line = q.line ∧ p.column < q.column := by
  have hcompare : compare p q = (compare p.line q.line).then (compare p.column q.column) := rfl
  rw [hcompare, Ordering.then_eq_lt, Nat.compare_eq_lt, Nat.compare_eq_eq, Nat.compare_eq_lt]

/-- **Passing a text leads to a later position.** -/
theorem compare_after {p : Position} {s : Text} (h : s ≠ []) : compare p (p.after s) = .lt := by
  induction s generalizing p with
  | nil => exact absurd rfl h
  | cons ch s ih =>
    have hnext : compare p (p.next ch) = .lt := by
      rw [compare_eq_lt_iff]
      unfold next
      split
      · exact .inl (Nat.lt_succ_self _)
      · exact .inr ⟨rfl, Nat.lt_succ_self _⟩
    by_cases hs : s = []
    · subst hs
      exact hnext
    · have hrest := ih (p := p.next ch) hs
      rw [after_cons]
      rw [compare_eq_lt_iff] at hnext hrest ⊢
      omega

end Position

/-- How many characters come before what is never closed, if the cause is that. -/
def Cause.opened? : Cause → Option Nat
  | unknown | unreadable _ => none
  | openBrace opened | openQuote _ opened | openComment opened => some opened

namespace Fault

/-- An error names the place of its fault. -/
theorem site?_error (fault : Fault) (c : Cursor) :
    (fault.error c).site? = some (c.skip fault.place).site := by
  obtain ⟨cause, place, stop⟩ := fault
  cases cause <;> rfl

/-- An error names the place of the opening. -/
theorem opened?_error (fault : Fault) (c : Cursor) :
    (fault.error c).opened? = fault.cause.opened?.map fun k => (c.skip k).position := by
  obtain ⟨cause, place, stop⟩ := fault
  cases cause <;> rfl

/-- What was opened comes before the place of the fault, which is in the text or at its end. -/
def OpensBefore (fault : Fault) (s : Text) : Prop :=
  ∀ opened, fault.cause.opened? = some opened → opened < fault.place ∧ fault.place ≤ s.length

theorem OpensBefore.shift {fault : Fault} {s : Text} (h : fault.OpensBefore s) (pre : Text) :
    (fault.shift pre.length).OpensBefore (pre ++ s) := by
  obtain ⟨cause, place, stop⟩ := fault
  intro opened hopened
  cases cause with
  | unknown | unreadable => cases hopened
  | openBrace k | openQuote _ k | openComment k =>
    cases hopened
    have hk : k < place ∧ place ≤ s.length := h k rfl
    rw [List.length_append]
    dsimp only [Fault.shift]
    omega

end Fault

theorem Piece.Fails.opensBefore {s : Text} {fault : Fault} (h : Fails s fault) :
    fault.OpensBefore s := by
  intro opened hopened
  cases h with
  | quote | comment =>
    cases hopened
    exact ⟨Nat.succ_pos _, Nat.le_refl _⟩
  | placeholder => cases hopened

/-- **What is left open was opened before the place of the fault.** -/
theorem Stuck.opensBefore {s : Text} {fault : Fault} (h : Stuck s fault) :
    fault.OpensBefore s := by
  cases h with
  | nothing | number | word =>
    intro opened hopened
    cases hopened
  | string | comment =>
    intro opened hopened
    cases hopened
    exact ⟨Nat.succ_pos _, Nat.le_refl _⟩
  | code hcode =>
    cases hcode with
    | @atEnd pieces last =>
      intro opened hopened
      cases hopened
      rw [List.length_cons, Nat.add_comm 1]
      exact ⟨Nat.succ_pos _, Nat.le_refl _⟩
    | @atPiece pieces last rest fault _ hfails =>
      have hshift := hfails.opensBefore.shift ('{' :: Code.text pieces)
      rwa [List.length_cons, Nat.add_comm] at hshift

/-! ## 4. Errors of a file -/

/-- The error is found in these lines of the file, numbered from `a` to `b`: on one of them, at a
column of it or right after it, and that line is shown; or right after the newline of the last one,
which is shown. What it says is open was opened in these lines, before it was found. -/
def LexError.Located (file : Text) (lines : List Line) (e : LexError) : Prop :=
  ∃ a b site, a ≤ b ∧ lines.map Line.number = List.range' a (b + 1 - a) ∧ e.site? = some site ∧
    ((∃ line ∈ file.numberedLines, a ≤ line.number ∧ line.number ≤ b ∧
        site.position.line = line.number ∧ 1 ≤ site.position.column ∧
        site.position.column ≤ line.body.length + 1 ∧ site.snippet = line.body) ∨
      ∃ last ∈ file.numberedLines, last.number = b ∧ last.text.getLast? = some '\n' ∧
        site.position = ⟨b + 1, 1⟩ ∧ site.snippet = last.body) ∧
    ∀ opened, e.opened? = some opened → a ≤ opened.line ∧ opened.line ≤ b ∧
      (∃ rest, Locates lines opened rest) ∧ compare opened site.position = .lt

/-- **An error of some lines is found in them**, and so are the openings that it names. -/
theorem exists_shows_of_scanLines {n : Nat} {lines : List Line} {e : LexError}
    (hlines : Consecutive n lines) (h : (scanLines lines).result = .error e) :
    lines ≠ [] ∧ ∃ site, e.site? = some site ∧ site.Shows lines ∧
      ∀ opened, e.opened? = some opened →
        (∃ rest, Locates lines opened rest) ∧ compare opened site.position = .lt := by
  have hne : lines ≠ [] := by
    rintro rfl
    cases h
  have hscan : scanFrom n (lines.flatMap Line.text) = .error e := by
    rw [scanFrom_eq, ← h]
    have hhead := hlines.head?_number hne
    obtain ⟨first, more, rfl⟩ := List.exists_cons_of_ne_nil hne
    rw [← Option.some.inj hhead]
    rfl
  obtain ⟨items, ahead, fault, hreads, hstuck, rfl⟩ := scanFrom_eq_error_iff.1 hscan
  obtain ⟨hpassed, hahead⟩ := hreads.passed n
  generalize (Cursor.start _ n).skip _ = c at hpassed hahead
  have hplace := hpassed.skip fault.place
  refine ⟨hne, (c.skip fault.place).site, fault.site?_error c, ?_, fun opened hopened => ?_⟩
  · rw [Cursor.site, hplace.position_eq, hplace.snippet_eq]
    exact hlines.shows hne hplace.split.symm
  · rw [Fault.opened?_error] at hopened
    obtain ⟨k, hk, rfl⟩ := Option.map_eq_some_iff.1 hopened
    obtain ⟨hlt, hle⟩ := hstuck.opensBefore k hk
    have hopening := hpassed.skip k
    rw [← hahead] at hle
    constructor
    · refine ⟨(c.skip k).rest, ?_⟩
      rw [hopening.position_eq]
      refine hlines.locates hopening.split.symm ?_
      rw [Cursor.rest_skip]
      exact List.ne_nil_of_length_pos (by rw [List.length_drop]; omega)
    · -- the place of the fault is reached from the opening by passing what is between
      have hbetween := hopening.skip (fault.place - k)
      rw [← Cursor.skip_add, Nat.add_sub_cancel' (Nat.le_of_lt hlt)] at hbetween
      rw [Cursor.site, hbetween.position_eq, Position.after_append, ← hopening.position_eq]
      refine Position.compare_after (List.ne_nil_of_length_pos ?_)
      rw [Cursor.rest_skip, List.length_take, List.length_drop]
      omega

/-- An error of lines that stand together in a file is located in them. -/
theorem located_of_scanLines {file : Text} {lines : List Line} {e : LexError}
    (hpart : lines <:+: file.numberedLines) (h : (scanLines lines).result = .error e) :
    e.Located file lines := by
  obtain ⟨n, hlines⟩ := Consecutive.of_infix hpart
  obtain ⟨hne, site, hsite, hshows, hopenings⟩ := exists_shows_of_scanLines hlines h
  have hpos := List.length_pos_iff.2 hne
  have hnumbers := hlines.numbers
  have hrange : ∀ line ∈ lines, n ≤ line.number ∧ line.number ≤ n + lines.length - 1 := by
    intro line hline
    have hmem := List.mem_map_of_mem (f := Line.number) hline
    rw [hnumbers, List.mem_range'_1] at hmem
    omega
  refine ⟨n, n + lines.length - 1, site, by omega, ?_, hsite, ?_, fun opened hopened => ?_⟩
  · rw [hnumbers]
    congr 1
    omega
  · cases hshows with
    | @onLine line hline hnumber hleast hmost hsnippet =>
      obtain ⟨hfirst, hlast⟩ := hrange line hline
      exact .inl ⟨line, hpart.subset hline, hfirst, hlast, hnumber, hleast, hmost, hsnippet⟩
    | @afterLast last hlast hnewline hposition hsnippet =>
      have hnumber : last.number = n + lines.length - 1 := by
        have hmapped := congrArg List.getLast? hnumbers
        rw [List.getLast?_map, hlast, List.getLast?_range', if_neg (Nat.ne_of_gt hpos)] at hmapped
        exact Option.some.inj hmapped
      rw [hnumber] at hposition
      exact .inr ⟨last, hpart.subset (List.mem_of_getLast? hlast), hnumber, hnewline, hposition,
        hsnippet⟩
  · obtain ⟨⟨rest, hlocates⟩, hbefore⟩ := hopenings opened hopened
    obtain ⟨line, hline, hnumber, -⟩ := hlocates.line
    have hbounds := hrange line hline
    rw [hnumber] at hbounds
    exact ⟨hbounds.1, hbounds.2, ⟨rest, hlocates⟩, hbefore⟩

namespace GrammarFile

/-- **Every error of a file is located.** It is never about a stage; it comes from the declarations,
or from the rules of a file whose declarations can be scanned, and it is located in the lines of
that section, by the numbers that they have in the file. -/
theorem error_located {text : Text} {e : LexError} (h : lex text = .error e) :
    (∀ stage, e ≠ .unreachableStage stage) ∧
    ∃ layout which, layOut text = .ok layout ∧
      (which = .declarations ∨ which = .rules ∧
        ∃ tokens, (scanLines layout.sections.declarations).result = .ok tokens) ∧
      (scanLines (layout.sections.get which)).result = .error e ∧
      layout.sections.get which <:+: text.numberedLines ∧
      e.Located text (layout.sections.get which) := by
  obtain ⟨layout, hlayout, hdealt⟩ := exists_layOut text
  rw [lex_of_layOut hlayout] at h
  -- the two sections that are scanned, the first one first
  obtain ⟨which, hwhich, hscan, hpart⟩ : ∃ which,
      (which = .declarations ∨ which = .rules ∧
        ∃ tokens, (scanLines layout.sections.declarations).result = .ok tokens) ∧
      (scanLines (layout.sections.get which)).result = .error e ∧
      layout.sections.get which <:+: text.numberedLines := by
    cases hdeclarations : (scanLines layout.sections.declarations).result with
    | error e' =>
      rw [hdeclarations] at h
      cases h
      exact ⟨.declarations, .inl rfl, hdeclarations, hdealt.infix_declarations⟩
    | ok tokens =>
      rw [hdeclarations] at h
      exact ⟨.rules, .inr ⟨rfl, tokens, rfl⟩, eq_error_of_map_eq_error h, hdealt.infix_rules⟩
  have hlocated := located_of_scanLines hpart hscan
  refine ⟨?_, layout, which, hlayout, hwhich, hscan, hpart, hlocated⟩
  rintro stage rfl
  obtain ⟨-, -, site, -, -, hsite, -⟩ := hlocated
  cases hsite

/-- A string is left open in rules that end in an empty line: the error is found on the line after
it, and shows that empty line. -/
theorem open_string_before_empty_line :
    lex "%\x7b\n%\x7d\n%%\na \"é\n\n".toList =
        .error (.quoteMismatch '"' ⟨4, 3⟩ ⟨⟨6, 1⟩, []⟩) ∧
      ∃ layout which, layOut "%\x7b\n%\x7d\n%%\na \"é\n\n".toList = .ok layout ∧
        LexError.Located "%\x7b\n%\x7d\n%%\na \"é\n\n".toList (layout.sections.get which)
          (.quoteMismatch '"' ⟨4, 3⟩ ⟨⟨6, 1⟩, []⟩) := by
  have hname : Lexes (.identifier ['a'] false) ['a'] " \"é\n\n".toList :=
    .name ⟨'a', [], rfl, rfl, by simp⟩ rfl (by decide)
  have hreads : ReadsTo _ "a \"é\n\n".toList _ := .lexeme hname (.blank rfl .done)
  have hstuck : Stuck "\"é\n\n".toList _ := .string (by decide)
  have hscan : scanFrom 4 "a \"é\n\n".toList =
      .error (.quoteMismatch '"' ⟨4, 3⟩ ⟨⟨6, 1⟩, []⟩) :=
    scanFrom_eq_error_iff.2 ⟨_, _, _, hreads, hstuck, rfl⟩
  have hlex : lex "%\x7b\n%\x7d\n%%\na \"é\n\n".toList =
      .error (.quoteMismatch '"' ⟨4, 3⟩ ⟨⟨6, 1⟩, []⟩) := by
    have hlayout : layOut "%\x7b\n%\x7d\n%%\na \"é\n\n".toList = .ok ⟨.rules,
      ⟨[⟨[], 1⟩, ⟨[], 2⟩], [], [⟨"a \"é\n".toList, 4⟩, ⟨['\n'], 5⟩], []⟩⟩ := rfl
    rw [lex_of_layOut hlayout]
    exact congrArg (Except.map _) hscan
  obtain ⟨-, layout, which, hlayout, -, -, -, hlocated⟩ := error_located hlex
  exact ⟨hlex, layout, which, hlayout, hlocated⟩

end GrammarFile

end GrammarLexer
