import GrammarLexer.Proofs.Attempts
import GrammarLexer.Proofs.Safety

/-!
# Loops that end

A guarded loop watches over its own progress, and breaks off without it. Here the loops of the lexer
run unwatched, another round whenever one is asked for, and they end all the same: a round that asks
for another one has passed a character.

* `Guarded.Runs` -- an unwatched loop, with the number of its rounds;
* `Guarded.Advance` -- one round: it passes a character, or it is the last;
* `Guarded.exists_runs` -- **a loop that advances ends**, and the watched loop with it, after at most
  one round more than there are characters;
* `Guarded.advance_scanStep`, `Guarded.advance_takePiece`, `Guarded.advance_closingStep` -- the loops
  of a scan, of a block and of a comment advance;
* `attempts_keep_contract_and_loops_end` -- **the forms keep to their contract, and lexing ends**.
-/

namespace GrammarLexer

namespace Guarded

/-! ## 1. Unwatched loops -/

section

variable {σ α : Type}

/-- `Runs step s b n r`: the step, begun with `s` at the cursor `b` and repeated whenever it asks for
it, ends after `n` rounds with the result and the cursor `r`. -/
inductive Runs (step : σ → Guarded (Turn σ α)) :
    σ → ByteCursor → Nat → Except LexError α × ByteCursor → Prop where
  | done {s : σ} {b b' : ByteCursor} {a : α} : step s b = some (.ok (.done a), b') →
      Runs step s b 1 (.ok a, b')
  | fails {s : σ} {b b' : ByteCursor} {e : LexError} : step s b = some (.error e, b') →
      Runs step s b 1 (.error e, b')
  | again {s s' : σ} {b b' : ByteCursor} {n : Nat} {r : Except LexError α × ByteCursor} :
      step s b = some (.ok (.again s'), b') → Runs step s' b' n r → Runs step s b (n + 1) r

/-- One round at a cursor. It passes at least one character and asks for another round, with
something `good` to go on with; or it ends the loop, with a value or an error. -/
inductive Advance (good : σ → Prop) (m : Guarded (Turn σ α)) (c : Cursor) : Prop where
  | again {s : σ} {k : Nat} : Leads m c (.ok (.again s)) (c.skip k) → good s → 0 < k →
      k ≤ c.rest.length → Advance good m c
  | done {a : α} {k : Nat} : Leads m c (.ok (.done a)) (c.skip k) → Advance good m c
  | fails {e : LexError} {k : Nat} : Leads m c (.error e) (c.skip k) → Advance good m c

/-- A loop ends wherever it is begun with something `good`: its rounds advance, and there is at most
one more of them than there are characters ahead. The watched loop ends with the same result. -/
structure Ends (good : σ → Prop) (step : σ → Guarded (Turn σ α)) : Prop where
  advances : ∀ s c, good s → Cursor.Placed c → Advance good (step s) c
  runs : ∀ s c, good s → Cursor.Placed c → ∃ n r k, n ≤ c.rest.length + 1 ∧
    Runs step s c.bytes n (r, (c.skip k).bytes) ∧ Leads (loop step s) c r (c.skip k)

variable {good : σ → Prop} {step : σ → Guarded (Turn σ α)}

/-- **A loop that advances ends.** The induction is on the number of characters ahead. -/
theorem exists_runs (hstep : ∀ s c, good s → c.Placed → Advance good (step s) c) {s : σ}
    {c : Cursor} (hs : good s) (h : c.Placed) :
    ∃ n r k, n ≤ c.rest.length + 1 ∧ Runs step s c.bytes n (r, (c.skip k).bytes) ∧
      Leads (loop step s) c r (c.skip k) := by
  generalize hlength : c.rest.length = m
  induction m using Nat.strongRecOn generalizing s c with
  | ind m ih =>
    cases hstep s c hs h with
    | @again s' k hleads hs' hpos hle =>
      have hne : c.rest ≠ [] := List.length_pos_iff.1 (Nat.lt_of_lt_of_le hpos hle)
      have hless : (c.skip k).rest.length < m := by
        rw [Cursor.rest_skip, List.length_drop]
        omega
      obtain ⟨n, r, j, hn, hruns, hloop⟩ := ih _ hless hs' (h.skip k) rfl
      rw [← Cursor.skip_add] at hruns hloop
      exact ⟨n + 1, r, k + j, by omega, .again hleads hruns,
        .again hleads (h.left_skip_lt hne hpos) hloop⟩
    | done hleads => exact ⟨1, _, _, Nat.le_add_left _ _, .done hleads, .done hleads⟩
    | fails hleads => exact ⟨1, _, _, Nat.le_add_left _ _, .fails hleads, .loop_error hleads⟩

theorem ends_of_advance (hstep : ∀ s c, good s → c.Placed → Advance good (step s) c) :
    Ends good step :=
  ⟨hstep, fun _ _ hs h => exists_runs hstep hs h⟩

end

/-! ## 2. The loops of the lexer -/

variable {c : Cursor}

/-- **A round of a scan** passes blanks or a lexeme, or is the last. -/
theorem advance_scanStep (h : c.Placed) (done : List Token) :
    Advance (fun _ => True) (scanStep done) c := by
  cases hrest : c.rest with
  | nil => exact .done (k := 0) (leads_scanStep_end h hrest done)
  | cons ch ahead =>
    have hne : c.rest ≠ [] := hrest ▸ List.cons_ne_nil _ _
    by_cases hblank : isBlank ch = true
    · have hround := leads_round_blank h hrest hblank
      refine .again (leads_scanStep h hne hround done) trivial ?_ ?_
      · rw [hrest, List.takeWhile_cons_of_pos hblank]
        exact Nat.succ_pos _
      · exact (List.takeWhile_sublist _).length_le
    · have hround := performs_round h hrest hblank
      cases hfirst : Form.lexFirst? Form.all c.rest with
      | none =>
        rw [hfirst] at hround
        exact .done (k := 0) (leads_scanStep h hne hround done)
      | some found =>
        obtain ⟨form, reading⟩ := found
        rw [hfirst] at hround
        cases reading with
        | error fault => exact .done (leads_scanStep h hne hround done)
        | ok taken =>
          obtain ⟨word, after, htext, hwidth, -⟩ :=
            Form.isLexeme_of_lex? (Form.lex?_of_lexFirst? hfirst)
          refine .again (leads_scanStep h hne hround done) trivial
            (Form.width_pos_of_lexFirst? hfirst) ?_
          rw [htext, hwidth, List.length_append]
          exact Nat.le_add_right _ _

/-- **A round of a block** passes a piece of it. As long as it is not over, a brace is open. -/
theorem advance_takePiece (h : c.Placed) (opened : Position) {block : OpenBlock}
    (hopen : 0 < block.depth) :
    Advance (fun block => 0 < block.depth) (takePiece opened block) c := by
  obtain ⟨code, references, depth⟩ := block
  obtain ⟨depth, rfl⟩ := Nat.exists_eq_add_one_of_ne_zero (Nat.ne_of_gt hopen)
  cases hrest : c.rest with
  | nil => exact .fails (k := 0) (.bind (leads_peek h hrest) (.fail (h.map_site? _)))
  | cons ch ahead =>
    cases hread : Piece.read ch ahead with
    | error fault => exact .fails (leads_takePiece_error h hrest hread)
    | ok piece =>
      cases hdepth : piece.depthAfter? depth with
      | none => exact .done (leads_takePiece_done h hrest hread hdepth)
      | some next =>
        obtain ⟨after, hafter, -⟩ := Piece.stands_of_read hread
        refine .again (leads_takePiece_again h hrest hread hdepth) (Nat.succ_pos next)
          (List.length_pos_iff.2 piece.text_ne_nil) ?_
        rw [hrest, hafter, List.length_append]
        exact Nat.le_add_right _ _

/-- **A round of a comment** passes a character, or the mark that closes it. -/
theorem advance_closingStep (h : c.Placed) (raw : Text) :
    Advance (fun _ => True) (closingStep raw) c := by
  cases hrest : c.rest with
  | nil => exact .done (k := 0) (leads_closingStep_end h hrest)
  | cons ch ahead =>
    by_cases hclosing : commentClosing <+: ch :: ahead
    · obtain ⟨after, hafter⟩ := hclosing
      exact .done (leads_closingStep_mark h (hrest.trans hafter.symm))
    · refine .again (leads_closingStep_again h hrest hclosing) trivial Nat.one_pos ?_
      rw [hrest]
      exact Nat.succ_le_succ (Nat.zero_le _)

theorem ends_scanStep : Ends (fun _ => True) scanStep :=
  ends_of_advance fun done _ _ h => advance_scanStep h done

/-- An unwatched scan of a text ends, and gives the scan of the text. -/
theorem exists_runs_scanStep (text : Text) (line : Nat) :
    ∃ n b, n ≤ text.length + 1 ∧
      Runs scanStep [] (Cursor.start text line).bytes n (.ok (scanText text line), b) := by
  have hplaced := Cursor.Placed.start text line
  obtain ⟨n, r, k, hn, hruns, hloop⟩ := ends_scanStep.runs [] _ trivial hplaced
  obtain ⟨c', hscan⟩ := leads_scan hplaced []
  have hsame := Option.some.inj (hloop.symm.trans hscan)
  rw [hsame] at hruns
  exact ⟨n, c'.bytes, hn, hruns⟩

end Guarded

/-! ## 3. Lexing ends -/

/-- **The forms keep to their contract, and lexing ends.** An attempt does nothing where its form
does not start; where it starts, the form is read and passed, or fails for a reason of its own, and
is never out of place. So every round of a scan passes a character or is the last, and the scan ends,
for every text; and so do the loops for a block of action code and for a comment, wherever they are
begun. -/
theorem attempts_keep_contract_and_loops_end :
    (∀ (form : Form) (c : Cursor), form.Contract c) ∧
    Guarded.Ends (fun _ => True) Guarded.scanStep ∧
    (∀ (text : Text) (line : Nat), ∃ n b, n ≤ text.length + 1 ∧
      Guarded.Runs Guarded.scanStep [] (Cursor.start text line).bytes n
        (.ok (scanText text line), b)) ∧
    (∀ opened : Position, Guarded.Ends (fun block => 0 < block.depth) (Guarded.takePiece opened)) ∧
    Guarded.Ends (fun _ => True) Guarded.closingStep := by
  refine ⟨Form.contract, Guarded.ends_scanStep, Guarded.exists_runs_scanStep, fun opened => ?_, ?_⟩
  · exact Guarded.ends_of_advance fun _ _ hopen h => Guarded.advance_takePiece h opened hopen
  · exact Guarded.ends_of_advance fun raw _ _ h => Guarded.advance_closingStep h raw

/-- A word that is not listed is no tag, and fails as a word. A scan of it ends, and so do the loops
for a block and for a comment with a letter of two bytes in them. -/
theorem contract_and_loops_at_short_texts :
    (Operation.lex .tag).run (Cursor.start "%xé".toList 1) =
        (.outcome .nothing, Cursor.start "%xé".toList 1) ∧
      Form.FailsAt (Cursor.start "%xé".toList 1) .percentWord
        (.unknownToken "%xé".toList ⟨⟨1, 1⟩, "%xé".toList⟩) ∧
      (∃ n b, n ≤ 4 ∧ Guarded.Runs Guarded.scanStep [] (Cursor.start "%xé".toList 1).bytes n
        (.ok (scanText "%xé".toList 1), b)) ∧
      (∃ n r b, n ≤ 3 ∧ Guarded.Runs (Guarded.takePiece ⟨1, 1⟩) ⟨['{'], [], 1⟩
        (Cursor.start "é\x7d".toList 1).bytes n (r, b)) ∧
      ∃ n r b, n ≤ 4 ∧ Guarded.Runs Guarded.closingStep commentOpening
        (Cursor.start "é*/".toList 1).bytes n (r, b) := by
  obtain ⟨hcontract, -, hscan, hblock, hcomment⟩ := attempts_keep_contract_and_loops_end
  have hplaced := fun s => Cursor.Placed.start s 1
  have hword : (Operation.lex .percentWord).run (Cursor.start "%xé".toList 1) =
      (.outcome (.errant (.unknownToken "%xé".toList ⟨⟨1, 1⟩, "%xé".toList⟩)), _) := rfl
  refine ⟨(hcontract _ _).refuses rfl, ?_, hscan "%xé".toList 1, ?_, ?_⟩
  · rcases (hcontract .percentWord (Cursor.start "%xé".toList 1)).comes_to rfl with
      ⟨value, c, hlexed, -⟩ | ⟨e, c, herrant, hfails⟩
    · rw [hword] at hlexed
      cases hlexed
    · rw [hword] at herrant
      cases herrant
      exact hfails
  · obtain ⟨n, r, k, hn, hruns, -⟩ := (hblock ⟨1, 1⟩).runs ⟨['{'], [], 1⟩ _ Nat.one_pos
      (hplaced "é\x7d".toList)
    exact ⟨n, r, _, hn, hruns⟩
  · obtain ⟨n, r, k, hn, hruns, -⟩ := hcomment.runs commentOpening _ trivial (hplaced "é*/".toList)
    exact ⟨n, r, _, hn, hruns⟩

end GrammarLexer
