import GrammarLexer.Proofs.Guarded
import GrammarLexer.Proofs.Sites

/-!
# Guarded moves follow a cursor

A cursor by bytes does what the cursor does that keeps the text ahead: as long as its offset stands
where a cursor of the text stands, no cut that it makes breaks off, and every move leads to where
the cursor goes.

* `Text.look?_eq` -- what one look for the line around a place comes to;
* `Text.lineAt?_byteSize` -- the line around a place is cut out as it is shown;
* `Cursor.bytes`, `Cursor.Placed` -- a cursor by its counters alone, and that these are right;
* `Guarded.Leads m c r c'` -- the steps lead from one cursor to another and give `r`;
* `Guarded.Leads.bind`, `Guarded.Leads.bind_error` -- one step after another;
* `Guarded.Leads.again`, `Guarded.Leads.done` -- one step of a loop more, and its last one;
* `Guarded.leads_take`, `Guarded.leads_takeWhile`, `Guarded.leads_advance`,
  `Guarded.leads_takeMatch` -- **each move leads to where the cursor goes.**
-/

namespace GrammarLexer

/-! ## 1. Cuts -/

namespace Text

theorem slice?_left (p q : Text) : slice? 0 p.byteSize (p ++ q) = some p := by
  have hslice := slice?_append [] p q
  rwa [byteSize_nil, Nat.zero_add, List.nil_append] at hslice

theorem slice?_right (p q : Text) : slice? p.byteSize (p ++ q).byteSize (p ++ q) = some q := by
  have hslice := slice?_append p q []
  rwa [List.append_nil, ← byteSize_append] at hslice

theorem rfind?_of_not_mem {ch : Char} {s : Text} (h : ch ∉ s) : rfind? ch s = none := by
  induction s with
  | nil => rfl
  | cons x s ih =>
    simp only [List.mem_cons, not_or] at h
    rw [rfind?, ih h.2]
    exact if_neg (Ne.symm h.1)

theorem rfind?_append {ch : Char} (before : Text) {own : Text} (h : ch ∉ own) :
    rfind? ch (before ++ ch :: own) = some before.byteSize := by
  induction before with
  | nil =>
    rw [List.nil_append, rfind?, rfind?_of_not_mem h]
    exact if_pos rfl
  | cons x before ih => rw [List.cons_append, rfind?, ih, byteSize_cons]

/-- The last line starts after the last newline. -/
theorem start_of_rfind? {before own : Text} (hbefore : EndsLine before) (hown : '\n' ∉ own) :
    ((rfind? '\n' (before ++ own)).map (· + 1)).getD 0 = before.byteSize := by
  rcases hbefore with rfl | hlast
  · rw [List.nil_append, rfind?_of_not_mem hown]
    rfl
  · obtain ⟨body, rfl⟩ := List.getLast?_eq_some_iff.1 hlast
    rw [List.append_assoc, List.singleton_append, rfind?_append body hown, byteSize_append]
    rfl

theorem before?_newline (s : Text) :
    before? ['\n'] s = if '\n' ∈ s then some (s.takeWhile (· ≠ '\n')) else none := by
  split
  case isTrue hmem =>
    obtain ⟨inner, rest, rfl, hinner⟩ := List.eq_append_cons_of_mem hmem
    have hkeep : ∀ ch ∈ inner, decide (ch ≠ '\n') = true := fun ch hch => by
      simp only [decide_eq_true_eq]
      rintro rfl
      exact hinner hch
    have htake : (inner ++ '\n' :: rest).takeWhile (· ≠ '\n') = inner :=
      takeWhile_append_of_stops hkeep rfl
    rw [htake]
    refine (before?_eq_some_iff (List.cons_ne_nil _ _)).2 ⟨endsFirst_singleton.2 hinner, rest, ?_⟩
    rw [List.append_assoc, List.singleton_append]
  case isFalse hmem =>
    exact (before?_eq_none_iff (List.cons_ne_nil _ _)).2 fun hpart =>
      hmem (hpart.subset List.mem_cons_self)

/-- A line goes on up to the next newline, or to the end. -/
theorem stop_of_find? (n : Nat) (after : Text) :
    ((find? '\n' after).map (n + ·)).getD (n + after.byteSize) =
      n + byteSize (after.takeWhile (· ≠ '\n')) := by
  rw [find?, before?_newline]
  split
  case isTrue => rfl
  case isFalse hmem =>
    have htake : (after ++ []).takeWhile (· ≠ '\n') = after := by
      refine takeWhile_append_of_stops (fun ch hch => ?_) rfl
      simp only [decide_eq_true_eq]
      rintro rfl
      exact hmem hch
    rw [List.append_nil] at htake
    rw [htake]
    rfl

theorem byteSize_eq_zero {s : Text} : s.byteSize = 0 ↔ s = [] := by
  constructor
  · intro h
    by_contra hne
    have hpos := byteSize_pos hne
    omega
  · rintro rfl
    rfl

/-- **One look**: the line is cut out between the newlines around the offset; at the end of the
text, right after a newline, the next look is before that newline. -/
theorem look?_eq (before after : Text) :
    look? (before ++ after) before.byteSize =
      if after = [] ∧ before ≠ [] ∧ lastLine before = [] then
        some (.again (byteSize before.dropLast))
      else some (.line (lastLine before ++ after.takeWhile (· ≠ '\n'))) := by
  obtain ⟨whole, hbefore, hown, hwhole⟩ := exists_lastLine before
  generalize hlast : lastLine before = own at hbefore hown
  have hmin : min before.byteSize (before ++ after).byteSize = before.byteSize := by
    rw [byteSize_append]
    exact Nat.min_eq_left (Nat.le_add_right _ _)
  have hstart := start_of_rfind? hwhole hown
  have hstop := stop_of_find? before.byteSize after
  rw [← hbefore] at hstart
  rw [look?, hmin, slice?_left, slice?_right]
  simp only [Option.bind_eq_bind, Option.bind_some, hstart, byteSize_append, hstop]
  have hcases : (whole.byteSize = before.byteSize + byteSize (after.takeWhile (· ≠ '\n')) ∧
      whole.byteSize = before.byteSize + after.byteSize ∧ 0 < whole.byteSize) ↔
      (after = [] ∧ before ≠ [] ∧ own = []) := by
    rw [← byteSize_eq_zero (s := after), ← byteSize_eq_zero (s := own), Ne,
      ← byteSize_eq_zero (s := before), hbefore, byteSize_append]
    have hle : byteSize (after.takeWhile (· ≠ '\n')) ≤ after.byteSize := by
      conv => rhs; rw [← List.takeWhile_append_dropWhile (p := (· ≠ '\n')) (l := after)]
      rw [byteSize_append]
      exact Nat.le_add_right _ _
    omega
  rw [if_congr hcases rfl rfl]
  split
  case isTrue hend =>
    obtain ⟨-, hne, rfl⟩ := hend
    obtain ⟨body, rfl⟩ : ∃ body, before = body ++ ['\n'] := by
      rw [List.append_nil] at hbefore
      subst hbefore
      exact List.getLast?_eq_some_iff.1 (hwhole.resolve_left hne)
    rw [List.append_nil] at hbefore
    have hsub : checkedSub whole.byteSize 1 = some body.byteSize := by
      rw [← hbefore, byteSize_append]
      exact if_pos (Nat.le_add_left _ _)
    rw [hsub, List.dropLast_concat]
    rfl
  case isFalse =>
    have hslice := slice?_append whole (own ++ after.takeWhile (· ≠ '\n'))
      (after.dropWhile (· ≠ '\n'))
    rw [byteSize_append, ← Nat.add_assoc, ← byteSize_append whole, ← List.append_assoc whole,
      ← hbefore, List.append_assoc before, List.takeWhile_append_dropWhile] at hslice
    rw [hslice]
    rfl

/-- The line at a place is what the first look gives, or what the next one gives before the newline
at the end. -/
theorem lineAt?_eq (before after : Text) :
    lineAt? (before ++ after) before.byteSize =
      if after = [] ∧ before ≠ [] ∧ lastLine before = [] then
        lineAt? (before ++ after) (byteSize before.dropLast)
      else some (lastLine before ++ after.takeWhile (· ≠ '\n')) := by
  rw [lineAt?, look?_eq]
  by_cases hend : after = [] ∧ before ≠ [] ∧ lastLine before = []
  · have hearlier : byteSize before.dropLast < min before.byteSize (before ++ after).byteSize := by
      rw [hend.1, List.append_nil, Nat.min_self]
      conv => rhs; rw [← List.dropLast_concat_getLast hend.2.1, byteSize_append]
      exact Nat.lt_add_of_pos_right (byteSize_pos (List.cons_ne_nil _ _))
    rw [if_pos hend, if_pos hend]
    exact if_pos hearlier
  · rw [if_neg hend, if_neg hend]

/-- **The line around a place is cut out as it is shown.** -/
theorem lineAt?_byteSize (before after : Text) :
    lineAt? (before ++ after) before.byteSize = some (shown before after) := by
  rw [lineAt?_eq, shown]
  split
  case isTrue hend =>
    obtain ⟨rfl, hne, hlast⟩ := hend
    obtain ⟨whole, hbefore, -, hwhole⟩ := exists_lastLine before
    rw [hlast, List.append_nil] at hbefore
    subst hbefore
    obtain ⟨body, rfl⟩ := List.getLast?_eq_some_iff.1 (hwhole.resolve_left hne)
    -- the second look is before the newline, and there is no third
    rw [List.dropLast_concat, List.append_nil, lineAt?_eq body ['\n'],
      if_neg fun h => List.cons_ne_nil _ _ h.1]
    simp
  case isFalse => rfl

end Text

theorem Text.covering_byteSize (p q : Text) : covering p.byteSize (p ++ q) = p.length := by
  induction p with
  | nil => simp [covering]
  | cons ch p ih =>
    obtain ⟨n, hn⟩ : ∃ n, byteSize (ch :: p) = n + 1 :=
      Nat.exists_eq_succ_of_ne_zero (Nat.ne_of_gt (byteSize_pos (List.cons_ne_nil _ _)))
    have hsub : n + 1 - ch.utf8Size = byteSize p := by
      rw [← hn, byteSize_cons, Nat.add_sub_cancel_left]
    rw [hn, List.cons_append, covering, hsub, ih, List.length_cons]

/-- Bytes past the end cover nothing more. -/
theorem Text.covering_min (n : Nat) (s : Text) : covering (min n s.byteSize) s = covering n s := by
  induction s generalizing n with
  | nil => cases n <;> rfl
  | cons ch s ih =>
    cases n with
    | zero => rw [Nat.zero_min]
    | succ n =>
      have hpos := Char.utf8Size_pos ch
      obtain ⟨k, hk⟩ : ∃ k, min (n + 1) (byteSize (ch :: s)) = k + 1 :=
        ⟨min (n + 1) (byteSize (ch :: s)) - 1, by rw [byteSize_cons]; omega⟩
      have hsub : k + 1 - ch.utf8Size = min (n + 1 - ch.utf8Size) (byteSize s) := by
        rw [byteSize_cons] at hk
        omega
      rw [hk, covering, covering, hsub, ih]

/-- The bytes of a text that comes next are passed with its characters. -/
theorem Cursor.advance_byteSize {c : Cursor} {taken after : Text} (h : c.rest = taken ++ after) :
    c.advance taken.byteSize = c.skip taken.length := by
  rw [advance, h, Text.covering_byteSize]

theorem Cursor.advance_of_match? {c : Cursor} {p : Pattern} {m : Match}
    (h : p.match? c.rest = some m) :
    c.advance (Text.byteSize (c.rest.take m.width)) = c.skip m.width := by
  have hwidth := Pattern.width_le_length (Pattern.mem_ways_of_match? h)
  rw [advance_byteSize (List.take_append_drop m.width c.rest).symm, List.length_take,
    Nat.min_eq_left hwidth]

/-! ## 2. A cursor by its counters -/

/-- A cursor without the text ahead. -/
def Cursor.bytes (c : Cursor) : ByteCursor := ⟨c.text, c.index, c.line, c.lineStart⟩

/-- The counters of the cursor are those of the text that it has passed. -/
def Cursor.Placed (c : Cursor) : Prop := ∃ first passed, c.Passed c.text first passed

theorem Cursor.rest_skip_one {c : Cursor} {ch : Char} {ahead : Text} (h : c.rest = ch :: ahead) :
    (c.skip 1).rest = ahead := by
  rw [rest_skip, h, List.drop_one, List.tail_cons]

theorem Cursor.bytes_skip_one {c : Cursor} {ch : Char} {rest : Text} (h : c.rest = ch :: rest) :
    (c.skip 1).bytes = c.bytes.bump ch := by
  unfold skip Cursor.bump ByteCursor.bump
  rw [h]
  dsimp only [skip, bytes]
  split <;> rfl

namespace Cursor.Placed

variable {c : Cursor}

theorem start (text : Text) (line : Nat) : (Cursor.start text line).Placed :=
  ⟨line, [], .start text line⟩

theorem skip (h : c.Placed) (n : Nat) : (c.skip n).Placed := by
  obtain ⟨first, passed, hpassed⟩ := h
  refine ⟨first, passed ++ c.rest.take n, ?_⟩
  rw [text_skip]
  exact hpassed.skip n

theorem byteSize_text (h : c.Placed) : c.text.byteSize = c.index + c.rest.byteSize := by
  obtain ⟨first, passed, hpassed⟩ := h
  rw [hpassed.index_eq, ← Text.byteSize_append, hpassed.split]

/-- The offset is below the size of the text as long as there is something ahead. -/
theorem index_lt_iff (h : c.Placed) : c.bytes.index < c.bytes.text.byteSize ↔ c.rest ≠ [] := by
  have hsize : c.bytes.text.byteSize = c.bytes.index + c.rest.byteSize := h.byteSize_text
  rw [hsize, Ne, ← Text.byteSize_eq_zero]
  omega

theorem left_eq (h : c.Placed) : c.bytes.left = c.rest.byteSize := by
  have hsize : c.bytes.text.byteSize = c.bytes.index + c.rest.byteSize := h.byteSize_text
  rw [ByteCursor.left, hsize, Nat.add_sub_cancel_left]

/-- Past a character, less is left. -/
theorem left_skip_lt (h : c.Placed) (hrest : c.rest ≠ []) {n : Nat} (hn : 0 < n) :
    (c.skip n).bytes.left < c.bytes.left := by
  have hsplit : c.rest.byteSize =
      Text.byteSize (c.rest.take n) + Text.byteSize (c.rest.drop n) := by
    rw [← Text.byteSize_append, List.take_append_drop]
  have hpos := Text.byteSize_take_pos hrest hn
  rw [(h.skip n).left_eq, h.left_eq, rest_skip]
  omega

/-- The text ahead is cut out whole. -/
theorem rest? (h : c.Placed) : c.bytes.rest? = some c.rest := by
  obtain ⟨first, passed, hpassed⟩ := h
  have hslice := Text.slice?_right passed c.rest
  rwa [hpassed.split, ← hpassed.index_eq] at hslice

-- inside a character it is not
example : ByteCursor.rest? ⟨['é'], 1, 1, 0⟩ = none := by decide

/-- What is ahead is cut out up to where a move leads. -/
theorem slice? (h : c.Placed) (n : Nat) :
    c.text.slice? c.index (c.skip n).index = some (c.rest.take n) := by
  obtain ⟨first, passed, hpassed⟩ := h
  have hslice := Text.slice?_append passed (c.rest.take n) (c.rest.drop n)
  rwa [List.append_assoc, List.take_append_drop, hpassed.split, ← hpassed.index_eq,
    ← index_skip] at hslice

theorem position? (h : c.Placed) : c.bytes.position? = some c.position := by
  obtain ⟨first, passed, hpassed⟩ := h
  have hslice := hpassed.slice_line
  simp only [ByteCursor.position?, Cursor.position, passedOfLine, bytes, hslice, Option.map_some,
    Option.getD_some]

theorem position_skip (h : c.Placed) (n : Nat) :
    (c.skip n).position = c.position.after (c.rest.take n) := by
  obtain ⟨first, passed, hpassed⟩ := h
  rw [(hpassed.skip n).position_eq, Position.after_append, ← hpassed.position_eq]

theorem site? (h : c.Placed) : c.bytes.site? = some c.site := by
  have hposition := h.position?
  obtain ⟨first, passed, hpassed⟩ := h
  have hline : c.bytes.text.lineAt? c.bytes.index = some c.snippet := by
    have hline := Text.lineAt?_byteSize passed c.rest
    rwa [hpassed.split, ← hpassed.index_eq, ← hpassed.snippet_eq] at hline
  rw [ByteCursor.site?, hposition, hline]
  rfl

theorem map_site? (h : c.Placed) (error : Site → LexError) :
    c.bytes.site?.map error = some (error c.site) := by
  rw [h.site?]
  rfl

theorem unknownToken? (h : c.Placed) : c.bytes.unknownToken? = some c.unknownToken := by
  rw [ByteCursor.unknownToken?, h.rest?, h.site?]
  rfl

end Cursor.Placed

/-! ## 3. Steps -/

namespace Guarded

variable {α β : Type} {c c₁ c₂ : Cursor} {ch : Char} {ahead : Text}

/-- `Leads m c r c'`: from the cursor `c`, of which they know the counters alone, the steps `m` lead
to the cursor `c'` and give `r`. They do not break off. -/
def Leads (m : Guarded α) (c : Cursor) (r : Except LexError α) (c' : Cursor) : Prop :=
  m c.bytes = some (r, c'.bytes)

namespace Leads

theorem pure (a : α) (c : Cursor) : Leads (Pure.pure a) c (.ok a) c := rfl

theorem get (c : Cursor) : Leads MonadState.get c (.ok c.bytes) c := rfl

theorem set (c c' : Cursor) : Leads (MonadStateOf.set c'.bytes) c (.ok ()) c' := rfl

theorem ask {look : ByteCursor → Option α} {a : α} (h : look c.bytes = some a) :
    Leads (Guarded.ask look) c (.ok a) c := by
  unfold Leads Guarded.ask
  rw [h]
  rfl

theorem fail {look : ByteCursor → Option LexError} {e : LexError} (h : look c.bytes = some e) :
    Leads (Guarded.fail look : Guarded α) c (.error e) c := by
  unfold Leads Guarded.fail
  rw [h]
  rfl

/-- **One step after another.** -/
theorem bind {m : Guarded α} {next : α → Guarded β} {a : α} {r : Except LexError β}
    (h : Leads m c (.ok a) c₁) (hnext : Leads (next a) c₁ r c₂) : Leads (m >>= next) c r c₂ := by
  unfold Leads at h hnext
  simp only [Leads, Bind.bind, ExceptT.bind, ExceptT.mk, StateT.bind, h, Option.bind_some]
  exact hnext

/-- An error ends the steps. -/
theorem bind_error {m : Guarded α} {next : α → Guarded β} {e : LexError}
    (h : Leads m c (.error e) c₁) : Leads (m >>= next) c (.error e) c₁ := by
  unfold Leads at h
  simp only [Leads, Bind.bind, ExceptT.bind, ExceptT.mk, StateT.bind, h, Option.bind_some]
  rfl

/-- An error that is taken as a value. -/
theorem attempt {m : Guarded α} {r : Except LexError α} (h : Leads m c r c₁) :
    Leads (Guarded.attempt m) c (.ok r) c₁ := by
  unfold Leads at h
  unfold Leads Guarded.attempt
  rw [h]
  rfl

section

variable {σ : Type} {step : σ → Guarded (Turn σ α)} {s : σ}

/-- **One step of a loop more**, after which less is left. -/
theorem again {next : σ} {r : Except LexError α} (h : Leads (step s) c (.ok (.again next)) c₁)
    (hleft : c₁.bytes.left < c.bytes.left) (hnext : Leads (loop step next) c₁ r c₂) :
    Leads (loop step s) c r c₂ := by
  unfold Leads at h hnext ⊢
  rw [loop, h]
  dsimp only
  rw [if_pos hleft, hnext]

/-- The last step of a loop. -/
theorem done {a : α} (h : Leads (step s) c (.ok (.done a)) c₁) :
    Leads (loop step s) c (.ok a) c₁ := by
  unfold Leads at h ⊢
  rw [loop, h]

/-- A step that fails ends the loop. -/
theorem loop_error {e : LexError} (h : Leads (step s) c (.error e) c₁) :
    Leads (loop step s) c (.error e) c₁ := by
  unfold Leads at h ⊢
  rw [loop, h]

end

theorem bump (h : c.rest = ch :: ahead) : Leads (Guarded.bump ch) c (.ok ()) (c.skip 1) := by
  unfold Leads
  rw [Cursor.bytes_skip_one h]
  rfl

end Leads

theorem leads_rest (h : c.Placed) (hrest : c.rest = ahead) : Leads rest c (.ok ahead) c :=
  .ask (hrest ▸ h.rest?)

theorem leads_position (h : c.Placed) : Leads position c (.ok c.position) c := .ask h.position?

theorem leads_peek (h : c.Placed) (hrest : c.rest = ahead) : Leads peek c (.ok ahead.head?) c :=
  .bind (leads_rest h hrest) (.pure _ _)

theorem leads_take (h : c.Placed) (hrest : c.rest = ch :: ahead) :
    Leads take c (.ok (some ch)) (c.skip 1) :=
  .bind (leads_peek h hrest) (.bind (.bump hrest) (.pure _ _))

/-- At the end nothing is taken. -/
theorem leads_take_nil (h : c.Placed) (hrest : c.rest = []) : Leads take c (.ok none) c :=
  .bind (leads_peek h hrest) (.pure _ _)

theorem leads_passWhile (h : c.Placed) (keep : Char → Bool) :
    Leads (passWhile keep) c (.ok ()) (c.skipWhile keep) := by
  unfold Cursor.skipWhile
  generalize hrest : c.rest = ahead
  induction ahead generalizing c with
  | nil => exact .done (.bind (leads_peek h hrest) (.pure _ _))
  | cons ch ahead ih =>
    by_cases hkeep : keep ch = true
    · have hnext := ih (h.skip 1) (Cursor.rest_skip_one hrest)
      rw [← Cursor.skip_add] at hnext
      rw [List.takeWhile_cons_of_pos hkeep, List.length_cons, Nat.add_comm]
      refine .again (.bind (leads_peek h hrest) ?_)
        (h.left_skip_lt (hrest ▸ List.cons_ne_nil _ _) Nat.one_pos) hnext
      dsimp only [List.head?_cons]
      rw [if_pos hkeep]
      exact .bind (.bump hrest) (.pure _ _)
    · rw [List.takeWhile_cons_of_neg hkeep]
      refine .done (.bind (leads_peek h hrest) ?_)
      dsimp only [List.head?_cons]
      rw [if_neg hkeep]
      exact .pure _ _

/-- **A run of characters is taken, and cut out of the text.** -/
theorem leads_takeWhile (h : c.Placed) (keep : Char → Bool) :
    Leads (takeWhile keep) c (.ok (c.takeWhile keep).1) (c.takeWhile keep).2 := by
  have htake : c.rest.take (c.rest.takeWhile keep).length = c.rest.takeWhile keep :=
    (List.prefix_iff_eq_take.1 (List.takeWhile_prefix _)).symm
  have hindex : (c.skipWhile keep).index = c.index + Text.byteSize (c.rest.takeWhile keep) := by
    rw [Cursor.skipWhile, Cursor.index_skip, htake]
  unfold takeWhile Cursor.takeWhile
  refine .bind (.get c) (.bind (leads_passWhile h keep) (.bind (.get _) ?_))
  by_cases hnil : c.rest.takeWhile keep = []
  · have hstay : ¬ c.bytes.index < (c.skipWhile keep).bytes.index := by
      dsimp only [Cursor.bytes]
      rw [hindex, hnil]
      exact Nat.lt_irrefl _
    dsimp only
    rw [if_neg hstay, if_pos hnil]
    exact .pure _ _
  · have hmoved : c.bytes.index < (c.skipWhile keep).bytes.index := by
      dsimp only [Cursor.bytes]
      rw [hindex]
      exact Nat.lt_add_of_pos_right (Text.byteSize_pos hnil)
    have hslice := h.slice? (c.rest.takeWhile keep).length
    rw [htake] at hslice
    dsimp only
    rw [if_pos hmoved, if_neg hnil]
    refine .bind (.ask ?_) (.pure _ _)
    dsimp only [Cursor.bytes]
    rwa [Cursor.skipWhile, Cursor.text_skip]

theorem leads_passTo (h : c.Placed) (stop : Nat) :
    Leads (passTo stop) c (.ok ()) (c.skip (c.rest.covering (stop - c.index))) := by
  generalize hrest : c.rest = ahead
  induction ahead generalizing c with
  | nil =>
    have hnone : Text.covering (stop - c.index) [] = 0 := by cases stop - c.index <;> rfl
    rw [hnone]
    refine .done (.bind (.get c) ?_)
    split
    · exact .bind (leads_peek h hrest) (.pure _ _)
    · exact .pure _ _
  | cons ch ahead ih =>
    by_cases hlt : c.bytes.index < stop
    · have hlt' : c.index < stop := hlt
      have hnext := ih (h.skip 1) (Cursor.rest_skip_one hrest)
      have hcovering : Text.covering (stop - c.index) (ch :: ahead) =
          1 + Text.covering (stop - (c.skip 1).index) ahead := by
        obtain ⟨n, hn⟩ : ∃ n, stop - c.index = n + 1 := ⟨stop - c.index - 1, by omega⟩
        have hindex : (c.skip 1).index = c.index + ch.utf8Size := by
          rw [Cursor.index_skip, hrest]
          rfl
        have hsub : n + 1 - ch.utf8Size = stop - (c.skip 1).index := by omega
        rw [hn, Text.covering, hsub, Nat.add_comm]
      rw [hcovering, Cursor.skip_add]
      refine .again (.bind (.get c) ?_)
        (h.left_skip_lt (hrest ▸ List.cons_ne_nil _ _) Nat.one_pos) hnext
      rw [if_pos hlt]
      exact .bind (leads_peek h hrest) (.bind (.bump hrest) (.pure _ _))
    · have hzero : stop - c.index = 0 := Nat.sub_eq_zero_of_le (Nat.le_of_not_lt hlt)
      rw [hzero]
      refine .done (.bind (.get c) ?_)
      rw [if_neg hlt]
      exact .pure _ _

/-- **A number of bytes is passed**, and the character whole in which they end. -/
theorem leads_advance (h : c.Placed) (n : Nat) : Leads (advance n) c (.ok ()) (c.advance n) := by
  have hstop := leads_passTo h (min (c.index + n) c.text.byteSize)
  have hsub : min (c.index + n) c.text.byteSize - c.index = min n c.rest.byteSize := by
    rw [h.byteSize_text]
    omega
  rw [hsub, Text.covering_min] at hstop
  exact .bind (.get c) hstop

/-- **What a pattern matches is taken.** -/
theorem leads_takeMatch (h : c.Placed) (p : Pattern) :
    Leads (takeMatch p) c (.ok (c.takeMatch p).1) (c.takeMatch p).2 := by
  unfold takeMatch Cursor.takeMatch
  refine .bind (leads_rest h rfl) ?_
  cases hmatch : p.match? c.rest with
  | none => exact .pure _ _
  | some m =>
    have hadvance := leads_advance h (Text.byteSize (c.rest.take m.width))
    rw [Cursor.advance_of_match? hmatch] at hadvance
    exact .bind hadvance (.pure _ _)

theorem leads_takeMatch_some (h : c.Placed) {p : Pattern} {m : Match}
    (hmatch : p.match? c.rest = some m) :
    Leads (takeMatch p) c (.ok (some (m.captures c.rest))) (c.skip m.width) := by
  have htake := leads_takeMatch h p
  rwa [Cursor.takeMatch, hmatch] at htake

theorem leads_takeMatch_none (h : c.Placed) {p : Pattern} (hmatch : p.match? c.rest = none) :
    Leads (takeMatch p) c (.ok none) c := by
  have htake := leads_takeMatch h p
  rwa [Cursor.takeMatch, hmatch] at htake

end Guarded

end GrammarLexer
