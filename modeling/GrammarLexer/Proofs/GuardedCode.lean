import GrammarLexer.Proofs.Moves

/-!
# Guarded action code

What runs up to a mark, and what stands between braces, is taken by guarded steps as it is read.

* `Cursor.takeThrough` -- everything up to a mark, and the mark;
* `Guarded.Performs` -- steps do at a cursor what a reading does;
* `Guarded.leads_takeQuoted`, `Guarded.performs_takeComment`, `Guarded.leads_takeReference` -- the
  runs in which no brace counts;
* `Guarded.TakesOpaque` -- what becomes of each piece of action code;
* `Guarded.leads_takePiece_again`, `Guarded.leads_takePiece_done` -- one piece more, and the last;
* `Guarded.leads_takeBlock` -- **a block of action code is taken**, by induction on its pieces.
-/

namespace GrammarLexer

/-! ## 1. Delimited runs -/

/-- Takes everything up to a mark, and the mark, and gives it after `raw`. If there is no mark, the
cursor goes to the end. -/
def Cursor.takeThrough (c : Cursor) (mark raw : Text) : Option Text × Cursor :=
  match Text.before? mark c.rest with
  | some inner => (some (raw ++ (inner ++ mark)), c.skip (inner ++ mark).length)
  | none => (none, c.skip c.rest.length)

theorem Cursor.takeThrough_cons {c : Cursor} {mark ahead : Text} {ch : Char}
    (hrest : c.rest = ch :: ahead) (hmark : ¬ mark <+: ch :: ahead) (raw : Text) :
    c.takeThrough mark raw = (c.skip 1).takeThrough mark (raw ++ [ch]) := by
  have hlater : ∀ n, c.skip (n + 1) = (c.skip 1).skip n := fun n => by rw [Nat.add_comm, skip_add]
  have hbefore : Text.before? mark (ch :: ahead) = (Text.before? mark ahead).map (ch :: ·) := by
    rw [Text.before?, if_neg (fun h => hmark (List.isPrefixOf_iff_prefix.1 h))]
  unfold takeThrough
  rw [rest_skip_one hrest, hrest, hbefore]
  cases Text.before? mark ahead with
  | none =>
    dsimp only [Option.map_none, List.length_cons]
    rw [hlater]
  | some inner =>
    dsimp only [Option.map_some]
    rw [List.cons_append, List.length_cons, hlater, List.append_assoc raw, List.singleton_append]

namespace Guarded

variable {α β γ : Type} {c : Cursor} {ch : Char} {ahead : Text}

theorem leads_takeThrough (h : c.Placed) (mark : Char) (raw : Text) :
    Leads (takeThrough mark raw) c (.ok (c.takeThrough [mark] raw).1)
      (c.takeThrough [mark] raw).2 := by
  generalize hrest : c.rest = ahead
  induction ahead generalizing c raw with
  | nil =>
    rw [Cursor.takeThrough, hrest]
    exact .done (.bind (leads_take_nil h hrest) (.pure _ _))
  | cons ch ahead ih =>
    by_cases hch : ch = mark
    · subst hch
      have hbefore : Text.before? [ch] (ch :: ahead) = some [] := by simp [Text.before?]
      rw [Cursor.takeThrough, hrest, hbefore]
      refine .done (.bind (leads_take h hrest) ?_)
      dsimp only
      rw [if_pos rfl]
      exact .pure _ _
    · have hmark : ¬ [mark] <+: ch :: ahead := fun hpre => hch (List.cons_prefix_cons.1 hpre).1.symm
      rw [Cursor.takeThrough_cons hrest hmark]
      refine .again (.bind (leads_take h hrest) ?_)
        (h.left_skip_lt (hrest ▸ List.cons_ne_nil _ _) Nat.one_pos)
        (ih (h.skip 1) (raw ++ [ch]) (Cursor.rest_skip_one hrest))
      dsimp only
      rw [if_neg hch]
      exact .pure _ _

/-- **A quoted run is taken** as the cursor takes it. -/
theorem leads_takeQuoted (h : c.Placed) (mark : Char) :
    Leads (takeQuoted mark) c (c.takeQuoted mark).1 (c.takeQuoted mark).2 := by
  unfold takeQuoted Cursor.takeQuoted
  refine .bind (leads_position h) ?_
  cases hrest : c.rest with
  | nil =>
    exact .bind (leads_take_nil h hrest) (.fail h.unknownToken?)
  | cons ch ahead =>
    refine .bind (leads_take h hrest) ?_
    dsimp only
    by_cases hch : ch = mark
    · subst hch
      have hthrough := leads_takeThrough (h.skip 1) ch [ch]
      rw [if_pos rfl, readQuoted, if_pos rfl]
      unfold Cursor.takeThrough at hthrough
      rw [Cursor.rest_skip_one hrest] at hthrough
      cases hbefore : Text.before? [ch] ahead with
      | some inner =>
        rw [hbefore] at hthrough
        exact .bind hthrough (.pure _ _)
      | none =>
        rw [hbefore] at hthrough
        exact .bind hthrough (.fail (((h.skip 1).skip ahead.length).map_site? _))
    · rw [if_neg hch, readQuoted, if_neg hch]
      exact .fail (h.skip 1).unknownToken?

section

variable {raw : Text} (h : c.Placed)

include h

theorem leads_closingStep_end (hrest : c.rest = []) :
    Leads (closingStep raw) c (.ok (.done none)) c := by
  refine .bind (.get c) ?_
  rw [if_neg fun hlt => h.index_lt_iff.1 hlt hrest]
  exact .pure _ _

theorem leads_closingStep_mark {after : Text} (hrest : c.rest = commentClosing ++ after) :
    Leads (closingStep raw) c (.ok (.done (some (raw ++ commentClosing)))) (c.skip 2) := by
  have hadvance := leads_advance h 2
  have hcovering : Text.covering 2 (commentClosing ++ after) = 2 :=
    Text.covering_byteSize commentClosing after
  rw [Cursor.advance, hrest, hcovering] at hadvance
  refine .bind (.get c) ?_
  rw [if_pos (h.index_lt_iff.2 (hrest ▸ List.cons_ne_nil _ _))]
  refine .bind (leads_rest h hrest) ?_
  rw [if_pos (List.isPrefixOf_iff_prefix.2 (List.prefix_append _ _))]
  exact .bind hadvance (.pure _ _)

theorem leads_closingStep_again (hrest : c.rest = ch :: ahead)
    (hclosing : ¬ commentClosing <+: ch :: ahead) :
    Leads (closingStep raw) c (.ok (.again (raw ++ [ch]))) (c.skip 1) := by
  refine .bind (.get c) ?_
  rw [if_pos (h.index_lt_iff.2 (hrest ▸ List.cons_ne_nil _ _))]
  refine .bind (leads_rest h hrest) ?_
  rw [if_neg fun hpre => hclosing (List.isPrefixOf_iff_prefix.1 hpre)]
  exact .bind (leads_take h hrest) (.pure _ _)

end

theorem leads_takeToClosing (h : c.Placed) (raw : Text) :
    Leads (takeToClosing raw) c (.ok (c.takeThrough commentClosing raw).1)
      (c.takeThrough commentClosing raw).2 := by
  generalize hrest : c.rest = ahead
  induction ahead generalizing c raw with
  | nil =>
    rw [Cursor.takeThrough, hrest]
    exact .done (leads_closingStep_end h hrest)
  | cons ch ahead ih =>
    by_cases hclosing : commentClosing <+: ch :: ahead
    · obtain ⟨after, hafter⟩ := hclosing
      have hbefore : Text.before? commentClosing (ch :: ahead) = some [] := by
        rw [← hafter]
        rfl
      rw [Cursor.takeThrough, hrest, hbefore]
      exact .done (leads_closingStep_mark h (hrest.trans hafter.symm))
    · rw [Cursor.takeThrough_cons hrest hclosing]
      exact .again (leads_closingStep_again h hrest hclosing)
        (h.left_skip_lt (hrest ▸ List.cons_ne_nil _ _) Nat.one_pos)
        (ih (h.skip 1) (raw ++ [ch]) (Cursor.rest_skip_one hrest))

/-- `Performs m here c reading give`: from `here` on, the steps lead to where the reading ends that
began at `c`, and give what it gives, changed by `give`, or the error that its fault is. -/
def Performs (m : Guarded β) (here c : Cursor) (reading : Except Fault (Taken α)) (give : α → β) :
    Prop :=
  match reading with
  | .ok taken => Leads m here (.ok (give taken.value)) (c.skip taken.width)
  | .error fault => Leads m here (.error (fault.error c)) (c.skip fault.stop)

/-- Steps that come first and do not fail. -/
theorem Performs.bind {m : Guarded γ} {next : γ → Guarded β} {x : γ} {here c₁ : Cursor}
    {reading : Except Fault (Taken α)} {give : α → β} (h : Leads m here (.ok x) c₁)
    (hnext : Performs (next x) c₁ c reading give) : Performs (m >>= next) here c reading give := by
  cases reading with
  | ok taken => exact Leads.bind h hnext
  | error fault => exact Leads.bind h hnext

/-- A reading whose value is changed afterwards. -/
theorem Performs.map {m : Guarded γ} {here : Cursor} {reading : Except Fault (Taken α)}
    {give : β → γ} (f : α → β) (h : Performs m here c reading fun a => give (f a)) :
    Performs m here c (reading.map fun taken => ⟨f taken.value, taken.width⟩) give := by
  cases reading with
  | ok taken => exact h
  | error fault => exact h

/-- The inside of a comment is cut out between its marks. -/
theorem commentInside?_commentRun (inner : Text) :
    commentInside? (commentRun inner) = some inner := by
  have hsize : checkedSub (commentRun inner).byteSize 2 = some (2 + inner.byteSize) := by
    rw [commentRun, Text.byteSize_append, Text.byteSize_append]
    exact if_pos (Nat.le_add_left _ _)
  rw [commentInside?, hsize]
  exact Text.slice?_append commentOpening inner commentClosing

/-- **A comment is taken.** -/
theorem performs_takeComment (h : c.Placed) :
    Performs takeComment c c (readComment c.rest) commentRun := by
  have hclosing := leads_takeToClosing (h.skip (c.rest.covering 2)) commentOpening
  unfold Cursor.takeThrough at hclosing
  rw [Cursor.rest_skip] at hclosing
  unfold takeComment readComment
  refine .bind (leads_position h) (.bind (leads_advance h 2) ?_)
  dsimp only
  cases hbefore : Text.before? commentClosing (c.rest.drop (c.rest.covering 2)) with
  | some inner =>
    have hraw : commentOpening ++ (inner ++ commentClosing) = commentRun inner :=
      (List.append_assoc _ _ _).symm
    have hwidth : c.rest.covering 2 + (inner ++ commentClosing).length =
        c.rest.covering 2 + inner.length + 2 := by
      rw [List.length_append, ← Nat.add_assoc]
      rfl
    simp only [hbefore, hraw, ← Cursor.skip_add, hwidth] at hclosing
    exact .bind hclosing (.bind (.ask (commentInside?_commentRun inner)) (Leads.pure _ _))
  | none =>
    have hwidth : c.rest.covering 2 + (c.rest.length - c.rest.covering 2) = c.rest.length :=
      Nat.add_sub_cancel' (Text.covering_le_length 2 c.rest)
    simp only [hbefore, List.length_drop, ← Cursor.skip_add, hwidth] at hclosing
    exact .bind hclosing (Leads.fail ((h.skip c.rest.length).map_site? _))

/-! ## 2. Action code -/

/-- A number that does not fit is an error at the place where its reading began. -/
theorem leads_numberOf (h : c.Placed) (digits : Text) (c' : Cursor) :
    Leads (numberOf c.bytes digits) c'
      (match digits.wordValue? with
        | some n => .ok n
        | none => .error (.unknownToken digits c.site)) c' := by
  unfold numberOf
  cases digits.wordValue? with
  | some n => exact .pure _ _
  | none => exact .fail (h.map_site? _)

end Guarded

namespace Placeholder

/-- What the pattern of a value matches is the text of the placeholder. -/
theorem text_of_match?_value {s : Text} {m : Match}
    (h : Pattern.valuePlaceholder.match? s = some m) :
    text ⟨.value, m.group? 0, m.group? 2⟩ = s.take m.width := by
  obtain ⟨t, -, rfl, -⟩ := Pattern.exists_of_match?_char_seq h
  rcases value_cases (s := '$' :: t) rfl with
    ⟨-, hnone⟩ | ⟨⟨form, tag, digits⟩, g, -, rfl, hlong, hmatch⟩
  · rw [hnone] at h
    cases h
  · rw [hmatch] at h
    cases h
    exact List.prefix_iff_eq_take.1 hlong.isPrefix

/-- What the pattern of a location matches is the text of the placeholder. -/
theorem text_of_match?_location {s : Text} {m : Match}
    (h : Pattern.locationPlaceholder.match? s = some m) :
    text ⟨.location, none, m.group? 1⟩ = s.take m.width := by
  obtain ⟨t, -, rfl, -⟩ := Pattern.exists_of_match?_char_seq h
  rcases location_cases (s := '@' :: t) rfl with
    ⟨-, hnone⟩ | ⟨⟨form, tag, digits⟩, g, -, rfl, rfl, hlong, hmatch⟩
  · rw [hnone] at h
    cases h
  · rw [hmatch] at h
    cases h
    exact List.prefix_iff_eq_take.1 hlong.isPrefix

theorem isSome_lex? (s : Text) :
    (lex? s).isSome =
      (Pattern.valuePlaceholder.upcoming s || Pattern.locationPlaceholder.upcoming s) := by
  unfold lex? Pattern.upcoming
  cases Pattern.valuePlaceholder.match? s with
  | some m => rfl
  | none =>
    cases Pattern.locationPlaceholder.match? s with
    | some m => rfl
    | none => rfl

end Placeholder

namespace Guarded

variable {c c' : Cursor} {ch : Char} {ahead : Text}

/-- The reference that a placeholder is, or the error that it is refused with. The placeholder is
what a pattern matches. -/
theorem leads_referenceOf (h : c.Placed) {pattern : Pattern} {m : Match} {p : Placeholder}
    (hmatch : pattern.match? c.rest = some m) (htext : p.text = c.rest.take m.width)
    (offset : Nat) :
    Leads (referenceOf c.bytes offset p.form (p.tag.map fun raw => ⟨raw, c.position.shifted 1⟩)
      p.digits (m.captures c.rest)) (c.skip m.width)
      (match p.checked with
        | .ok q => .ok (q.reference c.position offset)
        | .error fault => .error (fault.error c))
      (c.skip p.text.length) := by
  have hraw : capture? (m.captures c.rest) 0 = some p.text := by
    rw [htext]
    rfl
  have hwidth : p.text.length = m.width := by
    have hle := Pattern.width_le_length (Pattern.mem_ways_of_match? hmatch)
    rw [htext, List.length_take, Nat.min_eq_left hle]
  rw [hwidth]
  unfold referenceOf
  cases hdigits : p.digits with
  | none =>
    have hchecked : p.checked = .ok p := by rw [Placeholder.checked, hdigits]
    have htarget : p.target = .whole := by rw [Placeholder.target, hdigits]
    rw [hchecked]
    dsimp only [Placeholder.reference]
    rw [htarget]
    exact .bind (.pure _ _) (.bind (.ask hraw) (.pure _ _))
  | some digits =>
    have hnumber := leads_numberOf h digits (c.skip m.width)
    cases hvalue : digits.wordValue? with
    | some n =>
      have hchecked : p.checked = .ok p := by simp [Placeholder.checked, hdigits, hvalue]
      have htarget : p.target = .index n := by
        rw [(Text.wordValue?_eq_some_iff.1 hvalue).2.2, Placeholder.target, hdigits]
      rw [hvalue] at hnumber
      rw [hchecked]
      dsimp only [Placeholder.reference]
      rw [htarget]
      exact .bind (.bind hnumber (.pure _ _)) (.bind (.ask hraw) (.pure _ _))
    | none =>
      have hchecked : p.checked = .error ⟨.unreadable digits, 0, p.text.length⟩ := by
        simp [Placeholder.checked, hdigits, hvalue]
      rw [hvalue] at hnumber
      rw [hchecked]
      exact .bind_error (.bind_error hnumber)

/-- **A placeholder is taken**, where one starts. -/
theorem leads_takeReference (h : c.Placed) (offset : Nat)
    (hlex : (Placeholder.lex? c.rest).isSome = true) :
    ∃ p : Placeholder, Placeholder.lex? c.rest = some p.checked ∧ p.text <+: c.rest ∧
      Leads (takeReference offset) c
        (match p.checked with
          | .ok q => .ok (q.reference c.position offset)
          | .error fault => .error (fault.error c))
        (c.skip p.text.length) := by
  cases hvalue : Pattern.valuePlaceholder.match? c.rest with
  | some m =>
    have htext := Placeholder.text_of_match?_value hvalue
    refine ⟨⟨.value, m.group? 0, m.group? 2⟩, by rw [Placeholder.lex?, hvalue],
      htext ▸ List.take_prefix _ _, ?_⟩
    exact .bind (.get c) (.bind (leads_position h) (.bind (leads_takeMatch_some h hvalue)
      (leads_referenceOf h hvalue htext offset)))
  | none =>
    cases hlocation : Pattern.locationPlaceholder.match? c.rest with
    | some m =>
      have htext := Placeholder.text_of_match?_location hlocation
      refine ⟨⟨.location, none, m.group? 1⟩, by rw [Placeholder.lex?, hvalue, hlocation],
        htext ▸ List.take_prefix _ _, ?_⟩
      exact .bind (.get c) (.bind (leads_position h) (.bind (leads_takeMatch_none h hvalue)
        (.bind (leads_takeMatch_some h hlocation) (leads_referenceOf h hlocation htext offset))))
    | none =>
      rw [Placeholder.lex?, hvalue, hlocation] at hlex
      cases hlex

theorem leads_placeholderHere (h : c.Placed) :
    Leads placeholderHere c (.ok (Placeholder.lex? c.rest).isSome) c := by
  rw [Placeholder.isSome_lex?]
  exact .bind (leads_rest h rfl) (.pure _ _)

/-- The counts and cuts that a reference gives rise to do not break off. -/
theorem span_reference (p : Placeholder) (position : Position) (offset : Nat) :
    (p.reference position offset).span.size? = some p.text.byteSize ∧
      ∃ last, (p.reference position offset).last? = some last := by
  have hpos : 0 < p.text.byteSize := Text.byteSize_pos (List.cons_ne_nil _ _)
  constructor
  · rw [Span.size?, checkedSub, Placeholder.reference, if_pos (Nat.le_add_right _ _),
      Nat.add_sub_cancel_left]
  · have hle : 1 ≤ offset + p.text.byteSize := by omega
    exact ⟨_, if_pos hle⟩

/-- What `takeOpaque` does where action code goes on with `ch` and then `ahead`: it refuses what the
reader of pieces refuses, takes the pieces in which no brace counts, and leaves the others. -/
inductive TakesOpaque (c : Cursor) (ch : Char) (ahead : Text) (offset : Nat) : Prop where
  | refused {fault : Fault} : Piece.read ch ahead = .error fault →
      Leads (takeOpaque ch offset) c (.error (fault.error c)) (c.skip fault.stop) →
      TakesOpaque c ch ahead offset
  | taken {piece : Piece} : Piece.read ch ahead = .ok piece →
      (∀ depth, piece.depthAfter? depth = some depth) →
      Leads (takeOpaque ch offset) c
        (.ok (some (piece.text, (piece.reference? c.position offset).toList)))
        (c.skip piece.text.length) →
      TakesOpaque c ch ahead offset
  | opening : ch = '{' → Piece.read ch ahead = .ok .opening →
      Leads (takeOpaque ch offset) c (.ok none) c → TakesOpaque c ch ahead offset
  | closing : ch = '}' → Piece.read ch ahead = .ok .closing →
      Leads (takeOpaque ch offset) c (.ok none) c → TakesOpaque c ch ahead offset
  | plain : ch ≠ '{' → ch ≠ '}' → Piece.read ch ahead = .ok (.plain ch) →
      Leads (takeOpaque ch offset) c (.ok none) c → TakesOpaque c ch ahead offset

section

variable {offset : Nat} (h : c.Placed) (hrest : c.rest = ch :: ahead)

include h hrest

theorem takesOpaque_quoted (hquote : ch = '"' ∨ ch = '\'') : TakesOpaque c ch ahead offset := by
  have hleads := leads_takeQuoted h ch
  unfold Cursor.takeQuoted at hleads
  rw [hrest] at hleads
  have hpiece : Piece.read ch ahead = (readQuoted ch (ch :: ahead)).map (.quoted ch) := by
    rw [Piece.read, if_pos hquote]
  have hsteps : takeOpaque ch offset = takeQuoted ch >>= fun raw => pure (some (raw, [])) := by
    rw [takeOpaque, if_pos hquote]
  cases hread : readQuoted ch (ch :: ahead) with
  | error fault =>
    rw [hread] at hleads hpiece
    refine .refused hpiece ?_
    rw [hsteps]
    exact .bind_error hleads
  | ok inner =>
    rw [hread] at hleads hpiece
    refine .taken hpiece (fun _ => rfl) ?_
    rw [hsteps]
    exact .bind hleads (.pure _ _)

theorem takesOpaque_placeholder (hquote : ¬ (ch = '"' ∨ ch = '\''))
    (hlex : (Placeholder.lex? (ch :: ahead)).isSome = true) : TakesOpaque c ch ahead offset := by
  have hhere := leads_placeholderHere h
  rw [← hrest] at hlex
  obtain ⟨p, hp, ⟨after, hafter⟩, hleads⟩ := leads_takeReference h offset hlex
  have hsigil : ch = '$' ∨ ch = '@' := by
    rw [hrest] at hafter
    obtain ⟨rfl, -⟩ := List.cons.inj hafter
    cases p.form
    · exact .inl rfl
    · exact .inr rfl
  have hpiece : Piece.read ch ahead = p.checked.map .placeholder := by
    rw [Piece.read, if_neg hquote, ← hrest, hp]
  -- the steps up to the placeholder
  have hsteps : ∀ {r : Except LexError (Option (Text × List Reference))} {c' : Cursor},
      Leads (takePlaceholder offset >>= fun taken => pure (some taken)) c r c' →
      Leads (takeOpaque ch offset) c r c' := by
    intro r c' hplaceholder
    rw [takeOpaque, if_neg hquote]
    refine .bind hhere ?_
    rw [if_pos ⟨hsigil, hlex⟩]
    exact hplaceholder
  rcases p.checked_cases with hchecked | ⟨digits, hchecked⟩
  · rw [hchecked] at hleads hpiece
    obtain ⟨hsize, last, hlast⟩ := span_reference p c.position offset
    have hcopy : c.bytes.rest?.bind (Text.slice? 0 p.text.byteSize) = some p.text := by
      rw [h.rest?, Option.bind_some, ← hafter]
      exact Text.slice?_left p.text after
    have htaken : Leads (takePlaceholder offset) c (.ok (p.text, [p.reference c.position offset]))
        (c.skip p.text.length) :=
      .bind (.get c) (.bind hleads (.bind (.ask hsize) (.bind (.ask hcopy)
        (.bind (.ask hlast) (.pure _ _)))))
    exact .taken hpiece (fun _ => rfl) (hsteps (.bind htaken (.pure _ _)))
  · rw [hchecked] at hleads hpiece
    exact .refused hpiece (hsteps (.bind_error (.bind (.get c) (.bind_error hleads))))

section

variable (hquote : ¬ (ch = '"' ∨ ch = '\'')) (hlex : Placeholder.lex? (ch :: ahead) = none)

include hquote hlex

/-- Where no quoted run and no placeholder starts, what is left is to look for a comment. -/
theorem leads_takeOpaque {r : Except LexError (Option (Text × List Reference))}
    (hcomment : Leads (if ch = '/' ∧ commentOpening.isPrefixOf (ch :: ahead) = true then
      (takeComment >>= fun raw => pure (some (raw, []))) else pure none) c r c') :
    Leads (takeOpaque ch offset) c r c' := by
  have hhere := leads_placeholderHere h
  rw [hrest, hlex] at hhere
  have hnone : ¬ ((ch = '$' ∨ ch = '@') ∧
      (none : Option (Except Fault Placeholder)).isSome = true) :=
    fun hboth => Bool.false_ne_true hboth.2
  rw [takeOpaque, if_neg hquote]
  refine .bind hhere ?_
  rw [if_neg hnone]
  exact .bind (leads_rest h hrest) hcomment

theorem takesOpaque_comment (hopen : commentOpening <+: ch :: ahead) :
    TakesOpaque c ch ahead offset := by
  have hopen' := List.isPrefixOf_iff_prefix.2 hopen
  have hslash : ch = '/' := by
    obtain ⟨after, hafter⟩ := hopen
    exact (List.cons.inj hafter).1.symm
  have hleads := performs_takeComment h
  have hpiece : Piece.read ch ahead =
      (readComment (ch :: ahead)).map fun taken => .comment taken.value := by
    rw [Piece.read, if_neg hquote, hlex]
    exact if_pos hopen'
  rw [hrest] at hleads
  cases hread : readComment (ch :: ahead) with
  | error fault =>
    rw [hread] at hleads hpiece
    refine .refused hpiece (leads_takeOpaque h hrest hquote hlex ?_)
    rw [if_pos ⟨hslash, hopen'⟩]
    exact .bind_error hleads
  | ok taken =>
    obtain ⟨-, hwidth, -⟩ := (readComment_eq_ok_iff hopen).1 hread
    rw [hread] at hleads hpiece
    unfold Performs at hleads
    dsimp only at hleads
    rw [hwidth] at hleads
    refine .taken hpiece (fun _ => rfl) (leads_takeOpaque h hrest hquote hlex ?_)
    rw [if_pos ⟨hslash, hopen'⟩]
    exact .bind hleads (.pure _ _)

/-- A brace and a plain character are left. -/
theorem takesOpaque_single (hopen : ¬ commentOpening <+: ch :: ahead) :
    TakesOpaque c ch ahead offset := by
  have hopen' : ¬ commentOpening.isPrefixOf (ch :: ahead) = true :=
    fun hpre => hopen (List.isPrefixOf_iff_prefix.1 hpre)
  have hleads : Leads (takeOpaque ch offset) c (.ok none) c := by
    refine leads_takeOpaque h hrest hquote hlex ?_
    rw [if_neg fun hboth => hopen' hboth.2]
    exact .pure _ _
  have hpiece : Piece.read ch ahead =
      if ch = '{' then .ok .opening else if ch = '}' then .ok .closing else .ok (.plain ch) := by
    rw [Piece.read, if_neg hquote, hlex]
    exact if_neg hopen'
  by_cases hopening : ch = '{'
  · rw [if_pos hopening] at hpiece
    exact .opening hopening hpiece hleads
  · rw [if_neg hopening] at hpiece
    by_cases hclosing : ch = '}'
    · rw [if_pos hclosing] at hpiece
      exact .closing hclosing hpiece hleads
    · rw [if_neg hclosing] at hpiece
      exact .plain hopening hclosing hpiece hleads

end

/-- **Quoted runs, placeholders and comments are taken**, and the other pieces are left. -/
theorem takesOpaque : TakesOpaque c ch ahead offset := by
  by_cases hquote : ch = '"' ∨ ch = '\''
  · exact takesOpaque_quoted h hrest hquote
  · cases hlex : Placeholder.lex? (ch :: ahead) with
    | some reading => exact takesOpaque_placeholder h hrest hquote (by rw [hlex]; rfl)
    | none =>
      by_cases hopen : commentOpening <+: ch :: ahead
      · exact takesOpaque_comment h hrest hquote hlex hopen
      · exact takesOpaque_single h hrest hquote hlex hopen

end

section

variable {opened : Position} {code : Text} {references : List Reference} {depth : Nat}
  {piece : Piece} (h : c.Placed) (hrest : c.rest = ch :: ahead)

include h hrest

/-- A piece that cannot be read is an error. -/
theorem leads_takePiece_error {block : OpenBlock} {fault : Fault}
    (hread : Piece.read ch ahead = .error fault) :
    Leads (takePiece opened block) c (.error (fault.error c)) (c.skip fault.stop) := by
  have hopaque : TakesOpaque c ch ahead block.code.byteSize := takesOpaque h hrest
  refine .bind (leads_peek h hrest) ?_
  cases hopaque with
  | refused hread' hleads =>
    rw [hread] at hread'
    cases hread'
    exact .bind_error hleads
  | taken hread' | opening _ hread' | closing _ hread' | plain _ _ hread' =>
    rw [hread] at hread'
    cases hread'

/-- **One piece** more, after which the block is still open. -/
theorem leads_takePiece_again (hread : Piece.read ch ahead = .ok piece) {next : Nat}
    (hdepth : piece.depthAfter? depth = some next) :
    Leads (takePiece opened ⟨code, references, depth + 1⟩) c
      (.ok (.again ⟨code ++ piece.text,
        references ++ (piece.reference? c.position code.byteSize).toList, next + 1⟩))
      (c.skip piece.text.length) := by
  have hopaque : TakesOpaque c ch ahead code.byteSize := takesOpaque h hrest
  have hnone : references ++ (none : Option Reference).toList = references := List.append_nil _
  refine .bind (leads_peek h hrest) ?_
  cases hopaque with
  | refused hread' =>
    rw [hread] at hread'
    cases hread'
  | taken hread' hsame hleads =>
    rw [hread] at hread'
    cases hread'
    rw [hsame] at hdepth
    cases hdepth
    exact .bind hleads (.pure _ _)
  | opening hch hread' hleads =>
    rw [hread] at hread'
    cases hread'
    cases hdepth
    subst hch
    refine .bind hleads (.bind (leads_take h hrest) ?_)
    dsimp only [Piece.reference?]
    rw [if_pos rfl, hnone]
    exact .pure _ _
  | closing hch hread' hleads =>
    rw [hread] at hread'
    cases hread'
    -- an inner block is closed: the count goes down, and not to zero
    cases depth with
    | zero => cases hdepth
    | succ depth =>
      cases hdepth
      subst hch
      refine .bind hleads (.bind (leads_take h hrest) ?_)
      dsimp only [Piece.reference?]
      rw [if_neg (by decide), if_pos rfl, hnone]
      refine .bind (.ask (checkedSub_succ _)) ?_
      rw [if_neg (Nat.succ_ne_zero _)]
      exact .pure _ _
  | plain hopening hclosing hread' hleads =>
    rw [hread] at hread'
    cases hread'
    cases hdepth
    refine .bind hleads (.bind (leads_take h hrest) ?_)
    dsimp only [Piece.reference?]
    rw [if_neg hopening, if_neg hclosing, hnone]
    exact .pure _ _

/-- The piece that closes the block: the count goes down to zero. -/
theorem leads_takePiece_done (hread : Piece.read ch ahead = .ok piece)
    (hdepth : piece.depthAfter? depth = none) :
    Leads (takePiece opened ⟨code, references, depth + 1⟩) c
      (.ok (.done (code ++ piece.text, references))) (c.skip piece.text.length) := by
  have hopaque : TakesOpaque c ch ahead code.byteSize := takesOpaque h hrest
  refine .bind (leads_peek h hrest) ?_
  cases hopaque with
  | refused hread' =>
    rw [hread] at hread'
    cases hread'
  | taken hread' hsame =>
    rw [hread] at hread'
    cases hread'
    rw [hsame] at hdepth
    cases hdepth
  | opening _ hread' | plain _ _ hread' =>
    rw [hread] at hread'
    cases hread'
    cases hdepth
  | closing hch hread' hleads =>
    rw [hread] at hread'
    cases hread'
    cases depth with
    | succ depth => cases hdepth
    | zero =>
      subst hch
      refine .bind hleads (.bind (leads_take h hrest) ?_)
      dsimp only
      rw [if_neg (by decide), if_pos rfl]
      refine .bind (.ask (checkedSub_succ 0)) ?_
      rw [if_pos rfl]
      exact .pure _ _

end

/-- **A block of action code is taken**, from its first brace on: `c` is where the block begins, and
`passed` characters of it have been taken, with `code` and `references` to show for them. -/
theorem leads_takeBlock (h : c.Placed) {passed : Nat} {s : Text}
    (hrest : (c.skip passed).rest = s) (depth : Nat) (code : Text) (references : List Reference) :
    match Code.readFrom passed depth s with
    | .ok pieces => Leads (takeBlock c.position ⟨code, references, depth + 1⟩) (c.skip passed)
        (.ok (code ++ Code.text pieces, references ++
          Code.referencesFrom (c.skip passed).position code.byteSize pieces))
        (c.skip (passed + (Code.text pieces).length))
    | .error fault => Leads (takeBlock c.position ⟨code, references, depth + 1⟩) (c.skip passed)
        (.error (fault.error c)) (c.skip fault.stop) := by
  fun_induction Code.readFrom passed depth s generalizing code references with
  | case1 passed depth =>
    exact .loop_error (.bind (leads_peek (h.skip passed) hrest)
      (.fail ((h.skip passed).map_site? _)))
  | case2 passed depth ch ahead fault hread =>
    have herror : Leads (takePiece c.position ⟨code, references, depth + 1⟩) (c.skip passed) _ _ :=
      leads_takePiece_error (h.skip passed) hrest hread
    rw [← Fault.error_shift, ← Cursor.skip_add] at herror
    exact .loop_error herror
  | case3 passed depth ch ahead piece hread hdepth =>
    have hclosing : piece = .closing := by
      cases piece with
      | closing => rfl
      | _ => cases hdepth
    subst hclosing
    have hnone : references ++ Code.referencesFrom (c.skip passed).position code.byteSize
        [.closing] = references := List.append_nil _
    dsimp only
    rw [hnone, Cursor.skip_add]
    exact .done (leads_takePiece_done (h.skip passed) hrest hread hdepth)
  | case4 passed depth ch ahead piece hread next hdepth ih =>
    obtain ⟨after, hafter, -⟩ := Piece.stands_of_read hread
    have hnext : (c.skip (passed + piece.text.length)).rest =
        (ch :: ahead).drop piece.text.length := by
      rw [Cursor.skip_add, Cursor.rest_skip, hrest]
    have hstep : Leads (takePiece c.position ⟨code, references, depth + 1⟩) (c.skip passed) _ _ :=
      leads_takePiece_again (h.skip passed) hrest hread hdepth
    have hleft := (h.skip passed).left_skip_lt (hrest ▸ List.cons_ne_nil _ _)
      (List.length_pos_iff.2 piece.text_ne_nil)
    have hrun := ih hnext (code ++ piece.text)
      (references ++ (piece.reference? (c.skip passed).position code.byteSize).toList)
    rw [Cursor.skip_add c passed] at hrun
    cases hmore : Code.readFrom (passed + piece.text.length) next
        ((ch :: ahead).drop piece.text.length) with
    | error fault =>
      rw [hmore] at hrun
      exact .again hstep hleft hrun
    | ok pieces =>
      have hposition : ((c.skip passed).skip piece.text.length).position =
          (c.skip passed).position.after piece.text := by
        rw [(h.skip passed).position_skip, hrest, hafter, List.take_left]
      rw [hmore] at hrun
      dsimp only at hrun
      rw [hposition, Text.byteSize_append, List.append_assoc, List.append_assoc] at hrun
      have hlength : passed + (Code.text (piece :: pieces)).length =
          passed + piece.text.length + (Code.text pieces).length := by
        rw [Code.text_cons, List.length_append, Nat.add_assoc]
      dsimp only [Except.map]
      rw [hlength]
      exact .again hstep hleft hrun

end Guarded

end GrammarLexer
