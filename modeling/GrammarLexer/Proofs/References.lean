import GrammarLexer.Proofs.Lexemes

/-!
# References of action code

The references that a reader lists are the placeholders of the code, each once, in order, with the
bytes that it takes in the text of the code.

* `ReferenceScan.exists_word` -- every reference of a scan has a text at its span, and that text
  spells it;
* `ReferenceScan.pairwise_span` -- the spans follow one another without overlap;
* `Operation.references_eq_scan` -- **the references of action code** that any operation on any
  cursor reads.
-/

namespace GrammarLexer

/-! ## 1. Spans -/

/-- The bytes between two boundaries of a text are the text between them. -/
theorem Text.slice?_append (before word after : Text) :
    slice? before.byteSize (before.byteSize + word.byteSize) (before ++ word ++ after) =
      some word := by
  have hstop := splitAt?_byteSize (before ++ word) after
  rw [byteSize_append] at hstop
  rw [slice?, hstop, Option.bind_some, splitAt?_byteSize, Option.map_some]

theorem Text.byteSize_pos {s : Text} (h : s ≠ []) : 0 < s.byteSize := by
  obtain ⟨ch, rest, rfl⟩ := List.exists_cons_of_ne_nil h
  have := Char.utf8Size_pos ch
  rw [byteSize_cons]
  omega

/-- Some characters, of a text that has any, take some bytes. -/
theorem Text.byteSize_take_pos {s : Text} (h : s ≠ []) {n : Nat} (hn : 0 < n) :
    0 < byteSize (s.take n) :=
  byteSize_pos fun hnil => (List.take_eq_nil_iff.1 hnil).elim (Nat.ne_of_gt hn) h

namespace ReferenceScan

variable {offset : Nat} {s : Text} {found : List Outline}

/-- **Every reference of a scan stands in the text**: at its span there is the longest placeholder
there, and it spells what the reference says. -/
theorem exists_word {o : Outline} (h : ReferenceScan offset s found) (ho : o ∈ found) :
    ∃ before word after, s = before ++ word ++ after ∧
      o.span = ⟨offset + before.byteSize, offset + before.byteSize + word.byteSize⟩ ∧
      Longest IsPlaceholder word (word ++ after) ∧ Spells word o.form o.tag o.target := by
  induction h with
  | done => cases ho
  | @quoted _ mark inner _ _ _ _ _ ih =>
    obtain ⟨before, word, after, rfl, hspan, hword⟩ := ih ho
    refine ⟨quotedRun mark inner ++ before, word, after, by simp, ?_, hword⟩
    rw [hspan, Text.byteSize_append, Nat.add_assoc]
  | @comment _ inner _ _ _ _ ih =>
    obtain ⟨before, word, after, rfl, hspan, hword⟩ := ih ho
    refine ⟨commentRun inner ++ before, word, after, by simp, ?_, hword⟩
    rw [hspan, Text.byteSize_append, Nat.add_assoc]
  | @placeholder _ w rest _ _ _ _ hlong hspells _ ih =>
    rcases List.mem_cons.1 ho with rfl | ho
    · exact ⟨[], w, rest, by simp, by simp, hlong, hspells⟩
    · obtain ⟨before, word, after, rfl, hspan, hword⟩ := ih ho
      refine ⟨w ++ before, word, after, by simp, ?_, hword⟩
      rw [hspan, Text.byteSize_append, Nat.add_assoc]
  | @other _ ch _ _ _ _ _ _ ih =>
    obtain ⟨before, word, after, rfl, hspan, hword⟩ := ih ho
    refine ⟨ch :: before, word, after, by simp, ?_, hword⟩
    rw [hspan, Text.byteSize_cons, Nat.add_assoc]

/-- No span is empty. -/
theorem start_lt_stop {o : Outline} (h : ReferenceScan offset s found) (ho : o ∈ found) :
    o.span.start < o.span.stop := by
  obtain ⟨before, word, after, -, hspan, hlong, -⟩ := h.exists_word ho
  have hpos := Text.byteSize_pos hlong.mem.ne_nil
  rw [hspan]
  dsimp only
  omega

/-- **The spans of a scan follow one another.** -/
theorem pairwise_span (h : ReferenceScan offset s found) :
    found.Pairwise fun o o' => o.span.stop ≤ o'.span.start := by
  induction h with
  | done => exact .nil
  | quoted _ _ _ ih => exact ih
  | comment _ _ ih => exact ih
  | placeholder _ _ hscan ih =>
    refine .cons (fun o ho => ?_) ih
    -- whatever is found later begins after this placeholder
    obtain ⟨before, word, after, -, hspan, -⟩ := hscan.exists_word ho
    rw [hspan]
    exact Nat.le_add_right _ _
  | other _ _ _ _ ih => exact ih

end ReferenceScan

/-! ## 2. Where action code comes from -/

/-- Action code is what the reader of blocks gives, and no other form reads it. -/
theorem Form.read_code {form : Form} {s : Text} {code : Code} {width : Nat}
    (h : form.read s = .ok ⟨.code code, width⟩) : Code.read s = .ok code := by
  cases form with
  | punctuator =>
    cases s with
    | nil => cases h
    | cons ch s =>
      simp only [Form.read, readPunctuator] at h
      split at h
      · cases h
      · split at h <;> cases h
  | number =>
    simp only [Form.read, readNumber] at h
    split at h <;> cases h
  | tag =>
    obtain ⟨raw, -, he⟩ := exists_of_map_eq_ok h
    cases he
  | identifier =>
    obtain ⟨name, -, he⟩ := exists_of_map_eq_ok h
    dsimp only at he
    split at he <;> cases he
  | percentWord =>
    simp only [Form.read, readPercentWord] at h
    split at h
    · cases h
    · split at h
      · cases h
      · split at h
        · cases h
        · split at h <;> cases h
  | userCode =>
    obtain ⟨block, hblock, he⟩ := exists_of_map_eq_ok h
    cases he
    exact hblock
  | stringLiteral =>
    obtain ⟨inner, -, he⟩ := exists_of_map_eq_ok h
    cases he
  | comment =>
    obtain ⟨inner, -, he⟩ := exists_of_map_eq_ok h
    cases he
  | charLiteral =>
    obtain ⟨raw, -, he⟩ := exists_of_map_eq_ok h
    cases he

theorem Cursor.read_of_conclude {c : Cursor} {form form' : Form} {code : Code}
    {reading : Except Fault (Taken Lexeme)} {position : Position}
    (hread : reading = form.read c.rest)
    (h : (c.conclude form reading).1 = .lexed form' (.code code) position) :
    Code.read c.rest = .ok code ∧ position = c.position := by
  cases hr : form.read c.rest with
  | error fault =>
    rw [hread, hr] at h
    cases h
  | ok taken =>
    obtain ⟨value, width⟩ := taken
    rw [hread, hr] at h
    cases h
    exact ⟨Form.read_code hr, rfl⟩

theorem Cursor.read_of_lexFirst {c : Cursor} {forms : List Form} {form : Form} {code : Code}
    {position : Position} (h : (c.lexFirst forms).1 = .lexed form (.code code) position) :
    Code.read c.rest = .ok code ∧ position = c.position := by
  unfold lexFirst at h
  split at h
  case h_1 form' reading hfirst =>
    have hread := (Form.lex?_eq_some_iff.1 (Form.lex?_of_lexFirst? hfirst)).2
    exact read_of_conclude hread.symm h
  case h_2 => cases h

/-- Whatever is asked of a cursor, action code in the answer was read where the cursor stood. -/
theorem Operation.read_of_run {c : Cursor} {op : Operation} {form : Form} {code : Code}
    {position : Position} (h : (op.run c).1 = .outcome (.lexed form (.code code) position)) :
    Code.read c.rest = .ok code ∧ position = c.position := by
  cases op with
  | lex f => exact Cursor.read_of_lexFirst (Answer.outcome.inj h)
  | read f => exact Cursor.read_of_conclude rfl (Answer.outcome.inj h)
  | lexFirst forms => exact Cursor.read_of_lexFirst (Answer.outcome.inj h)
  | _ => cases h

/-! ## 3. The references -/

/-- **The references of action code are its placeholders**: a scan of the code's own text finds
exactly them. At the span of each stands the longest placeholder there, which spells its form, tag
and target, and the spans follow one another inside the code. -/
theorem Operation.references_eq_scan {c : Cursor} {op : Operation} {form : Form} {code : Code}
    {position : Position} (h : (op.run c).1 = .outcome (.lexed form (.code code) position)) :
    (∀ found, ReferenceScan 0 code.text found ↔
      found = (code.references position).map Reference.outline) ∧
    (∀ r ∈ code.references position, ∃ before s after, code.text = before ++ s ++ after ∧
      r.span.start = before.byteSize ∧ Longest IsPlaceholder s (s ++ after) ∧
      r.placeholder? code.text = some s ∧
      code.text.slice? r.span.start (r.span.last + 1) = some s ∧
      Spells s r.form (r.tag.map Tag.raw) r.target ∧
      r.span.last < code.text.byteSize) ∧
    (code.references position).Pairwise fun r r' => r.span.last < r'.span.start := by
  obtain ⟨hread, -⟩ := read_of_run h
  obtain ⟨hscan, -⟩ := Code.scan_of_read hread position
  refine ⟨fun found => ⟨fun hfound => hfound.unique hscan, ?_⟩, ?_, ?_⟩
  · intro he
    subst he
    exact hscan
  · intro r hr
    obtain ⟨before, s, after, htext, hspan, hlong, hspells⟩ :=
      hscan.exists_word (List.mem_map_of_mem hr)
    have hstart := hscan.start_lt_stop (List.mem_map_of_mem hr)
    simp only [Reference.outline, Nat.zero_add] at hspan hspells hstart
    have hslice : code.text.slice? r.span.start r.span.stop = some s := by
      rw [hspan, htext]
      exact Text.slice?_append before s after
    have hlast : r.span.last + 1 = r.span.stop := by
      unfold Span.last
      omega
    have hsize : r.span.stop ≤ code.text.byteSize := by
      rw [hspan, htext, Text.byteSize_append, Text.byteSize_append]
      exact Nat.le_add_right _ _
    refine ⟨before, s, after, htext, by rw [hspan], hlong, hslice, ?_, hspells, by omega⟩
    rw [hlast]
    exact hslice
  · have hpairs := List.pairwise_map.1 hscan.pairwise_span
    refine hpairs.imp_of_mem fun {r r'} hr _ hle => ?_
    have hstart := hscan.start_lt_stop (List.mem_map_of_mem hr)
    simp only [Reference.outline] at hstart hle
    unfold Span.last
    omega

/-- A tagged placeholder right after one without a number, at a cursor past a letter. -/
theorem Operation.references_of_adjacent :
    (run ((Cursor.start "x\x7b$$$<t>2\x7d".toList 1).skip 1) (.lex .userCode)).1 =
        .outcome (.lexed .userCode (.code [.opening, .placeholder ⟨.value, none, none⟩,
          .placeholder ⟨.value, some "<t>".toList, some ['2']⟩, .closing]) ⟨1, 2⟩) ∧
      ReferenceScan 0 "\x7b$$$<t>2\x7d".toList
        [⟨.value, .whole, none, ⟨1, 3⟩⟩, ⟨.value, .index 2, some "<t>".toList, ⟨3, 8⟩⟩] := by
  have hchain : Code.Chain 0 [.placeholder ⟨.value, none, none⟩,
      .placeholder ⟨.value, some "<t>".toList, some ['2']⟩, .closing] [] :=
    .step (.of_read rfl rfl) rfl (.step (.of_read rfl rfl) rfl .last)
  have hread := Code.read_eq_ok_iff.2 ⟨_, [], rfl, rfl, hchain⟩
  have hop : AsksFor .userCode (.lex .userCode) := .inl rfl
  have hrun := run_of_read hop (c := (Cursor.start "x\x7b$$$<t>2\x7d".toList 1).skip 1) hread
  exact ⟨congrArg Prod.fst hrun, ((references_eq_scan (congrArg Prod.fst hrun)).1 _).2 rfl⟩

end GrammarLexer
