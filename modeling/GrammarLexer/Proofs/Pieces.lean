import GrammarLexer.Proofs.Placeholders

/-!
# Pieces of action code

Action code is read piece by piece. Which piece is read depends on the text ahead; whether the block
goes on depends on the number of inner blocks that are open.

* `Piece.Stands` -- a piece stands before a text: the text does not change what the piece is;
* `Piece.read_eq_ok_iff` -- **the reader gives the piece that stands there**;
* `Code.Chain` -- pieces one after another, up to the brace that closes the block;
* `Code.readFrom_eq_ok_iff`, `Code.read_eq_ok_iff` -- the reader of blocks, both ways;
* `Code.Chain.change` -- **what follows a block does not change how it is read**: the closing brace
  shields every piece before it.
-/

namespace GrammarLexer

/-! ## 1. One placeholder -/

namespace Placeholder

theorem WellFormed.isPlaceholder {p : Placeholder} (h : p.WellFormed) : IsPlaceholder p.text :=
  ⟨_, _, _, h.spells⟩

/-- Every text that is a placeholder is the text of one. -/
theorem exists_wellFormed {word : Text} (h : IsPlaceholder word) :
    ∃ p : Placeholder, p.WellFormed ∧ word = p.text := by
  have htarget : ∀ {w t}, SpellsTarget w t →
      ∃ digits : Option Text, (∀ d ∈ digits, Text.IsRun Char.isDigit d) ∧ w = digits.getD ['$'] := by
    intro w t hw
    cases hw with
    | whole => exact ⟨none, by simp, rfl⟩
    | index hrun => exact ⟨some w, by simpa using hrun, rfl⟩
  obtain ⟨form, tag, target, h⟩ := h
  cases h with
  | value hw =>
    obtain ⟨digits, hdigits, rfl⟩ := htarget hw
    exact ⟨⟨.value, none, digits⟩, ⟨by simp, hdigits⟩, rfl⟩
  | @tagged raw _ _ hraw hw =>
    obtain ⟨digits, hdigits, rfl⟩ := htarget hw
    exact ⟨⟨.value, some raw, digits⟩, ⟨by simpa using hraw, hdigits⟩, rfl⟩
  | location hw =>
    obtain ⟨digits, hdigits, rfl⟩ := htarget hw
    exact ⟨⟨.location, none, digits⟩, ⟨by simp, hdigits⟩, rfl⟩

/-- A placeholder is told by its text. -/
theorem WellFormed.ext {p q : Placeholder} (hp : p.WellFormed) (hq : q.WellFormed)
    (h : p.text = q.text) : p = q := by
  have hspells := hp.spells
  rw [h] at hspells
  obtain ⟨hform, htag, -⟩ := hspells.unique hq.spells
  have hdollar : ¬ Text.IsRun Char.isDigit ['$'] :=
    fun hrun => absurd (hrun.2 '$' List.mem_cons_self) (by decide)
  obtain ⟨form, tag, digits⟩ := p
  obtain ⟨form', tag', digits'⟩ := q
  simp only at hform htag
  subst hform htag
  have hdigits : digits.getD ['$'] = digits'.getD ['$'] :=
    List.append_cancel_left (List.cons.inj h).2
  rcases digits with _ | d <;> rcases digits' with _ | d'
  · rfl
  · have hd : d' = ['$'] := hdigits.symm
    exact absurd (hd ▸ hq.digits d' rfl) hdollar
  · have hd : d = ['$'] := hdigits
    exact absurd (hd ▸ hp.digits d rfl) hdollar
  · have hd : d = d' := hdigits
    rw [hd]

theorem lex?_eq_none {s : Text} (h : NoPlaceholder s) : lex? s = none := by
  rcases lex?_cases s with ⟨-, hlex⟩ | ⟨p, -, hlong, -⟩
  · exact hlex
  · exact absurd hlong.isPrefix (h _ hlong.mem)

theorem lex?_eq_some {s : Text} {p : Placeholder} (hp : p.WellFormed)
    (hlong : Longest IsPlaceholder p.text s) : lex? s = some p.checked := by
  rcases lex?_cases s with ⟨hnone, -⟩ | ⟨q, hq, hlong', hlex⟩
  · exact absurd hlong.isPrefix (hnone _ hlong.mem)
  · rw [hlex, hp.ext hq (hlong.unique hlong')]

end Placeholder

/-- A placeholder has no brace in it. -/
theorem IsPlaceholder.closing_not_mem {word : Text} (h : IsPlaceholder word) : '}' ∉ word :=
  fun hmem => absurd (h.isPlaceholderChar _ hmem) (by decide)

theorem NoPlaceholder.change {u v : Text} (h : NoPlaceholder (u ++ '}' :: v)) (v' : Text) :
    NoPlaceholder (u ++ '}' :: v') := by
  intro word hword hpre
  rw [Text.prefix_append_cons_iff hword.closing_not_mem] at hpre
  exact h word hword (hpre.trans (List.prefix_append _ _))

/-! ## 2. One piece -/

namespace Piece

/-- `piece.Stands after`: the text of the piece, followed by `after`, is read as this piece. -/
inductive Stands : Piece → Text → Prop where
  | opening {after : Text} : Stands .opening after
  | closing {after : Text} : Stands .closing after
  | quoted {mark : Char} {inner after : Text} : isQuote mark = true → mark ∉ inner →
      Stands (.quoted mark inner) after
  | comment {inner after : Text} : Text.EndsFirst commentClosing inner →
      Stands (.comment inner) after
  | placeholder {p : Placeholder} {after : Text} : p.WellFormed →
      Longest IsPlaceholder p.text (p.text ++ after) → p.target.Fits → Stands (.placeholder p) after
  | plain {ch : Char} {after : Text} : isQuote ch = false → ch ≠ '{' → ch ≠ '}' →
      ¬ commentOpening <+: ch :: after → NoPlaceholder (ch :: after) → Stands (.plain ch) after

theorem isQuote_iff {ch : Char} : isQuote ch = true ↔ ch = '"' ∨ ch = '\'' := by
  simp [isQuote]

theorem not_commentOpening_cons {ch : Char} (s : Text) (h : ch ≠ '/') :
    ¬ commentOpening <+: ch :: s := by
  intro hpre
  exact h (List.cons_prefix_cons.1 hpre).1.symm

/-- Apart from quotes and placeholders, what is read is a comment, a brace or a plain character. -/
theorem read_of_noPlaceholder {ch : Char} {rest : Text} (hquote : isQuote ch = false)
    (hnone : NoPlaceholder (ch :: rest)) :
    read ch rest =
      if commentOpening <+: ch :: rest then
        (readComment (ch :: rest)).map fun taken => comment taken.value
      else if ch = '{' then .ok opening
      else if ch = '}' then .ok closing
      else .ok (plain ch) := by
  have hquote : ¬ (ch = '"' ∨ ch = '\'') := fun h => by simp [isQuote_iff.2 h] at hquote
  rw [read, if_neg hquote, Placeholder.lex?_eq_none hnone]
  simp only [List.isPrefixOf_iff_prefix]

/-- What is read is a piece that stands there. -/
theorem stands_of_read {ch : Char} {rest : Text} {piece : Piece} (h : read ch rest = .ok piece) :
    ∃ after, ch :: rest = piece.text ++ after ∧ piece.Stands after := by
  by_cases hquote : isQuote ch = true
  · rw [read, if_pos (isQuote_iff.1 hquote)] at h
    obtain ⟨inner, hinner, rfl⟩ := exists_of_map_eq_ok h
    obtain ⟨hmem, after, hafter⟩ := readQuoted_eq_ok_iff.1 hinner
    exact ⟨after, hafter, .quoted hquote hmem⟩
  · rcases Placeholder.lex?_cases (ch :: rest) with ⟨hnone, -⟩ | ⟨p, hp, hlong, hlex⟩
    · have hquote : isQuote ch = false := Bool.eq_false_iff.2 hquote
      rw [read_of_noPlaceholder hquote hnone] at h
      split at h
      case isTrue hopen =>
        obtain ⟨taken, htaken, rfl⟩ := exists_of_map_eq_ok h
        obtain ⟨hfirst, -, after, hafter⟩ := (readComment_eq_ok_iff hopen).1 htaken
        exact ⟨after, hafter, .comment hfirst⟩
      case isFalse hopen =>
        split at h
        case isTrue hbrace =>
          cases h
          exact ⟨rest, by rw [hbrace]; rfl, .opening⟩
        case isFalse hleft =>
          split at h
          case isTrue hbrace =>
            cases h
            exact ⟨rest, by rw [hbrace]; rfl, .closing⟩
          case isFalse hright =>
            cases h
            exact ⟨rest, rfl, .plain hquote hleft hright hopen hnone⟩
    · rw [read, if_neg (fun h => hquote (isQuote_iff.2 h)), hlex] at h
      obtain ⟨q, hq, rfl⟩ := exists_of_map_eq_ok h
      obtain ⟨hfits, rfl⟩ := (Placeholder.checked_eq_ok_iff hp).1 hq
      obtain ⟨after, hafter⟩ := hlong.isPrefix
      refine ⟨after, hafter.symm, .placeholder hp ?_ hfits⟩
      rw [hafter]
      exact hlong

/-- Where a piece stands, it is read. -/
theorem Stands.read {piece : Piece} {ch : Char} {rest after : Text} (h : piece.Stands after)
    (htext : ch :: rest = piece.text ++ after) : Piece.read ch rest = .ok piece := by
  cases h with
  | opening =>
    obtain ⟨rfl, rfl⟩ := List.cons.inj htext
    have hnone := noPlaceholder_cons rest (show '{' ≠ '$' by decide) (by decide)
    rw [read_of_noPlaceholder (by decide) hnone, if_neg (not_commentOpening_cons _ (by decide))]
    rfl
  | closing =>
    obtain ⟨rfl, rfl⟩ := List.cons.inj htext
    have hnone := noPlaceholder_cons rest (show '}' ≠ '$' by decide) (by decide)
    rw [read_of_noPlaceholder (by decide) hnone, if_neg (not_commentOpening_cons _ (by decide))]
    rfl
  | @quoted mark inner _ hquote hmem =>
    obtain ⟨rfl, -⟩ := List.cons.inj htext
    rw [Piece.read, if_pos (isQuote_iff.1 hquote), readQuoted_eq_ok_iff.2 ⟨hmem, after, htext⟩]
    rfl
  | @comment inner _ hfirst =>
    have hch : ch = '/' := (List.cons.inj htext).1
    subst hch
    have hnone := noPlaceholder_cons rest (show '/' ≠ '$' by decide) (by decide)
    have hopen : commentOpening <+: '/' :: rest := by
      rw [htext]
      exact commentOpening_begins inner after
    have hread : readComment ('/' :: rest) = .ok ⟨inner, (commentRun inner).length⟩ :=
      (readComment_eq_ok_iff hopen).2 ⟨hfirst, rfl, after, htext⟩
    rw [read_of_noPlaceholder (by decide) hnone, if_pos hopen, hread]
    rfl
  | @placeholder p _ hp hlong hfits =>
    have hquote : ¬ (ch = '"' ∨ ch = '\'') := by
      obtain ⟨x, more, hx, hsigil⟩ := hp.isPlaceholder.head
      rw [text, hx] at htext
      obtain ⟨rfl, -⟩ := List.cons.inj htext
      rcases hsigil with rfl | rfl <;> decide
    rw [← show ch :: rest = p.text ++ after from htext] at hlong
    rw [Piece.read, if_neg hquote, Placeholder.lex?_eq_some hp hlong,
      (Placeholder.checked_eq_ok_iff hp).2 ⟨hfits, rfl⟩]
    rfl
  | plain hquote hleft hright hopen hnone =>
    obtain ⟨rfl, rfl⟩ := List.cons.inj htext
    rw [read_of_noPlaceholder hquote hnone, if_neg hopen, if_neg hleft, if_neg hright]

/-- **The reader gives the piece that stands there.** -/
theorem read_eq_ok_iff {ch : Char} {rest : Text} {piece : Piece} :
    read ch rest = .ok piece ↔ ∃ after, ch :: rest = piece.text ++ after ∧ piece.Stands after := by
  constructor
  · exact stands_of_read
  · intro ⟨after, htext, hstands⟩
    exact hstands.read htext

theorem Stands.of_read {piece : Piece} {ch : Char} {rest after : Text}
    (htext : ch :: rest = piece.text ++ after) (h : Piece.read ch rest = .ok piece) :
    piece.Stands after := by
  obtain ⟨after', htext', hstands⟩ := read_eq_ok_iff.1 h
  rw [htext] at htext'
  rw [List.append_cancel_left htext']
  exact hstands

/-- **A closing brace shields a piece**: what comes after the brace does not change the piece. -/
theorem Stands.change {piece : Piece} {u v : Text} (h : piece.Stands (u ++ '}' :: v)) (v' : Text) :
    piece.Stands (u ++ '}' :: v') := by
  cases h with
  | opening => exact .opening
  | closing => exact .closing
  | quoted hquote hmem => exact .quoted hquote hmem
  | comment hfirst => exact .comment hfirst
  | placeholder hp hlong hfits =>
    rw [← List.append_assoc] at hlong
    refine .placeholder hp ?_ hfits
    rw [← List.append_assoc]
    exact hlong.change IsPlaceholder.closing_not_mem v'
  | @plain ch _ hquote hleft hright hopen hnone =>
    refine .plain hquote hleft hright (fun hpre => hopen ?_) ?_
    · rw [← List.cons_append, Text.prefix_append_cons_iff (by decide)] at hpre
      exact hpre.trans (List.prefix_append _ _)
    · exact NoPlaceholder.change (u := ch :: u) hnone v'

end Piece

/-! ## 3. A block -/

namespace Code

@[simp] theorem text_nil : text [] = [] := rfl

@[simp] theorem text_cons (piece : Piece) (more : Code) :
    text (piece :: more) = piece.text ++ text more := rfl

/-- `Chain depth pieces after`: the pieces stand one after another before `after`, and the last of
them is the brace that closes the block in which `depth` inner blocks are open. -/
inductive Chain : Nat → Code → Text → Prop where
  | last {after : Text} : Chain 0 [.closing] after
  | step {depth next : Nat} {piece : Piece} {more : Code} {after : Text} :
      piece.Stands (text more ++ after) → piece.depthAfter? depth = some next →
      Chain next more after → Chain depth (piece :: more) after

/-- Pieces that are read make a chain. -/
theorem chain_of_readFrom {passed depth : Nat} {s : Text} {pieces : Code}
    (h : readFrom passed depth s = .ok pieces) :
    ∃ after, s = text pieces ++ after ∧ Chain depth pieces after := by
  fun_induction readFrom passed depth s generalizing pieces with
  | case1 passed depth => cases h
  | case2 passed depth ch rest fault hread => cases h
  | case3 passed depth ch rest piece hread hdepth =>
    cases h
    obtain ⟨after, hafter, -⟩ := Piece.stands_of_read hread
    -- only a closing brace leaves no depth, and only where no inner block is open
    cases piece with
    | closing =>
      cases depth with
      | zero => exact ⟨after, by simpa using hafter, .last⟩
      | succ depth => cases hdepth
    | _ => cases hdepth
  | case4 passed depth ch rest piece hread next hdepth ih =>
    obtain ⟨more, hmore, rfl⟩ := exists_of_map_eq_ok h
    obtain ⟨t, ht, hstands⟩ := Piece.stands_of_read hread
    obtain ⟨after, hafter, hchain⟩ := ih hmore
    rw [ht, List.drop_left] at hafter
    subst hafter
    exact ⟨after, by simp [ht], .step hstands hdepth hchain⟩

/-- A chain is read. -/
theorem Chain.readFrom {depth : Nat} {pieces : Code} {after : Text} (h : Chain depth pieces after)
    (passed : Nat) : readFrom passed depth (text pieces ++ after) = .ok pieces := by
  induction h generalizing passed with
  | @last after =>
    have hread : Piece.read '}' after = .ok .closing := Piece.Stands.closing.read rfl
    rw [text_cons, text_nil, Piece.text, List.append_nil, List.singleton_append, Code.readFrom, hread]
    rfl
  | @step depth next piece more after hstands hdepth _ ih =>
    obtain ⟨ch, rest, hcons⟩ := List.exists_cons_of_ne_nil
      (List.append_ne_nil_of_left_ne_nil piece.text_ne_nil (text more ++ after))
    have hread := hstands.read hcons.symm
    rw [text_cons, List.append_assoc, hcons, Code.readFrom, hread]
    simp only [hdepth]
    rw [← hcons, List.drop_left, ih]
    rfl

/-- **The pieces of a block are read exactly if they make a chain.** -/
theorem readFrom_eq_ok_iff {passed depth : Nat} {s : Text} {pieces : Code} :
    readFrom passed depth s = .ok pieces ↔
      ∃ after, s = text pieces ++ after ∧ Chain depth pieces after := by
  constructor
  · exact chain_of_readFrom
  · intro h
    obtain ⟨after, rfl, hchain⟩ := h
    exact hchain.readFrom passed

/-- A block is an opening brace and a chain. -/
theorem read_eq_ok_iff {s : Text} {code : Code} :
    read s = .ok code ↔ ∃ more after, code = .opening :: more ∧ s = text code ++ after ∧
      Chain 0 more after := by
  constructor
  · intro h
    cases s with
    | nil => cases h
    | cons ch rest =>
      rw [read] at h
      split at h
      case isTrue hch =>
        subst hch
        obtain ⟨more, hmore, rfl⟩ := exists_of_map_eq_ok h
        obtain ⟨after, rfl, hchain⟩ := readFrom_eq_ok_iff.1 hmore
        exact ⟨more, after, rfl, rfl, hchain⟩
      case isFalse => cases h
  · intro h
    obtain ⟨more, after, rfl, rfl, hchain⟩ := h
    rw [text_cons, Piece.text, List.singleton_append, List.cons_append, read, if_pos rfl,
      hchain.readFrom]
    rfl

/-- The text of a chain ends in the closing brace. -/
theorem Chain.text_eq {depth : Nat} {pieces : Code} {after : Text} (h : Chain depth pieces after) :
    ∃ u, text pieces = u ++ ['}'] := by
  induction h with
  | last => exact ⟨[], rfl⟩
  | @step _ _ piece more _ _ _ _ ih =>
    obtain ⟨u, hu⟩ := ih
    exact ⟨piece.text ++ u, by rw [text_cons, hu, List.append_assoc]⟩

/-- **What follows a block does not change how it is read.** -/
theorem Chain.change {depth : Nat} {pieces : Code} {after : Text} (h : Chain depth pieces after)
    (after' : Text) : Chain depth pieces after' := by
  induction h with
  | last => exact .last
  | @step _ _ piece more after hstands hdepth hchain ih =>
    obtain ⟨u, hu⟩ := hchain.text_eq
    refine .step ?_ hdepth ih
    rw [hu, List.append_assoc, List.singleton_append] at hstands ⊢
    exact hstands.change after'

end Code

end GrammarLexer
