import Mathlib.Data.List.Induction
import GrammarLexer.Proofs.Relocation

/-!
# Texts with blanks between them

A blank keeps apart what stands on its two sides: whatever can be scanned before it and after it can
be scanned together, and nothing is read otherwise than it was read alone.

* `Text.EndsLike` -- whatever ends before one text ends before another one too;
* `Text.Apart` -- a text in which nothing that ends before it goes on;
* `Lexes.change`, `Reads.append` -- **what was read stays as it was** before such a text;
* `Position.past` -- where a place comes to be when a text is put before it;
* `scanFrom_append_blanks` -- **the tokens of two texts with blanks between them** are those of the
  first one, and those of the second one at their new places.
-/

namespace GrammarLexer

open Decomposition (tokensFrom)
open Text (Stops)

/-! ## 1. Texts that do not go on -/

/-- Whatever ends before the text `rest` ends before `rest'` too: a run of a class without blanks,
and a name that has no colon. -/
structure Text.EndsLike (rest rest' : Text) : Prop where
  stops : ∀ {cls : Char → Bool}, (∀ ch, isBlank ch = true → cls ch = false) →
    Stops cls rest → Stops cls rest'
  no_colon : (rest.dropWhile isBlank).head? ≠ some ':' → (rest'.dropWhile isBlank).head? ≠ some ':'

/-- Nothing that ends before the text goes on in it: the text is empty or begins with a blank, and
no colon follows its blanks. -/
structure Text.Apart (more : Text) : Prop where
  begins : ∀ ch ∈ more.head?, isBlank ch = true
  no_colon : (more.dropWhile isBlank).head? ≠ some ':'

namespace Text.Apart

variable {more : Text}

theorem nil : Apart [] where
  begins _ h := by cases h
  no_colon h := by cases h

theorem endsLike (h : Apart more) (rest : Text) : EndsLike rest more where
  stops hcls _ := by
    cases more with
    | nil => rfl
    | cons ch more => exact Text.stops_cons.2 (hcls ch (h.begins ch rfl))
  no_colon _ := h.no_colon

theorem endsLike_append (h : Apart more) (rest : Text) : EndsLike rest (rest ++ more) where
  stops hcls hrest := by
    cases rest with
    | nil => exact (h.endsLike []).stops hcls hrest
    | cons ch rest => exact hrest
  no_colon hrest := by
    rw [List.dropWhile_append]
    cases hdrop : rest.dropWhile isBlank with
    | nil => exact h.no_colon
    | cons ch left =>
      rw [hdrop] at hrest
      exact hrest

end Text.Apart

/-! ## 2. What was read stays -/

theorem isDigit_of_isBlank {ch : Char} (h : isBlank ch = true) : ch.isDigit = false := by
  have hname := isNameChar_of_isBlank h
  simp only [isNameChar, Bool.or_eq_false_iff] at hname
  exact hname.1.2

/-- A quote is no blank, so that no escape comes about either. -/
theorem Text.EndsLike.no_quote {rest rest' : Text} (h : EndsLike rest rest')
    (hrest : rest.head? ≠ some '\'') : rest'.head? ≠ some '\'' := by
  have hstops : Stops (· == '\'') rest' := by
    refine h.stops (fun ch hblank => beq_eq_false_iff_ne.2 ?_) ?_
    · rintro rfl
      rw [not_isBlank (by decide) (by decide)] at hblank
      cases hblank
    · cases rest with
      | nil => rfl
      | cons ch rest => simpa using hrest
  intro hquote
  rw [Stops, hquote] at hstops
  cases hstops

/-- **A lexeme stays what it is** before any other text that it ends before. -/
theorem Lexes.change {value : Lexeme} {word rest rest' : Text} (h : Lexes value word rest)
    (hends : rest.EndsLike rest') : Lexes value word rest' := by
  have hname : Stops isNameChar rest → Stops isNameChar rest' :=
    hends.stops fun _ => isNameChar_of_isBlank
  cases h with
  | semicolon => exact .semicolon
  | bar => exact .bar
  | number hrun hfits hrest =>
    exact .number hrun hfits (hends.stops (fun _ => isDigit_of_isBlank) hrest)
  | tag hraw => exact .tag hraw
  | name hword hrest hcolon => exact .name hword (hname hrest) (hends.no_colon hcolon)
  | label hword hblanks => exact .label hword hblanks
  | directive hrest => exact .directive (hname hrest)
  | emptyRule hrest => exact .emptyRule (hname hrest)
  | extended hword hrest hkeyword hpre hne =>
    exact .extended hword (hname hrest) hkeyword hpre hne
  | code hblock hread => exact .code hblock hread
  | string hinner => exact .string hinner
  | comment hinner => exact .comment hinner
  | character hraw hlone => exact .character hraw fun hword => hends.no_quote (hlone hword)

namespace Reads

variable {a b : Text} {as bs : List Item}

/-- A text is read as it was when a text that stands apart follows it. -/
theorem append (ha : Reads as a) (hb : Reads bs b) (hapart : b.Apart) :
    Reads (as ++ bs) (a ++ b) := by
  induction ha with
  | done => exact hb
  | blank hblank _ ih => exact .blank hblank ih
  | lexeme hlexes _ ih =>
    -- what follows the lexeme is longer now, but ends it as before
    rw [List.append_assoc]
    exact .lexeme (hlexes.change (hapart.endsLike_append _)) ih

theorem prepend_blanks {w : Text} (hb : Reads bs b) (hw : ∀ ch ∈ w, isBlank ch = true) :
    Reads (w.map .blank ++ bs) (w ++ b) := by
  induction w with
  | nil => exact hb
  | cons ch w ih =>
    exact .blank (hw ch List.mem_cons_self) (ih fun ch hch => hw ch (List.mem_cons_of_mem _ hch))

/-- No lexeme begins with a colon, so that none comes first in a text that is read. -/
theorem no_colon (hb : Reads bs b) : (b.dropWhile isBlank).head? ≠ some ':' := by
  induction hb with
  | done => simp
  | blank hblank _ ih => rwa [List.dropWhile_cons_of_pos hblank]
  | @lexeme value _ word rest hlexes _ _ =>
    obtain ⟨ch, hhead, hopened⟩ := Option.bind_eq_some_iff.1
      (Form.openedBy_of_startsHere (Form.lex?_eq_some_iff.1 hlexes.lex?).1)
    obtain ⟨t, ht⟩ := List.head?_eq_some_iff.1 hhead
    have hblank := Form.not_isBlank_of_openedBy hopened
    rw [ht, List.dropWhile_cons_of_neg (by rw [hblank]; decide)]
    rintro ⟨⟩
    cases hopened

/-- **What is read on two sides of blanks is read together.** -/
theorem append_blanks {w : Text} (ha : Reads as a) (hb : Reads bs b) (hne : w ≠ [])
    (hw : ∀ ch ∈ w, isBlank ch = true) : Reads (as ++ (w.map .blank ++ bs)) (a ++ (w ++ b)) := by
  have hreads := hb.prepend_blanks hw
  refine ha.append hreads ⟨?_, hreads.no_colon⟩
  obtain ⟨ch, more, rfl⟩ := List.exists_cons_of_ne_nil hne
  rintro _ ⟨⟩
  exact hw ch List.mem_cons_self

end Reads

/-! ## 3. Places after a text -/

theorem Text.lastLine_append_singleton (s : Text) (ch : Char) :
    lastLine (s ++ [ch]) = if ch = '\n' then [] else lastLine s ++ [ch] := by
  by_cases hch : ch = '\n'
  · simp [lastLine, hch]
  · simp [lastLine, hch]

/-- After a text, one is as many lines further as it has newlines, and in the column after its last
line. -/
theorem Position.after_start (n : Nat) (u : Text) :
    (⟨n, 1⟩ : Position).after u = ⟨n + u.count '\n', 1 + u.lastLine.length⟩ := by
  induction u using List.reverseRecOn with
  | nil => rfl
  | append_singleton u ch ih =>
    rw [after_append, ih, after_cons, after_nil, next, Text.lastLine_append_singleton,
      List.count_append]
    by_cases hch : ch = '\n'
    · simp [hch, Nat.add_assoc]
    · simp [hch, Nat.add_assoc]

/-- Where a place of a text whose first line is line `n` comes to be when `u` is put before the
text: as many lines further as `u` has newlines and, on the first line, as many columns further as
there are characters after the last of them. -/
def Position.past (n : Nat) (u : Text) (p : Position) : Position :=
  ⟨p.line + u.count '\n', if p.line = n then p.column + u.lastLine.length else p.column⟩

theorem Position.past_start (n : Nat) (u : Text) : past n u ⟨n, 1⟩ = after ⟨n, 1⟩ u := by
  rw [after_start, past, if_pos rfl]

theorem Position.follows_past (n : Nat) (u : Text) : Follows (past n u) fun p => n ≤ p.line where
  stays {p} ch hp := by
    unfold next
    split
    · exact Nat.le_succ_of_le hp
    · exact hp
  next {p} ch hp := by
    unfold next past
    split
    · -- past a newline one is on a later line than the first
      have hlater : p.line + 1 ≠ n := by omega
      simp only [if_neg hlater, Position.mk.injEq, and_true]
      omega
    · split
      · simp only [Position.mk.injEq, true_and]
        omega
      · rfl

/-! ## 4. Tokens -/

theorem tokensFrom_append (p : Position) (as bs : List Item) :
    tokensFrom p (as ++ bs) = tokensFrom p as ++ tokensFrom (p.after (as.flatMap Item.text)) bs := by
  induction as generalizing p with
  | nil => rfl
  | cons item as ih =>
    rw [List.cons_append, tokensFrom, tokensFrom, ih, List.append_assoc, List.flatMap_cons,
      Position.after_append]

theorem tokensFrom_blanks (p : Position) (w : Text) (bs : List Item) :
    tokensFrom p (w.map .blank ++ bs) = tokensFrom (p.after w) bs := by
  induction w generalizing p with
  | nil => rfl
  | cons ch w ih => exact ih (p.next ch)

/-- **Scanning goes along with blanks between texts**: where two texts can be scanned, so can the one
with the other after it and blanks in between. The tokens are those of the first text and then those
of the second, which are the same but for where they stand. -/
theorem scanFrom_append_blanks {n : Nat} {a w b : Text} {as bs : List Token}
    (ha : scanFrom n a = .ok as) (hb : scanFrom n b = .ok bs) (hne : w ≠ [])
    (hw : ∀ ch ∈ w, isBlank ch = true) :
    scanFrom n (a ++ w ++ b) =
      .ok (as ++ bs.map (Token.relocate (Position.past n (a ++ w)))) := by
  obtain ⟨itemsA, hreadsA, rfl⟩ := scanFrom_eq_ok_iff.1 ha
  obtain ⟨itemsB, hreadsB, rfl⟩ := scanFrom_eq_ok_iff.1 hb
  refine scanFrom_eq_ok_iff.2 ⟨itemsA ++ (w.map .blank ++ itemsB), ?_, ?_⟩
  · rw [List.append_assoc]
    exact hreadsA.append_blanks hreadsB hne hw
  · rw [tokensFrom_append, tokensFrom_blanks, hreadsA.text_eq, ← Position.after_append,
      ← Position.past_start, (Position.follows_past n (a ++ w)).tokensFrom (Nat.le_refl n)]

/-- Action code after a name, with a tag on its own first line and another on its second. -/
theorem scanFrom_name_then_code :
    scanFrom 3 ['x'] = .ok [.ofText .ident ['x'] ⟨3, 1⟩] ∧
      scanFrom 3 "\x7b$<u>$\n$<t>1\x7d".toList =
        .ok [⟨.userCode, .text "\x7b$<u>$\n$<t>1\x7d".toList, ⟨3, 1⟩,
          [⟨.value, .whole, some ⟨"<u>".toList, ⟨3, 3⟩⟩, ⟨1, 6⟩⟩,
            ⟨.value, .index 1, some ⟨"<t>".toList, ⟨4, 2⟩⟩, ⟨7, 12⟩⟩]⟩] ∧
      scanFrom 3 "x\n \x7b$<u>$\n$<t>1\x7d".toList = .ok [.ofText .ident ['x'] ⟨3, 1⟩,
        ⟨.userCode, .text "\x7b$<u>$\n$<t>1\x7d".toList, ⟨4, 2⟩,
          [⟨.value, .whole, some ⟨"<u>".toList, ⟨4, 4⟩⟩, ⟨1, 6⟩⟩,
            ⟨.value, .index 1, some ⟨"<t>".toList, ⟨5, 2⟩⟩, ⟨7, 12⟩⟩]⟩] := by
  have hname : Lexes (.identifier ['x'] false) ['x'] [] :=
    .name ⟨'x', [], rfl, rfl, by simp⟩ rfl (by decide)
  have hchain : Code.Chain 0 [.placeholder ⟨.value, some "<u>".toList, none⟩, .plain '\n',
      .placeholder ⟨.value, some "<t>".toList, some ['1']⟩, .closing] [] :=
    .step (.of_read rfl rfl) rfl (.step (.of_read rfl rfl) rfl (.step (.of_read rfl rfl) rfl .last))
  have hread := Code.read_eq_ok_iff.2 ⟨_, [], rfl, rfl, hchain⟩
  have hcode : Lexes (.code _) "\x7b$<u>$\n$<t>1\x7d".toList [] :=
    .code (Code.isBlock_of_read hread).2.1 hread
  have hfirst : scanFrom 3 ['x'] = .ok _ := scanFrom_eq_ok_iff.2 ⟨_, .lexeme hname .done, rfl⟩
  have hsecond : scanFrom 3 "\x7b$<u>$\n$<t>1\x7d".toList = .ok _ :=
    scanFrom_eq_ok_iff.2 ⟨_, .lexeme hcode .done, rfl⟩
  exact ⟨hfirst, hsecond, scanFrom_append_blanks (w := "\n ".toList) hfirst hsecond (by decide)
    (List.all_eq_true.1 rfl)⟩

end GrammarLexer
