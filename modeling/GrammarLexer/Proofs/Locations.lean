import GrammarLexer.Proofs.Faults
import GrammarLexer.Proofs.Layouts
import GrammarLexer.Proofs.References

/-!
# Where tokens stand

The position of a token names the place in the file at which the token is written, and so does the
position of a tag inside action code.

* `Token.Begins` -- a text begins with a token as it is written;
* `Token.Located` -- a token stands where its position says, in its section and in the file;
* `Reads.exists_lexeme`, `Code.exists_tag` -- where the tokens of items come from, and the tags of
  references;
* `GrammarFile.tokens_located` -- **every token of a file is located**, with the tags in it.
-/

namespace GrammarLexer

open Decomposition (tokensFrom)

/-! ## 1. Written tokens -/

/-- The text begins with the token: with its text, or with all the digits of its number. -/
def Token.Begins (t : Token) (s : Text) : Prop :=
  match t.value with
  | .text own => own <+: s
  | .number n => ∃ digits rest, s = digits ++ rest ∧ Text.IsRun Char.isDigit digits ∧
      Text.Stops Char.isDigit rest ∧ digits.decimal = n

/-- The position of the token names a place in these lines, at which the token is written, and the
same place in the whole file. -/
def Token.Located (file : Text) (lines : List Line) (t : Token) : Prop :=
  ∃ rest more, t.Begins rest ∧ Locates lines t.position rest ∧
    Locates file.numberedLines t.position (rest ++ more)

/-- A lexeme's token is written where the lexeme begins. -/
theorem Lexes.begins {value : Lexeme} {word rest : Text} {position : Position} {t : Token}
    (h : Lexes value word rest) (ht : value.token? position = some t) :
    t.position = position ∧ t.Begins (word ++ rest) := by
  have hword : word <+: word ++ rest := List.prefix_append _ _
  cases h with
  | number hrun _ hrest =>
    cases ht
    exact ⟨rfl, word, rest, rfl, hrun, hrest, rfl⟩
  | label =>
    cases ht
    rw [List.append_assoc, List.append_assoc]
    exact ⟨rfl, List.prefix_append _ _⟩
  | emptyRule | comment => cases ht
  | _ =>
    cases ht
    exact ⟨rfl, hword⟩

theorem Lexes.ne_nil {value : Lexeme} {word rest : Text} (h : Lexes value word rest) :
    word ≠ [] := by
  have hpos := Form.width_pos (Form.lex?_eq_some_iff.1 h.lex?).2
  exact List.length_pos_iff.1 hpos

/-- **Every token comes from a lexeme of the text**, at the position counted up to it. -/
theorem Reads.exists_lexeme {items : List Item} {s : Text} {t : Token} {position : Position}
    (h : Reads items s) (ht : t ∈ tokensFrom position items) :
    ∃ pre value word rest, s = pre ++ (word ++ rest) ∧ Lexes value word rest ∧
      value.token? (position.after pre) = some t := by
  obtain ⟨before, value, word, -, rest, -, hreads, hlexes, htoken⟩ := h.readsTo.exists_lexeme ht
  exact ⟨_, value, word, rest, hreads.text_eq, hlexes, htoken⟩

/-! ## 2. Tags in action code -/

namespace Code

/-- **A tag follows the sigil of its placeholder**, and its position is counted up to there. -/
theorem exists_tag {pieces : Code} {position : Position} {offset : Nat} {r : Reference} {tag : Tag}
    (hr : r ∈ referencesFrom position offset pieces) (htag : r.tag = some tag) :
    ∃ before after, text pieces = before ++ r.form.sigil :: (tag.raw ++ after) ∧
      r.span.start = offset + before.byteSize ∧
      tag.position = position.after (before ++ [r.form.sigil]) := by
  induction pieces generalizing position offset with
  | nil => cases hr
  | cons piece more ih =>
    rcases List.mem_append.1 hr with hr | hr
    · cases piece with
      | placeholder p =>
        have hp : r = p.reference position offset := by
          simpa [Piece.reference?] using hr
        subst hp
        obtain ⟨raw, hraw, rfl⟩ := Option.map_eq_some_iff.1 htag
        have hsigil : p.form.sigil ≠ '\n' := by cases p.form <;> decide
        refine ⟨[], p.digits.getD ['$'] ++ text more, ?_, rfl, ?_⟩
        · simp [text_cons, Piece.text, Placeholder.text, Placeholder.reference, hraw]
        · simp [Placeholder.reference, Position.next, Position.shifted, hsigil]
      | _ => cases hr
    · obtain ⟨before, after, htext, hstart, hposition⟩ := ih hr
      refine ⟨piece.text ++ before, after, ?_, ?_, ?_⟩
      · rw [text_cons, htext, List.append_assoc]
      · rw [hstart, Text.byteSize_append, Nat.add_assoc]
      · rw [hposition, List.append_assoc, Position.after_append position]

/-- What stands as a tag in a block that was read is one. -/
theorem isTag_of_mem_references {s : Text} {code : Code} {position : Position} {r : Reference}
    {tag : Tag} (h : Code.read s = .ok code) (hr : r ∈ code.references position)
    (htag : r.tag = some tag) : IsTag tag.raw := by
  obtain ⟨-, word, -, -, -, -, hspells⟩ :=
    (scan_of_read h position).1.exists_word (List.mem_map_of_mem hr)
  simp only [Reference.outline, htag, Option.map_some] at hspells
  exact hspells.isTag

end Code

/-- Only action code has references. -/
theorem Lexes.exists_code {value : Lexeme} {word rest : Text} {position : Position} {t : Token}
    {r : Reference} (h : Lexes value word rest) (ht : value.token? position = some t)
    (hr : r ∈ t.references) :
    ∃ block : Code, Code.read word = .ok block ∧ block.text = word ∧ t.value = .text word ∧
      r ∈ block.references position := by
  cases h with
  | code _ hread =>
    cases ht
    exact ⟨_, hread, rfl, rfl, hr⟩
  | emptyRule | comment => cases ht
  | _ =>
    cases ht
    cases hr

/-! ## 3. Files -/

/-- A run of two parts succeeds if both do. -/
theorem Report.result_andThen_eq_ok {α β : Type} {first : Report α} {second : α → Report β}
    {b : β} : (first.andThen second).result = .ok b ↔
      ∃ a, first.result = .ok a ∧ (second a).result = .ok b := by
  unfold andThen
  cases hfirst : first.result with
  | error e => simp
  | ok a => simp

theorem reportLayout_result (text : Text) : (reportLayout text).result = layOut text := by
  unfold reportLayout
  split
  case h_1 hok => exact hok.symm
  case h_2 herror => exact herror.symm

namespace GrammarFile

/-- The tokens of a section. Prologue and epilogue have none. -/
def tokens (file : GrammarFile) : Section → List Token
  | .declarations => file.declarationTokens
  | .rules => file.ruleTokens
  | .prologue | .epilogue => []

/-- **A file is lexed if its two sections can be scanned.** -/
theorem lex_eq_ok_iff {text : Text} {file : GrammarFile} :
    lex text = .ok file ↔ ∃ layout, layOut text = .ok layout ∧ file.sections = layout.sections ∧
      (scanLines file.sections.declarations).result = .ok file.declarationTokens ∧
      (scanLines file.sections.rules).result = .ok file.ruleTokens := by
  simp only [lex, report, Report.result_within, Report.result_andThen_eq_ok, reportLayout_result,
    reportScan, Report.pure, Except.ok.injEq]
  constructor
  · intro h
    obtain ⟨layout, hlayout, declarationTokens, hdeclarations, ruleTokens, hrules, rfl⟩ := h
    exact ⟨layout, hlayout, rfl, hdeclarations, hrules⟩
  · obtain ⟨sections, declarationTokens, ruleTokens⟩ := file
    intro h
    obtain ⟨layout, hlayout, rfl, hdeclarations, hrules⟩ := h
    exact ⟨layout, hlayout, declarationTokens, hdeclarations, ruleTokens, hrules, rfl⟩

/-- The lines of a section that is scanned stand together in the file, and its tokens are those of
its text. -/
theorem section_of_lex {text : Text} {file : GrammarFile} {which : Section} {t : Token}
    (h : lex text = .ok file) (ht : t ∈ file.tokens which) :
    file.sections.get which <:+: text.numberedLines ∧
      (scanLines (file.sections.get which)).result = .ok (file.tokens which) := by
  obtain ⟨layout, hlayout, hsections, hdeclarations, hrules⟩ := lex_eq_ok_iff.1 h
  obtain ⟨layout', hlayout', hdealt⟩ := exists_layOut text
  rw [hlayout] at hlayout'
  cases hlayout'
  cases which with
  | declarations =>
    refine ⟨?_, hdeclarations⟩
    rw [hsections]
    exact hdealt.infix_declarations
  | rules =>
    refine ⟨?_, hrules⟩
    rw [hsections]
    exact hdealt.infix_rules
  | prologue | epilogue => cases ht

/-- **Every token of a file is located**: its position names the place in the file, and in its
section, at which it is written. So does the position of the tag in a placeholder of action code,
which is that of the tag's opening bracket. -/
theorem tokens_located {text : Text} {file : GrammarFile} (h : lex text = .ok file)
    (which : Section) :
    ∀ t ∈ file.tokens which, t.Located text (file.sections.get which) ∧
      ∀ r ∈ t.references, ∀ tag, r.tag = some tag →
        tag.token.Located text (file.sections.get which) ∧ IsTag tag.raw ∧
        ∃ before after, t.value = .text (before ++ r.form.sigil :: (tag.raw ++ after)) ∧
          r.span.start = before.byteSize ∧
          tag.position = t.position.after (before ++ [r.form.sigil]) := by
  intro t ht
  obtain ⟨hpart, hscan⟩ := section_of_lex h ht
  obtain ⟨items, hdecompose, htokens⟩ := (scanLines_result_iff _ _).1 hscan
  rw [htokens] at ht
  obtain ⟨pre, value, word, rest, htext, hlexes, htoken⟩ :=
    (decompose_eq_iff.1 hdecompose).exists_lexeme ht
  obtain ⟨hposition, hbegins⟩ := hlexes.begins htoken
  constructor
  · obtain ⟨hlocates, more, hfile⟩ :=
      locates_in_file hpart htext (List.append_ne_nil_of_left_ne_nil hlexes.ne_nil rest)
    rw [← hposition] at hlocates hfile
    exact ⟨word ++ rest, more, hbegins, hlocates, hfile⟩
  · intro r hr tag htag
    obtain ⟨block, hread, rfl, hvalue, hr⟩ := hlexes.exists_code htoken hr
    have htagged := Code.isTag_of_mem_references hread hr htag
    obtain ⟨before, after, hblock, hstart, htagPosition⟩ := Code.exists_tag hr htag
    -- the tag begins after what comes before the block, and before the tag in the block
    have hplace : (file.sections.get which).flatMap Line.text =
        (pre ++ (before ++ [r.form.sigil])) ++ (tag.raw ++ (after ++ rest)) := by
      rw [htext, hblock]
      simp
    obtain ⟨hlocates, more, hfile⟩ :=
      locates_in_file hpart hplace (List.append_ne_nil_of_left_ne_nil htagged.ne_nil _)
    rw [Position.after_append, ← htagPosition] at hlocates hfile
    refine ⟨⟨_, more, List.prefix_append _ _, hlocates, hfile⟩, htagged, before, after, ?_, ?_, ?_⟩
    · rw [hvalue, hblock]
    · rw [hstart, Nat.zero_add]
    · rw [htagPosition, hposition]

/-- A colon on the line after its name, and a tag on the second line of action code. -/
theorem tag_on_later_line :
    lex "%\x7b\n%\x7d\n%%\na\n:\x7b\n$<t>1\x7d".toList = .ok ⟨⟨[⟨[], 1⟩, ⟨[], 2⟩], [],
        [⟨"a\n".toList, 4⟩, ⟨":\x7b\n".toList, 5⟩, ⟨"$<t>1\x7d".toList, 6⟩], []⟩, [],
        [.ofText .identColon ['a'] ⟨4, 1⟩, ⟨.userCode, .text "\x7b\n$<t>1\x7d".toList, ⟨5, 2⟩,
          [⟨.value, .index 1, some ⟨"<t>".toList, ⟨6, 2⟩⟩, ⟨2, 7⟩⟩]⟩]⟩ ∧
      Token.Located "%\x7b\n%\x7d\n%%\na\n:\x7b\n$<t>1\x7d".toList
        [⟨"a\n".toList, 4⟩, ⟨":\x7b\n".toList, 5⟩, ⟨"$<t>1\x7d".toList, 6⟩]
        (.ofText .tag "<t>".toList ⟨6, 2⟩) := by
  have hchain : Code.Chain 0 [.plain '\n',
      .placeholder ⟨.value, some "<t>".toList, some ['1']⟩, .closing] [] :=
    .step (.of_read rfl rfl) rfl (.step (.of_read rfl rfl) rfl .last)
  have hread := Code.read_eq_ok_iff.2 ⟨_, [], rfl, rfl, hchain⟩
  have hcode : Lexes (.code _) "\x7b\n$<t>1\x7d".toList [] :=
    .code (Code.isBlock_of_read hread).2.1 hread
  have hlabel : Lexes (.identifier ['a'] true) (['a'] ++ ['\n'] ++ [':']) "\x7b\n$<t>1\x7d".toList :=
    .label ⟨'a', [], rfl, rfl, by simp⟩ (List.all_eq_true.1 rfl)
  have hreads : Reads _ "a\n:\x7b\n$<t>1\x7d".toList := .lexeme hlabel (.lexeme hcode .done)
  have hrules := (scanLines_result_iff
    [⟨"a\n".toList, 4⟩, ⟨":\x7b\n".toList, 5⟩, ⟨"$<t>1\x7d".toList, 6⟩] _).2
    ⟨_, decompose_eq_iff.2 hreads, rfl⟩
  have hlex : lex "%\x7b\n%\x7d\n%%\na\n:\x7b\n$<t>1\x7d".toList = .ok ⟨⟨[⟨[], 1⟩, ⟨[], 2⟩], [],
      [⟨"a\n".toList, 4⟩, ⟨":\x7b\n".toList, 5⟩, ⟨"$<t>1\x7d".toList, 6⟩], []⟩, [], _⟩ :=
    lex_eq_ok_iff.2 ⟨_, rfl, rfl, rfl, hrules⟩
  have hlocated := tokens_located hlex .rules _ (.tail _ (.head _))
  exact ⟨hlex, (hlocated.2 _ (.head _) _ rfl).1⟩

end GrammarFile

end GrammarLexer
