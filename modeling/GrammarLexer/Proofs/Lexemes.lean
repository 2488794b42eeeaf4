import GrammarLexer.Proofs.Block

/-!
# Lexemes of a text

Which texts are lexemes, and of what, is said here without a reader: every lexeme by the text that
it takes and, where it looks ahead, by what follows that text. The forms read exactly these.

* `Lexes value word rest` -- the text `word`, before `rest`, is the lexeme `value`;
* `Form.openedBy`, `Form.openedBy_of_startsHere` -- the first character tells which form starts, so
  that the order in which forms are tried does not matter (`Form.lexFirst?_eq_some_iff`);
* `Lexes.lex?`, `Form.isLexeme_of_lex?` -- **a lexeme is read, and what is read is a lexeme**.
-/

namespace GrammarLexer

open Text (Stops IsRun EndsFirst)

/-! ## 1. What lexemes are -/

/-- The words after a percent sign that have a meaning of their own. -/
def keywords : List Text := Directive.all.map Directive.keyword ++ [emptyWord]

/-- `Lexes value word rest`: the text `word` is the lexeme `value` where `rest` follows it. Words
and numbers are as long as they can be; a name takes the colon that comes next after it. -/
inductive Lexes : Lexeme → Text → Text → Prop where
  | semicolon {rest : Text} : Lexes .semicolon [';'] rest
  | bar {rest : Text} : Lexes .bar ['|'] rest
  | number {digits rest : Text} : IsRun Char.isDigit digits →
      digits.decimal < Text.wordLimit → Stops Char.isDigit rest →
      Lexes (.number digits.decimal) digits rest
  | tag {raw rest : Text} : IsTag raw → Lexes (.tag raw) raw rest
  | name {name rest : Text} : IsName name → Stops isNameChar rest →
      (rest.dropWhile isBlank).head? ≠ some ':' → Lexes (.identifier name false) name rest
  | label {name blanks rest : Text} : IsName name → (∀ ch ∈ blanks, isBlank ch = true) →
      Lexes (.identifier name true) (name ++ blanks ++ [':']) rest
  | directive {d : Directive} {rest : Text} : Stops isNameChar rest →
      Lexes (.directive d) d.keyword rest
  | emptyRule {rest : Text} : Stops isNameChar rest → Lexes .emptyRule emptyWord rest
  | extended {keyword word rest : Text} : IsPercentWord word → Stops isNameChar rest →
      keyword ∈ keywords → keyword <+: word → keyword ≠ word → Lexes (.extended word) word rest
  /-- A block that is read whole when it stands alone. -/
  | code {block : Code} {rest : Text} : IsBlock block.text → Code.read block.text = .ok block →
      Lexes (.code block) block.text rest
  | string {inner rest : Text} : '"' ∉ inner → Lexes (.string inner) (quotedRun '"' inner) rest
  | comment {inner rest : Text} : EndsFirst commentClosing inner →
      Lexes (.comment inner) (commentRun inner) rest
  /-- A lone backslash before a quote would be the escape of that quote. -/
  | character {raw rest : Text} : IsCharacter raw →
      (raw = loneBackslash → rest.head? ≠ some '\'') → Lexes (.character raw) raw rest

/-- The form that reads a lexeme. -/
def Lexeme.form : Lexeme → Form
  | semicolon | bar => .punctuator
  | number _ => .number
  | tag _ => .tag
  | identifier .. => .identifier
  | directive _ | emptyRule | extended _ => .percentWord
  | code _ => .userCode
  | string _ => .stringLiteral
  | comment _ => .comment
  | character _ => .charLiteral

/-! ## 2. First characters -/

theorem isDigit_iff {ch : Char} : ch.isDigit = true ↔ 48 ≤ ch.toNat ∧ ch.toNat ≤ 57 := by
  simp [Char.isDigit, UInt32.le_iff_toNat_le]

theorem isNameStart_iff {ch : Char} : isNameStart ch = true ↔
    65 ≤ ch.toNat ∧ ch.toNat ≤ 90 ∨ 97 ≤ ch.toNat ∧ ch.toNat ≤ 122 ∨ ch = '_' ∨ ch = '.' := by
  have halpha : ch.isAlpha = (decide (ch.val ≥ 'A'.val ∧ ch.val ≤ 'Z'.val) ||
      (decide (ch.val ≥ 'a'.val) && decide (ch.val ≤ 'z'.val))) := rfl
  rw [isNameStart, halpha]
  simp [UInt32.le_iff_toNat_le, or_assoc]

theorem isDigit_of_isNameStart {ch : Char} (h : isNameStart ch = true) : ch.isDigit = false := by
  refine Bool.eq_false_iff.2 fun hdigit => ?_
  have hdigit := isDigit_iff.1 hdigit
  rcases isNameStart_iff.1 h with h | h | rfl | rfl
  · omega
  · omega
  · exact absurd hdigit (by decide)
  · exact absurd hdigit (by decide)

/-- Between the space and the first control characters beyond ASCII there is no blank. -/
theorem not_isBlank {ch : Char} (hlow : 32 < ch.toNat) (hhigh : ch.toNat < 133) :
    isBlank ch = false := by
  refine Bool.eq_false_iff.2 fun hblank => ?_
  obtain ⟨run, hrun, hfrom, hto⟩ := CodePointSet.has_iff.1 hblank
  simp only [whiteSpace, List.mem_cons, List.not_mem_nil, or_false] at hrun
  rcases hrun with rfl | rfl | rfl | rfl | rfl | rfl | rfl | rfl | rfl | rfl <;>
    dsimp only at hfrom hto <;> omega

theorem isNameChar_of_isBlank {ch : Char} (h : isBlank ch = true) : isNameChar ch = false := by
  refine Bool.eq_false_iff.2 fun hname => ?_
  have hrange : 32 < ch.toNat ∧ ch.toNat < 133 := by
    simp only [isNameChar, Bool.or_eq_true, isNameStart_iff, isDigit_iff, beq_iff_eq] at hname
    rcases hname with ((hname | hname | rfl | rfl) | hname) | rfl
    · omega
    · omega
    · decide
    · decide
    · omega
    · decide
  rw [not_isBlank hrange.1 hrange.2] at h
  cases h

/-- Neither a blank nor a colon goes on with a name. -/
theorem stops_label {blanks : Text} (h : ∀ ch ∈ blanks, isBlank ch = true) (rest : Text) :
    Stops isNameChar (blanks ++ ':' :: rest) := by
  cases blanks with
  | nil => exact Text.stops_cons.2 (by decide)
  | cons ch more => exact Text.stops_cons.2 (isNameChar_of_isBlank (h ch List.mem_cons_self))

namespace Form

/-- The form that a character opens, if any. -/
def openedBy (ch : Char) : Option Form :=
  if ch.isDigit then some number
  else if isNameStart ch then some identifier
  else
    match ch with
    | ';' | '|' => some punctuator
    | '<' => some tag
    | '%' => some percentWord
    | '{' => some userCode
    | '"' => some stringLiteral
    | '/' => some comment
    | '\'' => some charLiteral
    | _ => none

/-- **A form that starts is the one its first character opens.** -/
theorem openedBy_of_startsHere {form : Form} {s : Text} (h : form.startsHere s = true) :
    s.head?.bind openedBy = some form := by
  cases form with
  | punctuator =>
    simp only [startsHere, Bool.or_eq_true, beq_iff_eq] at h
    rcases h with h | h <;> rw [h] <;> rfl
  | number =>
    obtain ⟨ch, hch, hdigit⟩ := (Option.any_eq_true _ _).1 h
    rw [hch, Option.bind_some]
    unfold openedBy
    rw [if_pos hdigit]
  | tag =>
    obtain ⟨m, hm⟩ := Option.isSome_iff_exists.1 h
    obtain ⟨t, -, rfl, -⟩ := Pattern.exists_of_match?_char_seq hm
    rfl
  | identifier =>
    rw [startsHere, Pattern.upcoming_name] at h
    obtain ⟨ch, hch, hstart⟩ := (Option.any_eq_true _ _).1 h
    have hdigit := Bool.eq_false_iff.1 (isDigit_of_isNameStart hstart)
    rw [hch, Option.bind_some]
    unfold openedBy
    rw [if_neg hdigit, if_pos hstart]
  | percentWord =>
    obtain ⟨m, hm⟩ := Option.isSome_iff_exists.1 h
    obtain ⟨t, -, rfl, -⟩ := Pattern.exists_of_match?_char_seq hm
    rfl
  | userCode =>
    rw [beq_iff_eq.1 h]
    rfl
  | stringLiteral =>
    rw [beq_iff_eq.1 h]
    rfl
  | comment =>
    obtain ⟨t, rfl⟩ := List.isPrefixOf_iff_prefix.1 h
    rfl
  | charLiteral =>
    obtain ⟨m, hm⟩ := Option.isSome_iff_exists.1 h
    obtain ⟨t, -, rfl, -⟩ := Pattern.exists_of_match?_char_seq hm
    rfl

/-- At most one form starts at a text. -/
theorem startsHere_unique {form form' : Form} {s : Text} (h : form.startsHere s = true)
    (h' : form'.startsHere s = true) : form = form' := by
  have heq := openedBy_of_startsHere h
  rw [openedBy_of_startsHere h'] at heq
  exact (Option.some.inj heq).symm

/-- No form starts with a blank. -/
theorem not_isBlank_of_openedBy {ch : Char} {form : Form} (h : openedBy ch = some form) :
    isBlank ch = false := by
  unfold openedBy at h
  split at h
  case isTrue hdigit =>
    have hrange := isDigit_iff.1 hdigit
    exact not_isBlank (by omega) (by omega)
  case isFalse =>
    split at h
    case isTrue hstart =>
      cases hblank : isBlank ch with
      | false => rfl
      | true =>
        have hname := isNameChar_of_isBlank hblank
        rw [isNameChar_of_isNameStart hstart] at hname
        cases hname
    case isFalse => split at h <;> first | decide | cases h

theorem mem_all (form : Form) : form ∈ all := by cases form <;> decide

section

variable {forms : List Form} {form : Form} {s : Text} {reading : Except Fault (Taken Lexeme)}

theorem mem_and_lex?_of_lexFirst? (h : lexFirst? forms s = some (form, reading)) :
    form ∈ forms ∧ form.lex? s = some reading := by
  obtain ⟨f, hmem, hf⟩ := List.exists_of_findSome?_eq_some h
  obtain ⟨r, hr, he⟩ := Option.map_eq_some_iff.1 hf
  cases he
  exact ⟨hmem, hr⟩

theorem lex?_of_lexFirst? (h : lexFirst? forms s = some (form, reading)) :
    form.lex? s = some reading := (mem_and_lex?_of_lexFirst? h).2

/-- **The order in which forms are tried does not matter**: whichever of them starts reads. -/
theorem lexFirst?_eq_some_iff :
    lexFirst? forms s = some (form, reading) ↔ form ∈ forms ∧ form.lex? s = some reading := by
  constructor
  · exact mem_and_lex?_of_lexFirst?
  · rintro ⟨hmem, h⟩
    have hsome : (lexFirst? forms s).isSome = true :=
      List.findSome?_isSome_iff.2 ⟨form, hmem, by rw [h]; rfl⟩
    obtain ⟨⟨form', reading'⟩, hfirst⟩ := Option.isSome_iff_exists.1 hsome
    -- what was found starts here, and so does `form`
    obtain ⟨hstarts, hread⟩ := lex?_eq_some_iff.1 h
    obtain ⟨hstarts', hread'⟩ := lex?_eq_some_iff.1 (lex?_of_lexFirst? hfirst)
    obtain rfl := startsHere_unique hstarts hstarts'
    rw [hfirst, ← hread, ← hread']

theorem lexFirst?_all_iff : lexFirst? all s = some (form, reading) ↔ form.lex? s = some reading := by
  rw [lexFirst?_eq_some_iff, and_iff_right (mem_all form)]

end

end Form

/-! ## 3. Words after a percent sign -/

theorem keyword_mem_keywords (d : Directive) : d.keyword ∈ keywords :=
  List.mem_append_left _ (List.mem_map_of_mem (Directive.mem_all d))

theorem emptyWord_mem_keywords : emptyWord ∈ keywords :=
  List.mem_append_right _ (List.mem_singleton.2 rfl)

/-- A word that is no keyword is looked up in vain. -/
theorem ofKeyword?_of_not_mem {word : Text} (h : word ∉ keywords) :
    word ≠ emptyWord ∧ Directive.ofKeyword? word = none := by
  refine ⟨fun he => h (he ▸ emptyWord_mem_keywords), ?_⟩
  cases hd : Directive.ofKeyword? word with
  | none => rfl
  | some d =>
    rw [← Directive.keyword_of_ofKeyword? hd] at h
    exact absurd (keyword_mem_keywords d) h

/-- Every keyword is a word after a percent sign. -/
theorem isPercentWord_of_mem_keywords {keyword : Text} (h : keyword ∈ keywords) :
    IsPercentWord keyword := by
  have hmatch : ∀ k ∈ keywords, Pattern.percentWord.match? k = some ⟨k.length, []⟩ := by
    decide +kernel
  obtain ⟨word, rest, hword, hpercent, -, hm⟩ := Pattern.match?_percentWord_iff.1 (hmatch _ h)
  have hlength : keyword.length = word.length := congrArg Match.width hm
  have hpre : word <+: keyword := ⟨rest, hword.symm⟩
  rw [← hpre.eq_of_length hlength.symm]
  exact hpercent

/-- No keyword goes on past another one. -/
theorem eq_of_mem_keywords : ∀ k ∈ keywords, ∀ k' ∈ keywords, k <+: k' → k = k' := by
  decide +kernel

theorem extendsKeyword_iff {word : Text} :
    extendsKeyword word = true ↔ ∃ keyword ∈ keywords, keyword <+: word ∧ keyword ≠ word := by
  simp only [extendsKeyword, List.any_eq_true, Bool.and_eq_true, decide_eq_true_eq,
    List.isPrefixOf_iff_prefix]
  constructor
  · intro ⟨k, hk, hlength, hpre⟩
    refine ⟨k, hk, hpre, ?_⟩
    intro he
    subst he
    exact Nat.lt_irrefl _ hlength
  · intro ⟨k, hk, hpre, hne⟩
    refine ⟨k, hk, ?_, hpre⟩
    exact Nat.lt_of_le_of_ne hpre.length_le fun hlength => hne (hpre.eq_of_length hlength)

/-! ## 4. Lexemes are read -/

theorem readPattern_append {p : Pattern} {word rest : Text} {groups : List (Option Text)}
    (h : p.match? (word ++ rest) = some ⟨word.length, groups⟩) :
    readPattern p (word ++ rest) = .ok ⟨word, word.length⟩ := by
  rw [readPattern, h]
  simp

theorem upcoming_of_match? {p : Pattern} {s : Text} {m : Match} (h : p.match? s = some m) :
    p.upcoming s = true := by
  rw [Pattern.upcoming, h]
  rfl

namespace Lexes

variable {word rest : Text}

theorem lex?_number (hrun : IsRun Char.isDigit word) (hfits : word.decimal < Text.wordLimit)
    (hrest : Stops Char.isDigit rest) :
    Form.number.lex? (word ++ rest) = some (.ok ⟨.number word.decimal, word.length⟩) := by
  refine Form.lex?_eq_some_iff.2 ⟨?_, ?_⟩
  · obtain ⟨ch, more, rfl⟩ := List.exists_cons_of_ne_nil hrun.1
    exact hrun.2 ch List.mem_cons_self
  · have hvalue := Text.wordValue?_eq_some_iff.2 ⟨hrun.1, hfits, rfl⟩
    simp only [Form.read, readNumber, Text.takeWhile_append_of_stops hrun.2 hrest, hvalue]

theorem lex?_tag (h : IsTag word) :
    Form.tag.lex? (word ++ rest) = some (.ok ⟨.tag word, word.length⟩) := by
  have hmatch := Pattern.match?_tag_iff.2 ⟨word, rest, rfl, h, rfl⟩
  refine Form.lex?_eq_some_iff.2 ⟨upcoming_of_match? hmatch, ?_⟩
  rw [Form.read, readPattern_append hmatch]
  rfl

/-- What is read of a name depends on what comes after it. -/
theorem lex?_identifier (h : IsName word) (hrest : Stops isNameChar rest) :
    Form.identifier.lex? (word ++ rest) = some (.ok
      (if (rest.dropWhile isBlank).head? = some ':' then
        ⟨.identifier word true, word.length + (rest.takeWhile isBlank).length + 1⟩
      else ⟨.identifier word false, word.length⟩)) := by
  have hmatch := Pattern.match?_name_iff.2 ⟨word, rest, rfl, h, hrest, rfl⟩
  refine Form.lex?_eq_some_iff.2 ⟨upcoming_of_match? hmatch, ?_⟩
  rw [Form.read, readIdentifier, readPattern_append hmatch]
  simp only [Except.map, List.drop_left, Text.drop_length_takeWhile]

theorem lex?_percentWord (h : IsPercentWord word) (hrest : Stops isNameChar rest) :
    Form.percentWord.lex? (word ++ rest) = some
      (if word = emptyWord then .ok ⟨.emptyRule, word.length⟩
      else
        match Directive.ofKeyword? word with
        | some d => .ok ⟨.directive d, word.length⟩
        | none =>
          if extendsKeyword word then .ok ⟨.extended word, word.length⟩
          else .error ⟨.unknown, 0, word.length⟩) := by
  have hmatch := Pattern.match?_percentWord_iff.2 ⟨word, rest, rfl, h, hrest, rfl⟩
  refine Form.lex?_eq_some_iff.2 ⟨upcoming_of_match? hmatch, ?_⟩
  rewrite [Form.read, readPercentWord, readPattern_append hmatch]
  rfl

theorem lex?_code {block : Code} (h : Code.read block.text = .ok block) :
    Form.userCode.lex? (block.text ++ rest) = some (.ok ⟨.code block, block.text.length⟩) := by
  obtain ⟨more, after, rfl, htext, hchain⟩ := Code.read_eq_ok_iff.1 h
  exact Form.lex?_userCode (Code.read_eq_ok_iff.2 ⟨more, rest, rfl, rfl, hchain.change rest⟩)

theorem lex?_string (h : '"' ∉ word) :
    Form.stringLiteral.lex? (quotedRun '"' word ++ rest) =
      some (.ok ⟨.string word, (quotedRun '"' word).length⟩) := by
  refine Form.lex?_eq_some_iff.2 ⟨rfl, ?_⟩
  rw [Form.read, readQuoted_eq_ok_iff.2 ⟨h, rest, rfl⟩]
  simp [Except.map, quotedRun]

theorem lex?_comment (h : EndsFirst commentClosing word) :
    Form.comment.lex? (commentRun word ++ rest) =
      some (.ok ⟨.comment word, (commentRun word).length⟩) := by
  have hopening := commentOpening_begins word rest
  have hread : readComment (commentRun word ++ rest) = .ok ⟨word, (commentRun word).length⟩ :=
    (readComment_eq_ok_iff hopening).2 ⟨h, rfl, rest, rfl⟩
  refine Form.lex?_eq_some_iff.2 ⟨List.isPrefixOf_iff_prefix.2 hopening, ?_⟩
  rw [Form.read, hread]
  rfl

theorem lex?_character (h : IsCharacter word)
    (hlone : word = loneBackslash → rest.head? ≠ some '\'') :
    Form.charLiteral.lex? (word ++ rest) = some (.ok ⟨.character word, word.length⟩) := by
  have hmatch := Pattern.match?_character_iff.2 ⟨word, rest, rfl, h, hlone, rfl⟩
  refine Form.lex?_eq_some_iff.2 ⟨upcoming_of_match? hmatch, ?_⟩
  rw [Form.read, readPattern_append hmatch]
  rfl

/-- **A lexeme is read**, from the text that it takes and whatever may follow it. -/
theorem lex? {value : Lexeme} (h : Lexes value word rest) :
    value.form.lex? (word ++ rest) = some (.ok ⟨value, word.length⟩) := by
  cases h with
  | semicolon => rfl
  | bar => rfl
  | number hrun hfits hrest => exact lex?_number hrun hfits hrest
  | tag hraw => exact lex?_tag hraw
  | name hname hrest hcolon => rw [Lexeme.form, lex?_identifier hname hrest, if_neg hcolon]
  | @label name blanks _ hname hblanks =>
    have hcolon : Stops isBlank (':' :: rest) := Text.stops_cons.2 (by decide)
    have htake := Text.takeWhile_append_of_stops hblanks hcolon
    have hdrop := Text.drop_length_takeWhile isBlank (blanks ++ ':' :: rest)
    rw [htake, List.drop_left] at hdrop
    have hlex := lex?_identifier hname (stops_label hblanks rest)
    rw [htake, ← hdrop, List.head?_cons, if_pos rfl] at hlex
    simpa [Lexeme.form, Nat.add_assoc] using hlex
  | @directive d _ hrest =>
    have hword := isPercentWord_of_mem_keywords (keyword_mem_keywords d)
    have hempty : d.keyword ≠ emptyWord := by cases d <;> decide
    rw [Lexeme.form, lex?_percentWord hword hrest, if_neg hempty, Directive.ofKeyword?_keyword]
  | emptyRule hrest =>
    have hword := isPercentWord_of_mem_keywords emptyWord_mem_keywords
    rw [Lexeme.form, lex?_percentWord hword hrest, if_pos rfl]
  | @extended keyword _ _ hword hrest hkeyword hpre hne =>
    -- a word that goes on past a keyword is none itself
    obtain ⟨hempty, hdirective⟩ :=
      ofKeyword?_of_not_mem fun hmem => hne (eq_of_mem_keywords _ hkeyword _ hmem hpre)
    have hextends := extendsKeyword_iff.2 ⟨keyword, hkeyword, hpre, hne⟩
    rw [Lexeme.form, lex?_percentWord hword hrest, if_neg hempty, hdirective]
    simp only [hextends, if_true]
  | code hblock hread => exact lex?_code hread
  | string hinner => exact lex?_string hinner
  | comment hinner => exact lex?_comment hinner
  | character hraw hlone => exact lex?_character hraw hlone

end Lexes

/-! ## 5. What is read is a lexeme -/

/-- What was taken from the start of a text is a lexeme, before the text that is left. -/
def Taken.IsLexeme (taken : Taken Lexeme) (s : Text) : Prop :=
  ∃ word rest, s = word ++ rest ∧ taken.width = word.length ∧ Lexes taken.value word rest

theorem exists_of_readPattern {p : Pattern} {s : Text} {taken : Taken Text}
    (h : readPattern p s = .ok taken) :
    ∃ m, p.match? s = some m ∧ taken = ⟨s.take m.width, m.width⟩ := by
  unfold readPattern at h
  split at h
  case h_1 m hm =>
    cases h
    exact ⟨m, hm, rfl⟩
  case h_2 => cases h

namespace Form

variable {s : Text} {taken : Taken Lexeme}

theorem isLexeme_punctuator (h : punctuator.lex? s = some (.ok taken)) : taken.IsLexeme s := by
  obtain ⟨hstarts, hread⟩ := lex?_eq_some_iff.1 h
  simp only [startsHere, Bool.or_eq_true, beq_iff_eq] at hstarts
  rcases hstarts with hhead | hhead
  · obtain ⟨rest, rfl⟩ := List.head?_eq_some_iff.1 hhead
    cases hread
    exact ⟨_, rest, rfl, rfl, .semicolon⟩
  · obtain ⟨rest, rfl⟩ := List.head?_eq_some_iff.1 hhead
    cases hread
    exact ⟨_, rest, rfl, rfl, .bar⟩

theorem isLexeme_number (h : number.lex? s = some (.ok taken)) : taken.IsLexeme s := by
  obtain ⟨-, hread⟩ := lex?_eq_some_iff.1 h
  simp only [read, readNumber] at hread
  split at hread
  case h_1 n hn =>
    obtain ⟨hne, hfits, rfl⟩ := Text.wordValue?_eq_some_iff.1 hn
    cases hread
    have hrun : IsRun Char.isDigit (s.takeWhile Char.isDigit) :=
      ⟨hne, fun ch hch => Text.of_mem_takeWhile hch⟩
    exact ⟨_, _, List.takeWhile_append_dropWhile.symm, rfl,
      .number hrun hfits (Text.stops_dropWhile _ _)⟩
  case h_2 => cases hread

theorem isLexeme_tag (h : tag.lex? s = some (.ok taken)) : taken.IsLexeme s := by
  obtain ⟨raw, hraw, rfl⟩ := exists_of_map_eq_ok (lex?_eq_some_iff.1 h).2
  obtain ⟨m, hm, rfl⟩ := exists_of_readPattern hraw
  obtain ⟨word, rest, rfl, hword, rfl⟩ := Pattern.match?_tag_iff.1 hm
  refine ⟨word, rest, rfl, rfl, ?_⟩
  rw [List.take_left]
  exact .tag hword

/-- A colon after a name and blanks belongs to the name. -/
theorem isLexeme_identifier (h : identifier.lex? s = some (.ok taken)) : taken.IsLexeme s := by
  obtain ⟨m, hm⟩ := Option.isSome_iff_exists.1 (lex?_eq_some_iff.1 h).1
  obtain ⟨name, rest, rfl, hname, hrest, rfl⟩ := Pattern.match?_name_iff.1 hm
  rw [Lexes.lex?_identifier hname hrest] at h
  split at h
  case isTrue hcolon =>
    cases h
    obtain ⟨after, hafter⟩ := List.head?_eq_some_iff.1 hcolon
    refine ⟨name ++ rest.takeWhile isBlank ++ [':'], after, ?_, by simp [Nat.add_assoc],
      .label hname fun ch hch => Text.of_mem_takeWhile hch⟩
    have hsplit := List.takeWhile_append_dropWhile (p := isBlank) (l := rest)
    rw [hafter] at hsplit
    simp [hsplit]
  case isFalse hcolon =>
    cases h
    exact ⟨name, rest, rfl, rfl, .name hname hrest hcolon⟩

/-- A word after a percent sign is a keyword, or goes on past one. -/
theorem isLexeme_percentWord (h : percentWord.lex? s = some (.ok taken)) : taken.IsLexeme s := by
  obtain ⟨m, hm⟩ := Option.isSome_iff_exists.1 (lex?_eq_some_iff.1 h).1
  obtain ⟨word, rest, rfl, hword, hrest, rfl⟩ := Pattern.match?_percentWord_iff.1 hm
  rw [Lexes.lex?_percentWord hword hrest] at h
  split at h
  case isTrue hempty =>
    cases h
    subst hempty
    exact ⟨_, rest, rfl, rfl, .emptyRule hrest⟩
  case isFalse =>
    split at h
    case h_1 d hd =>
      cases h
      obtain rfl := Directive.keyword_of_ofKeyword? hd
      exact ⟨_, rest, rfl, rfl, .directive hrest⟩
    case h_2 =>
      split at h
      case isTrue hextends =>
        cases h
        obtain ⟨keyword, hkeyword, hpre, hne⟩ := extendsKeyword_iff.1 hextends
        exact ⟨word, rest, rfl, rfl, .extended hword hrest hkeyword hpre hne⟩
      case isFalse => cases h

/-- Action code is read as the same pieces when nothing comes after it. -/
theorem isLexeme_userCode (h : userCode.lex? s = some (.ok taken)) : taken.IsLexeme s := by
  obtain ⟨code, hcode, rfl⟩ := exists_of_map_eq_ok (lex?_eq_some_iff.1 h).2
  obtain ⟨more, rest, rfl, rfl, hchain⟩ := Code.read_eq_ok_iff.1 hcode
  have halone := Code.read_eq_ok_iff.2 ⟨more, [], rfl, (List.append_nil _).symm, hchain.change []⟩
  exact ⟨_, rest, rfl, rfl, .code (Code.isBlock_of_read hcode).2.1 halone⟩

theorem isLexeme_stringLiteral (h : stringLiteral.lex? s = some (.ok taken)) :
    taken.IsLexeme s := by
  obtain ⟨inner, hinner, rfl⟩ := exists_of_map_eq_ok (lex?_eq_some_iff.1 h).2
  obtain ⟨hmem, rest, rfl⟩ := readQuoted_eq_ok_iff.1 hinner
  exact ⟨_, rest, rfl, by simp [quotedRun], .string hmem⟩

theorem isLexeme_comment (h : comment.lex? s = some (.ok taken)) : taken.IsLexeme s := by
  obtain ⟨hstarts, hread⟩ := lex?_eq_some_iff.1 h
  obtain ⟨⟨inner, width⟩, hinner, rfl⟩ := exists_of_map_eq_ok hread
  have hopening := List.isPrefixOf_iff_prefix.1 hstarts
  obtain ⟨hfirst, hwidth, rest, rfl⟩ := (readComment_eq_ok_iff hopening).1 hinner
  exact ⟨_, rest, rfl, hwidth, .comment hfirst⟩

theorem isLexeme_charLiteral (h : charLiteral.lex? s = some (.ok taken)) : taken.IsLexeme s := by
  obtain ⟨raw, hraw, rfl⟩ := exists_of_map_eq_ok (lex?_eq_some_iff.1 h).2
  obtain ⟨m, hm, rfl⟩ := exists_of_readPattern hraw
  obtain ⟨word, rest, rfl, hword, hlone, rfl⟩ := Pattern.match?_character_iff.1 hm
  refine ⟨word, rest, rfl, rfl, ?_⟩
  rw [List.take_left]
  exact .character hword hlone

/-- **What is read is a lexeme**, whichever form reads it. -/
theorem isLexeme_of_lex? {form : Form} (h : form.lex? s = some (.ok taken)) :
    taken.IsLexeme s := by
  cases form with
  | punctuator => exact isLexeme_punctuator h
  | number => exact isLexeme_number h
  | tag => exact isLexeme_tag h
  | identifier => exact isLexeme_identifier h
  | percentWord => exact isLexeme_percentWord h
  | userCode => exact isLexeme_userCode h
  | stringLiteral => exact isLexeme_stringLiteral h
  | comment => exact isLexeme_comment h
  | charLiteral => exact isLexeme_charLiteral h

end Form

end GrammarLexer
