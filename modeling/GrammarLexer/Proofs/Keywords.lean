import GrammarLexer.Proofs.Diagnosis
import GrammarLexer.Proofs.LongestMatch

/-!
# Keywords

A word after a percent sign is read to its end before it is looked up, so a keyword counts only
where it is the whole word. A longer word that begins with a keyword is a name; a word that begins
with none is an error.

* `keywords_cases` -- the four things that a word can be;
* `Cursor.MakesOf` -- what reading makes of a word, for each of them;
* `Operation.AsksFor.makesOf` -- **the whole word decides**;
* `percentWord_exact` -- the same with the longest word at a cursor, and for the tokens of a scan.
-/

namespace GrammarLexer

open Text (Stops)

/-! ## 1. What a word can be -/

theorem mem_keywords_iff {word : Text} :
    word ∈ keywords ↔ (∃ d : Directive, word = d.keyword) ∨ word = emptyWord := by
  constructor
  · intro h
    rcases List.mem_append.1 h with hd | hd
    · obtain ⟨d, -, rfl⟩ := List.mem_map.1 hd
      exact .inl ⟨d, rfl⟩
    · exact .inr (List.mem_singleton.1 hd)
  · rintro (⟨d, rfl⟩ | rfl)
    · exact keyword_mem_keywords d
    · exact emptyWord_mem_keywords

theorem keyword_ne_emptyWord (d : Directive) : d.keyword ≠ emptyWord := by cases d <;> decide

theorem Directive.keyword_inj {d d' : Directive} : d.keyword = d'.keyword ↔ d = d' := by
  refine ⟨fun h => ?_, fun h => h ▸ rfl⟩
  have hfound := ofKeyword?_keyword d
  rw [h, ofKeyword?_keyword] at hfound
  exact (Option.some.inj hfound).symm

/-- A word goes on past a keyword. -/
def GoesPast (word : Text) : Prop := ∃ keyword ∈ keywords, keyword <+: word ∧ keyword ≠ word

/-- A word that goes on past a keyword is none itself. -/
theorem GoesPast.not_mem {word : Text} (h : GoesPast word) : word ∉ keywords := by
  obtain ⟨keyword, hkeyword, hpre, hne⟩ := h
  exact fun hmem => hne (eq_of_mem_keywords _ hkeyword _ hmem hpre)

/-- **A word is a directive, the word for an empty rule, longer than one of these, or begins with
none of them.** -/
theorem keywords_cases (word : Text) :
    (∃ d : Directive, word = d.keyword) ∨ word = emptyWord ∨ GoesPast word ∨
      ∀ keyword ∈ keywords, ¬ keyword <+: word := by
  by_cases hmem : word ∈ keywords
  · rcases mem_keywords_iff.1 hmem with hd | he
    · exact .inl hd
    · exact .inr (.inl he)
  · by_cases hpast : GoesPast word
    · exact .inr (.inr (.inl hpast))
    · refine .inr (.inr (.inr fun keyword hkeyword hpre => hpast ⟨keyword, hkeyword, hpre, ?_⟩))
      rintro rfl
      exact hmem hkeyword

/-! ## 2. What reading makes of a word -/

/-- What reading makes of the word at a cursor: a directive, the word for an empty rule or a name,
at the position of the percent sign, or an error there that shows all up to the next blank. -/
structure Cursor.MakesOf (c : Cursor) (word : Text) (made : Outcome) : Prop where
  directive : ∀ d p, made = .lexed .percentWord (.directive d) p ↔
    word = d.keyword ∧ p = c.position
  emptyRule : ∀ p, made = .lexed .percentWord .emptyRule p ↔ word = emptyWord ∧ p = c.position
  extended : ∀ v p, made = .lexed .percentWord (.extended v) p ↔
    v = word ∧ word ∉ keywords ∧ GoesPast word ∧ p = c.position
  unlisted : ∀ e, made = .errant e ↔ (∀ keyword ∈ keywords, ¬ keyword <+: word) ∧
    e = .unknownToken c.rest.word ⟨c.position, c.snippet⟩

namespace Cursor.MakesOf

variable {c : Cursor} {word : Text}

theorem of_directive (c : Cursor) (d : Directive) :
    c.MakesOf d.keyword (.lexed .percentWord (.directive d) c.position) where
  directive d' p := by simp [Directive.keyword_inj, eq_comm]
  emptyRule p := by simp [keyword_ne_emptyWord]
  extended v p := by simp [keyword_mem_keywords]
  unlisted e := by
    refine ⟨fun h => (nomatch h), fun ⟨hnone, _⟩ => ?_⟩
    exact absurd List.prefix_rfl (hnone _ (keyword_mem_keywords d))

theorem of_emptyWord (c : Cursor) :
    c.MakesOf emptyWord (.lexed .percentWord .emptyRule c.position) where
  directive d p := by simp [(keyword_ne_emptyWord d).symm]
  emptyRule p := by simp [eq_comm]
  extended v p := by simp [emptyWord_mem_keywords]
  unlisted e := by
    refine ⟨fun h => (nomatch h), fun ⟨hnone, _⟩ => ?_⟩
    exact absurd List.prefix_rfl (hnone _ emptyWord_mem_keywords)

theorem of_goesPast (c : Cursor) (h : GoesPast word) :
    c.MakesOf word (.lexed .percentWord (.extended word) c.position) where
  directive d p := by
    refine ⟨fun he => (nomatch he), fun ⟨he, _⟩ => ?_⟩
    exact absurd (he ▸ keyword_mem_keywords d) h.not_mem
  emptyRule p := by
    refine ⟨fun he => (nomatch he), fun ⟨he, _⟩ => ?_⟩
    exact absurd (he ▸ emptyWord_mem_keywords) h.not_mem
  extended v p := by simp [h, h.not_mem, eq_comm]
  unlisted e := by
    obtain ⟨keyword, hkeyword, hpre, -⟩ := h
    exact ⟨fun he => (nomatch he), fun ⟨hnone, _⟩ => absurd hpre (hnone _ hkeyword)⟩

theorem of_unlisted (c : Cursor) (h : ∀ keyword ∈ keywords, ¬ keyword <+: word) :
    c.MakesOf word (.errant (.unknownToken c.rest.word ⟨c.position, c.snippet⟩)) where
  directive d p := by
    refine ⟨fun he => (nomatch he), fun ⟨he, _⟩ => ?_⟩
    exact absurd (he ▸ List.prefix_rfl) (h _ (keyword_mem_keywords d))
  emptyRule p := by
    refine ⟨fun he => (nomatch he), fun ⟨he, _⟩ => ?_⟩
    exact absurd (he ▸ List.prefix_rfl) (h _ emptyWord_mem_keywords)
  extended v p := by
    refine ⟨fun he => (nomatch he), fun ⟨_, _, ⟨keyword, hkeyword, hpre, _⟩, _⟩ => ?_⟩
    exact absurd hpre (h _ hkeyword)
  unlisted e := by rw [and_iff_right h, Outcome.errant.injEq, eq_comm]

end Cursor.MakesOf

/-- The error at an unlisted word shows what stands there up to the next blank. -/
theorem Fault.error_unlisted {c : Cursor} {word rest : Text} (hrest : c.rest = word ++ rest)
    (hword : IsPercentWord word) (stop : Nat) :
    Fault.error ⟨.unknown, 0, stop⟩ c = .unknownToken c.rest.word ⟨c.position, c.snippet⟩ := by
  have hne : c.rest.word ≠ [] := by
    obtain ⟨name, rfl, -⟩ := hword
    have hpercent : isBlank '%' = false := by decide
    rw [hrest]
    simp [Text.word, hpercent]
  change c.unknownToken = _
  rw [Cursor.unknownToken, if_neg hne]
  rfl

/-- **The whole word decides** what reading makes of it, and the cursor passes it in any case. -/
theorem Operation.AsksFor.makesOf {op : Operation} (hop : op.AsksFor .percentWord) {c : Cursor}
    {word rest : Text} (hrest : c.rest = word ++ rest) (hword : IsPercentWord word)
    (hstops : Stops isNameChar rest) :
    ∃ made c', op.run c = (.outcome made, c') ∧ c.Passes word c' ∧ c.MakesOf word made := by
  rcases keywords_cases word with ⟨d, rfl⟩ | rfl | hpast | hnone
  · obtain ⟨c', hrun, hpasses⟩ := hop.run_ok hrest (Lexes.directive hstops).lex?
    exact ⟨_, c', hrun, hpasses, .of_directive c d⟩
  · obtain ⟨c', hrun, hpasses⟩ := hop.run_ok hrest (Lexes.emptyRule hstops).lex?
    exact ⟨_, c', hrun, hpasses, .of_emptyWord c⟩
  · obtain ⟨keyword, hkeyword, hpre, hne⟩ := id hpast
    obtain ⟨c', hrun, hpasses⟩ :=
      hop.run_ok hrest (Lexes.extended hword hstops hkeyword hpre hne).lex?
    exact ⟨_, c', hrun, hpasses, .of_goesPast c hpast⟩
  · have hlex := lex?_unlisted hword hstops hnone
    rw [← hrest] at hlex
    have hmade := Cursor.MakesOf.of_unlisted c hnone
    rw [← Fault.error_unlisted hrest hword word.length] at hmade
    exact ⟨_, _, hop.run_eq hlex, Cursor.passes_skip hrest, hmade⟩

/-! ## 3. Tokens -/

/-- A name has no percent sign, so it is no keyword. -/
theorem IsName.head?_ne {name : Text} (h : IsName name) : name.head? ≠ some '%' := by
  obtain ⟨ch, more, rfl, hch, -⟩ := h
  intro hpercent
  cases hpercent
  exact absurd hch (by decide)

theorem head?_of_mem_keywords {keyword : Text} (h : keyword ∈ keywords) :
    keyword.head? = some '%' := by
  obtain ⟨name, rfl, -⟩ := isPercentWord_of_mem_keywords h
  rfl

/-- What the text of a token tells: a directive is its keyword and a whole word, and a name is no
keyword; one with a percent sign goes on past a keyword. -/
structure Token.Keyed (t : Token) (own rest : Text) : Prop where
  directive : ∀ d, t.kind = .directive d → own = d.keyword ∧ Longest IsPercentWord own (own ++ rest)
  ident : t.kind = .ident → own ∉ keywords ∧ (own.head? = some '%' → GoesPast own)

theorem Lexes.keyed {value : Lexeme} {word rest : Text} {p : Position} {t : Token}
    (h : Lexes value word rest) (ht : value.token? p = some t)
    (hkind : (∃ d, t.kind = .directive d) ∨ t.kind = .ident) :
    t.value = .text word ∧ t.position = p ∧ t.Keyed word rest := by
  cases h with
  | @name word _ hname _ _ =>
    cases ht
    refine ⟨rfl, rfl, fun d hd => (nomatch hd), fun _ => ⟨fun hmem => ?_, fun hhead => ?_⟩⟩
    · exact hname.head?_ne (head?_of_mem_keywords hmem)
    · exact absurd hhead hname.head?_ne
  | @directive d _ hstops =>
    cases ht
    refine ⟨rfl, rfl, fun d' hd => ?_, fun hd => (nomatch hd)⟩
    cases hd
    have hword := isPercentWord_of_mem_keywords (keyword_mem_keywords d)
    exact ⟨rfl, goesOnWith_isPercentWord.longest_iff_stops.2 ⟨hword, rest, rfl, hstops⟩⟩
  | @extended keyword word _ hword hstops hkeyword hpre hne =>
    cases ht
    have hpast : GoesPast word := ⟨keyword, hkeyword, hpre, hne⟩
    exact ⟨rfl, rfl, fun d hd => (nomatch hd), fun _ => ⟨hpast.not_mem, fun _ => hpast⟩⟩
  | emptyRule | comment => cases ht
  | _ =>
    cases ht
    rcases hkind with ⟨d, hd⟩ | hd <;> cases hd

/-- **The whole word decides.** Where a word after a percent sign stands at a cursor, the longest
such word is passed, and whether it is a keyword, goes on past one or does neither tells what is
lexed. So in every scan, also one that fails, a directive is exactly its keyword and a whole word,
and a name is no keyword; if it has a percent sign, it goes on past one. -/
theorem percentWord_exact :
    (∀ c : Cursor, (∃ v, IsPercentWord v ∧ v <+: c.rest) →
      ∃ word, Longest IsPercentWord word c.rest ∧
        ∀ op : Operation, op.AsksFor .percentWord →
          ∃ made c', op.run c = (.outcome made, c') ∧ c.Passes word c' ∧ c.MakesOf word made) ∧
    ∀ (lines : List Line), ∀ t ∈ (scanLines lines).tokens,
      (∃ d, t.kind = .directive d) ∨ t.kind = .ident →
        ∃ pre own rest, lines.flatMap Line.text = pre ++ (own ++ rest) ∧ t.value = .text own ∧
          t.position = (startOf lines).after pre ∧ t.Keyed own rest := by
  constructor
  · rintro c ⟨v, hv, hpre⟩
    obtain ⟨word, rest, hrest, hlong, hstops⟩ := goesOnWith_isPercentWord.exists_longest hv hpre
    exact ⟨word, hlong, fun op hop => hop.makesOf hrest hlong.mem hstops⟩
  · intro lines t ht hkind
    rw [tokens_scanLines] at ht
    obtain ⟨rest, hreads⟩ := exists_readsTo_decompose (lines.flatMap Line.text)
    obtain ⟨before, value, word, -, after, -, hbefore, hlexes, htoken⟩ := hreads.exists_lexeme ht
    obtain ⟨hvalue, hposition, hkeyed⟩ := hlexes.keyed htoken hkind
    exact ⟨_, word, after, hbefore.text_eq, hvalue, hposition, hkeyed⟩

/-- A word that goes on past a keyword, as a cursor reads it, and as the last token before a word
that begins with no keyword. -/
theorem percentWord_exact_precedence :
    (∃ word, Longest IsPercentWord word "%precedence x".toList ∧
      ∀ op : Operation, op.AsksFor .percentWord →
        ∃ made c', op.run (.start "%precedence x".toList 3) = (.outcome made, c') ∧
          (Cursor.start "%precedence x".toList 3).Passes word c' ∧
          (Cursor.start "%precedence x".toList 3).MakesOf word made) ∧
    Token.ofText .ident "%precs".toList ⟨1, 1⟩ ∈
      (scanLines [⟨"%precs %pre".toList, 1⟩]).tokens ∧
    ∃ pre own rest, "%precs %pre".toList = pre ++ (own ++ rest) ∧
      TokenValue.text "%precs".toList = .text own ∧
      (⟨1, 1⟩ : Position) = Position.after ⟨1, 1⟩ pre ∧
      (Token.ofText .ident "%precs".toList ⟨1, 1⟩).Keyed own rest := by
  have hprecs : Lexes (.extended "%precs".toList) "%precs".toList " %pre".toList :=
    .extended ⟨"precs".toList, rfl, 'p', "recs".toList, rfl, rfl, List.all_eq_true.1 rfl⟩ rfl
      (keyword_mem_keywords .prec) ⟨['s'], rfl⟩ (by decide)
  have hstuck : Stuck ("%pre".toList ++ []) _ :=
    .word ⟨"pre".toList, rfl, 'p', "re".toList, rfl, rfl, List.all_eq_true.1 rfl⟩ rfl (by decide)
  have hreads : ReadsTo _ "%precs %pre".toList "%pre".toList := .lexeme hprecs (.blank rfl .done)
  have htoken : Token.ofText .ident "%precs".toList ⟨1, 1⟩ ∈
      (scanLines [⟨"%precs %pre".toList, 1⟩]).tokens := by
    rw [tokens_scanLines]
    change _ ∈ Decomposition.tokensFrom ⟨1, 1⟩ (decompose "%precs %pre".toList).items
    rw [hreads.decompose hstuck]
    exact List.mem_cons_self
  refine ⟨percentWord_exact.1 (.start "%precedence x".toList 3) ⟨"%precedence".toList, ?_, ?_⟩,
    htoken, percentWord_exact.2 [⟨"%precs %pre".toList, 1⟩] _ htoken (.inr rfl)⟩
  · exact ⟨"precedence".toList, rfl, 'p', "recedence".toList, rfl, rfl, List.all_eq_true.1 rfl⟩
  · exact ⟨" x".toList, rfl⟩

end GrammarLexer
