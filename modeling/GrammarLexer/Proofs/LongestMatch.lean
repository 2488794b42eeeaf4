import GrammarLexer.Proofs.Tracking

/-!
# The longest match

A pattern prefers some ways to match to others, and takes the first that it can have. That need not
be the longest: a backslash between quotes is a character of its own, and it also escapes the quote
after it. The patterns of this library are written so that it is the longest all the same.

* `GoesOnWith.longest_iff_stops` -- the longest word, name or number is the one that goes on no
  further;
* `Pattern.FindsLongest` -- a pattern matches where a word of the language stands, and takes the
  longest there; `Pattern.findsLongest_tag`, `Pattern.findsLongest_character`,
  `Pattern.findsLongest_value`, `Pattern.findsLongest_location` -- the four patterns that do;
* `Cursor.Passes` -- where a cursor is after a text, with everything that it counts;
* `Cursor.takes_longest` -- **a cursor takes the longest tag, character literal or placeholder.**
-/

namespace GrammarLexer

open Text (Stops IsRun)

/-! ## 1. Words that go on -/

section

variable {language : Text → Prop} {word s : Text}

/-- The words of the language go on with every character of a class, and with no other. -/
structure GoesOnWith (cls : Char → Bool) (language : Text → Prop) : Prop where
  goesOn : ∀ {w ch}, language w → cls ch = true → language (w ++ [ch])
  only : ∀ {w ch more}, language w → language (w ++ ch :: more) → cls ch = true

namespace GoesOnWith

variable {cls : Char → Bool}

theorem append_run (h : GoesOnWith cls language) {run : Text} (hword : language word)
    (hrun : ∀ ch ∈ run, cls ch = true) : language (word ++ run) := by
  induction run generalizing word with
  | nil => rwa [List.append_nil]
  | cons ch run ih =>
    have hnext := h.goesOn hword (hrun ch List.mem_cons_self)
    have hall := ih hnext fun x hx => hrun x (List.mem_cons_of_mem ch hx)
    rwa [List.append_assoc, List.singleton_append] at hall

/-- **The longest beginning is the one that goes on no further.** -/
theorem longest_iff_stops (h : GoesOnWith cls language) :
    Longest language word s ↔ language word ∧ ∃ rest, s = word ++ rest ∧ Stops cls rest := by
  constructor
  · rintro ⟨hword, ⟨rest, rfl⟩, hlongest⟩
    refine ⟨hword, rest, rfl, ?_⟩
    cases rest with
    | nil => rfl
    | cons ch rest =>
      refine Text.stops_cons.2 (Bool.eq_false_iff.2 fun hch => ?_)
      -- one character more would be longer
      have hlonger := hlongest (word ++ [ch]) (h.goesOn hword hch) ⟨rest, by simp⟩
      simp only [List.length_append, List.length_singleton] at hlonger
      omega
  · rintro ⟨hword, rest, rfl, hstops⟩
    refine ⟨hword, List.prefix_append _ _, fun other hother hpre => Nat.le_of_not_lt fun hlt => ?_⟩
    -- a longer one goes on past the word, with the character that follows it
    obtain ⟨more, rfl⟩ :=
      List.prefix_of_prefix_length_le (List.prefix_append word rest) hpre (Nat.le_of_lt hlt)
    cases more with
    | nil => simp at hlt
    | cons ch more =>
      obtain ⟨after, rfl⟩ := (List.prefix_append_right_inj word).1 hpre
      rw [List.cons_append, Text.stops_cons, h.only hword hother] at hstops
      cases hstops

/-- Where a word of the language stands, there is a longest one. -/
theorem exists_longest (h : GoesOnWith cls language) (hword : language word) (hpre : word <+: s) :
    ∃ longest rest, s = longest ++ rest ∧ Longest language longest s ∧ Stops cls rest := by
  obtain ⟨rest, rfl⟩ := hpre
  have hrun := h.append_run hword fun _ => Text.of_mem_takeWhile (s := rest)
  have hsplit : word ++ rest = word ++ rest.takeWhile cls ++ rest.dropWhile cls := by
    rw [List.append_assoc, List.takeWhile_append_dropWhile]
  have hstops := Text.stops_dropWhile cls rest
  exact ⟨_, _, hsplit, h.longest_iff_stops.2 ⟨hrun, _, hsplit, hstops⟩, hstops⟩

end GoesOnWith

theorem goesOnWith_isRun (cls : Char → Bool) : GoesOnWith cls (IsRun cls) where
  goesOn {w ch} hrun hch := by
    refine ⟨by simp, fun x hx => ?_⟩
    rcases List.mem_append.1 hx with hx | hx
    · exact hrun.2 x hx
    · rwa [List.mem_singleton.1 hx]
  only _ hmore := hmore.2 _ (by simp)

theorem goesOnWith_isName : GoesOnWith isNameChar IsName where
  goesOn := by
    rintro _ ch ⟨x, more, rfl, hx, hmore⟩ hch
    refine ⟨x, more ++ [ch], rfl, hx, fun y hy => ?_⟩
    rcases List.mem_append.1 hy with hy | hy
    · exact hmore y hy
    · rwa [List.mem_singleton.1 hy]
  only _ hmore := hmore.isNameChar _ (by simp)

/-- A percent sign in front changes nothing. -/
theorem goesOnWith_isPercentWord : GoesOnWith isNameChar IsPercentWord where
  goesOn := by
    rintro _ ch ⟨name, rfl, hname⟩ hch
    exact ⟨name ++ [ch], rfl, goesOnWith_isName.goesOn hname hch⟩
  only := by
    rintro _ ch more ⟨name, rfl, hname⟩ ⟨name', heq, hname'⟩
    cases heq
    exact goesOnWith_isName.only hname hname'

end

/-! ## 2. Patterns that find the longest -/

/-- The pattern matches wherever a word of the language stands, and what it takes is the longest
there. -/
structure Pattern.FindsLongest (p : Pattern) (language : Text → Prop) : Prop where
  upcoming : ∀ {word rest}, language word → p.upcoming (word ++ rest) = true
  longest : ∀ {s m}, p.match? s = some m → Longest language (s.take m.width) s

namespace Pattern

variable {p : Pattern} {language : Text → Prop} {s : Text}

theorem FindsLongest.upcoming_iff (h : p.FindsLongest language) :
    p.upcoming s = true ↔ ∃ word, language word ∧ word <+: s := by
  constructor
  · intro hup
    obtain ⟨m, hm⟩ := Option.isSome_iff_exists.1 hup
    have hlong := h.longest hm
    exact ⟨_, hlong.mem, hlong.isPrefix⟩
  · rintro ⟨word, hword, rest, rfl⟩
    exact h.upcoming hword

/-- The match is the longest, in front of what is left. -/
theorem FindsLongest.exists_match? (h : p.FindsLongest language) (hup : p.upcoming s = true) :
    ∃ word rest groups, s = word ++ rest ∧ Longest language word s ∧
      p.match? s = some ⟨word.length, groups⟩ := by
  obtain ⟨m, hm⟩ := Option.isSome_iff_exists.1 hup
  have hwidth := width_le_length (mem_ways_of_match? hm)
  refine ⟨s.take m.width, s.drop m.width, m.groups, (List.take_append_drop _ _).symm,
    h.longest hm, ?_⟩
  rw [hm, List.length_take, Nat.min_eq_left hwidth]

theorem findsLongest_tag : Pattern.tag.FindsLongest IsTag where
  upcoming {word rest} hword := upcoming_of_match? (match?_tag_iff.2 ⟨word, rest, rfl, hword, rfl⟩)
  longest {s m} hm := by
    obtain ⟨raw, rest, rfl, hraw, rfl⟩ := match?_tag_iff.1 hm
    rw [List.take_left]
    refine ⟨hraw, List.prefix_append _ _, ?_⟩
    rintro other hother ⟨rest', hrest'⟩
    -- no tag is a proper beginning of another
    exact Nat.le_of_eq (congrArg List.length (hother.unique hraw hrest').1)

end Pattern

theorem IsCharacter.three_le_length {raw : Text} (h : IsCharacter raw) : 3 ≤ raw.length := by
  cases h with
  | numeric hdigits => simp
  | escaped => exact Nat.le_add_left 3 1
  | plain => exact Nat.le_refl 3

/-- **A literal that its follower does not change is the longest**: of two literals at one place one
is a lone backslash before a quote, which is the escape of that quote in the other. -/
theorem IsCharacter.longest {raw rest : Text} (h : IsCharacter raw)
    (hlone : raw = loneBackslash → rest.head? ≠ some '\'') :
    Longest IsCharacter raw (raw ++ rest) := by
  refine ⟨h, List.prefix_append _ _, ?_⟩
  rintro other hother ⟨rest', hrest'⟩
  by_cases hshort : other = loneBackslash ∧ rest'.head? = some '\''
  · rw [hshort.1]
    exact h.three_le_length
  · have hmatch := Pattern.match?_character_of_isCharacter h hlone
    rw [← hrest', Pattern.match?_character_of_isCharacter hother fun hother hquote =>
      hshort ⟨hother, hquote⟩] at hmatch
    exact Nat.le_of_eq (congrArg Match.width (Option.some.inj hmatch))

theorem Pattern.findsLongest_character : Pattern.character.FindsLongest IsCharacter where
  upcoming {word rest} hword := by
    obtain ⟨raw, after, heq, hraw, hlone⟩ := exists_settled_character hword rest
    rw [heq]
    exact upcoming_of_match? (match?_character_of_isCharacter hraw hlone)
  longest {s m} hm := by
    obtain ⟨raw, rest, rfl, hraw, hlone, rfl⟩ := match?_character_iff.1 hm
    rw [List.take_left]
    exact hraw.longest hlone

/-! ## 3. Placeholders of one form -/

/-- The text is a placeholder of this form. -/
def HasForm (form : ReferenceForm) (word : Text) : Prop := ∃ tag target, Spells word form tag target

theorem HasForm.isPlaceholder {form : ReferenceForm} {word : Text} (h : HasForm form word) :
    IsPlaceholder word :=
  ⟨form, h⟩

theorem HasForm.head? {form : ReferenceForm} {word : Text} (h : HasForm form word) (rest : Text) :
    (word ++ rest).head? = some form.sigil := by
  obtain ⟨tag, target, h⟩ := h
  cases h <;> rfl

/-- The sigil tells the form. -/
theorem HasForm.unique {form form' : ReferenceForm} {word word' s : Text} (h : HasForm form word)
    (h' : HasForm form' word') (hpre : word <+: s) (hpre' : word' <+: s) : form = form' := by
  obtain ⟨rest, rfl⟩ := hpre
  obtain ⟨rest', hrest'⟩ := hpre'
  have hsigil := h.head? rest
  rw [← hrest', h'.head? rest'] at hsigil
  cases form <;> cases form' <;> first | rfl | cases hsigil

/-- **The longest placeholder of one form is the longest of all**: the other form does not stand at
the same place. -/
theorem longest_hasForm_iff {form : ReferenceForm} {word s : Text} :
    Longest (HasForm form) word s ↔ HasForm form word ∧ Longest IsPlaceholder word s := by
  constructor
  · rintro ⟨hword, hpre, hlongest⟩
    refine ⟨hword, hword.isPlaceholder, hpre, ?_⟩
    rintro other ⟨form', hother⟩ hpre'
    obtain rfl := hword.unique hother hpre hpre'
    exact hlongest other hother hpre'
  · rintro ⟨hword, hlong⟩
    exact ⟨hword, hlong.isPrefix, fun other hother => hlong.longest other hother.isPlaceholder⟩

theorem Placeholder.WellFormed.hasForm {p : Placeholder} (h : p.WellFormed) :
    HasForm p.form p.text :=
  ⟨_, _, h.spells⟩

theorem Placeholder.WellFormed.longest_hasForm {p : Placeholder} {s : Text} (hp : p.WellFormed)
    (h : Longest IsPlaceholder p.text s) : Longest (HasForm p.form) p.text s :=
  longest_hasForm_iff.2 ⟨hp.hasForm, h⟩

/-- A tag follows the sigil exactly where a bracket does: no target begins with one. -/
theorem Placeholder.WellFormed.isSome_tag_iff {p : Placeholder} (h : p.WellFormed)
    (hform : p.form = .value) : p.tag.isSome = true ↔ ['$', '<'] <+: p.text := by
  obtain ⟨form, tag, digits⟩ := p
  cases hform
  cases tag with
  | some raw =>
    obtain ⟨⟨inner, rfl, -⟩, -⟩ := h.tag raw rfl
    exact ⟨fun _ => ⟨_, rfl⟩, fun _ => rfl⟩
  | none =>
    refine ⟨fun hsome => (nomatch hsome), fun hpre => ?_⟩
    obtain ⟨ch, rest, hword, hch⟩ := (Placeholder.spellsTarget_of_digits h.digits).head
    have hpre := (List.cons_prefix_cons.1 hpre).2
    change ['<'] <+: digits.getD ['$'] at hpre
    rw [hword] at hpre
    obtain ⟨rfl, -⟩ := List.cons_prefix_cons.1 hpre
    exact absurd hch (by decide)

namespace Pattern

/-- A pattern that matches only behind a sigil, and finds the longest placeholder there or none. -/
theorem findsLongest_of_cases {p : Pattern} {form : ReferenceForm}
    (hhead : ∀ {s m}, p.match? s = some m → s.head? = some form.sigil)
    (hcases : ∀ {s : Text}, s.head? = some form.sigil →
      (NoPlaceholder s ∧ p.match? s = none) ∨
        ∃ (q : Placeholder) (groups : List (Option Text)), q.WellFormed ∧ q.form = form ∧
          Longest IsPlaceholder q.text s ∧ p.match? s = some ⟨q.text.length, groups⟩) :
    p.FindsLongest (HasForm form) where
  upcoming {word rest} hword := by
    rcases hcases (hword.head? rest) with ⟨hnone, -⟩ | ⟨q, groups, -, -, -, hmatch⟩
    · exact absurd (List.prefix_append word rest) (hnone word hword.isPlaceholder)
    · exact upcoming_of_match? hmatch
  longest {s m} hm := by
    rcases hcases (hhead hm) with ⟨-, hnone⟩ | ⟨q, groups, hq, hform, hlong, hmatch⟩
    · rw [hnone] at hm
      cases hm
    · rw [hmatch] at hm
      cases hm
      rw [← List.prefix_iff_eq_take.1 hlong.isPrefix, ← hform]
      exact hq.longest_hasForm hlong

theorem findsLongest_value : valuePlaceholder.FindsLongest (HasForm .value) := by
  refine findsLongest_of_cases (fun hm => ?_) fun hhead => ?_
  · obtain ⟨t, -, rfl, -⟩ := exists_of_match?_char_seq hm
    rfl
  · refine (Placeholder.value_cases hhead).imp_right ?_
    rintro ⟨q, g, hq, hform, hlong, hmatch⟩
    exact ⟨q, _, hq, hform, hlong, hmatch⟩

theorem findsLongest_location : locationPlaceholder.FindsLongest (HasForm .location) := by
  refine findsLongest_of_cases (fun hm => ?_) fun hhead => ?_
  · obtain ⟨t, -, rfl, -⟩ := exists_of_match?_char_seq hm
    rfl
  · refine (Placeholder.location_cases hhead).imp_right ?_
    rintro ⟨q, g, hq, hform, -, hlong, hmatch⟩
    exact ⟨q, _, hq, hform, hlong, hmatch⟩

end Pattern

/-! ## 4. Cursors -/

namespace Cursor

theorem line_bump (c : Cursor) : c.bump.line = c.line + (c.rest.take 1).count '\n' := by
  unfold bump
  split
  case h_1 h => simp [h]
  case h_2 ch rest h =>
    dsimp only
    split
    case isTrue hch => simp [h, hch]
    case isFalse hch => simp [h, hch]

/-- The line moves by the newlines among what is passed. -/
theorem line_skip (c : Cursor) (n : Nat) :
    (c.skip n).line = c.line + (c.rest.take n).count '\n' := by
  induction n generalizing c with
  | zero => simp
  | succ n ih =>
    have htake : c.rest.take (n + 1) = c.rest.take 1 ++ (c.rest.drop 1).take n := by
      rw [Nat.add_comm, List.take_add]
    rw [skip, ih, line_bump, rest_bump, htake, List.count_append, Nat.add_assoc]

/-- `c.Passes word c'`: after the text `word`, which comes next at `c`, the cursor is `c'`. It has
counted the bytes and the newlines of that text, and if `c` has counted all that came before it,
then `c'` has too. -/
structure Passes (c : Cursor) (word : Text) (c' : Cursor) : Prop where
  rest_eq : c.rest = word ++ c'.rest
  index_eq : c'.index = c.index + word.byteSize
  line_eq : c'.line = c.line + word.count '\n'
  passed : ∀ {text first passed}, c.Passed text first passed →
    c'.Passed text first (passed ++ word)

theorem passes_skip {c : Cursor} {word rest : Text} (h : c.rest = word ++ rest) :
    c.Passes word (c.skip word.length) := by
  have htake : c.rest.take word.length = word := by rw [h, List.take_left]
  refine ⟨?_, ?_, ?_, fun hpassed => ?_⟩
  · rw [rest_skip, h, List.drop_left]
  · rw [index_skip, htake]
  · rw [line_skip, htake]
  · have hnext := hpassed.skip word.length
    rwa [htake] at hnext

end Cursor

namespace Operation

/-- What is read is given with its position, and the cursor has passed it. -/
theorem AsksFor.run_ok {form : Form} {op : Operation} (hop : op.AsksFor form) {c : Cursor}
    {word rest : Text} {value : Lexeme} (hrest : c.rest = word ++ rest)
    (h : form.lex? (word ++ rest) = some (.ok ⟨value, word.length⟩)) :
    ∃ c', op.run c = (.outcome (.lexed form value c.position), c') ∧ c.Passes word c' := by
  rw [← hrest] at h
  exact ⟨_, hop.run_eq h, Cursor.passes_skip hrest⟩

end Operation

/-! ## 5. The longest is taken -/

namespace Cursor

/-- Where a word of the language stands at the cursor, and only there, the form starts. The longest
such word is then lexed, and the cursor stands after it. -/
structure TakesLongest (c : Cursor) (form : Form) (language : Text → Prop)
    (value : Text → Lexeme) : Prop where
  starts : form.startsHere c.rest = true ↔ ∃ word, language word ∧ word <+: c.rest
  takes : form.startsHere c.rest = true → ∃ word, Longest language word c.rest ∧
    ∀ op : Operation, op.AsksFor form →
      ∃ c', op.run c = (.outcome (.lexed form (value word) c.position), c') ∧ c.Passes word c'

/-- Where a word of the language stands at the cursor, and only there, the pattern matches. The
longest such word is then taken, and is the first of the captures. -/
structure MatchesLongest (c : Cursor) (p : Pattern) (language : Text → Prop) : Prop where
  upcoming : p.upcoming c.rest = true ↔ ∃ word, language word ∧ word <+: c.rest
  takes : p.upcoming c.rest = true → ∃ word groups c', Longest language word c.rest ∧
    c.takeMatch p = (some (some word :: groups), c') ∧ c.Passes word c'

theorem matchesLongest (c : Cursor) {p : Pattern} {language : Text → Prop}
    (h : p.FindsLongest language) : c.MatchesLongest p language where
  upcoming := h.upcoming_iff
  takes hup := by
    obtain ⟨word, rest, groups, hrest, hlong, hmatch⟩ := h.exists_match? hup
    refine ⟨word, groups, _, hlong, ?_, passes_skip hrest⟩
    rw [takeMatch, hmatch]
    dsimp only [Match.captures]
    rw [hrest, List.take_left]

/-- A form that reads what a pattern matches. -/
theorem takesLongest (c : Cursor) {form : Form} {p : Pattern} {language : Text → Prop}
    {value : Text → Lexeme} (h : p.FindsLongest language)
    (hstarts : ∀ s, form.startsHere s = p.upcoming s)
    (hread : ∀ s, form.read s =
      (readPattern p s).map fun raw => ⟨value raw.value, raw.width⟩) :
    c.TakesLongest form language value where
  starts := by rw [hstarts, h.upcoming_iff]
  takes hup := by
    obtain ⟨word, rest, groups, hrest, hlong, hmatch⟩ := h.exists_match? (hstarts _ ▸ hup)
    refine ⟨word, hlong, fun op hop => hop.run_ok hrest (Form.lex?_eq_some_iff.2 ⟨?_, ?_⟩)⟩
    · rwa [← hrest]
    · rw [hrest] at hmatch
      rw [hread, readPattern_append hmatch]
      rfl

/-- The placeholder at the cursor is passed whole, also if its number is refused. -/
theorem passes_passPlaceholder {c : Cursor} {p : Placeholder} (hp : p.WellFormed)
    (hlong : Longest IsPlaceholder p.text c.rest) :
    Placeholder.lex? c.rest = some p.checked ∧ c.Passes p.text c.passPlaceholder := by
  have hlex := Placeholder.lex?_eq_some hp hlong
  obtain ⟨rest, hrest⟩ := hlong.isPrefix
  refine ⟨hlex, ?_⟩
  have hpasses := passes_skip hrest.symm
  unfold passPlaceholder
  rw [hlex]
  rcases p.checked_cases with hchecked | ⟨digits, hchecked⟩
  · rwa [hchecked]
  · rwa [hchecked]

/-- The captures of a placeholder for a value: all of it, its tag, the second dollar sign and the
digits. There is a tag exactly where a bracket follows the first dollar sign. -/
theorem captures_value {c : Cursor} {word : Text} (h : Longest (HasForm .value) word c.rest) :
    ∃ tag dollar digits, (c.takeMatch .valuePlaceholder).1 = some [some word, tag, dollar, digits] ∧
      (tag.isSome = true ↔ ['$', '<'] <+: word) := by
  obtain ⟨rest, hrest⟩ := h.isPrefix
  have hhead : c.rest.head? = some '$' := by
    rw [← hrest]
    exact h.mem.head? rest
  rcases Placeholder.value_cases hhead with ⟨hnone, -⟩ | ⟨p, g, hp, hform, hlong, hmatch⟩
  · exact absurd h.isPrefix (hnone word h.mem.isPlaceholder)
  · have hlongest := hp.longest_hasForm hlong
    rw [hform] at hlongest
    obtain rfl := h.unique hlongest
    refine ⟨p.tag, g, p.digits, ?_, hp.isSome_tag_iff hform⟩
    rw [takeMatch, hmatch]
    dsimp only [Match.captures]
    rw [← List.prefix_iff_eq_take.1 h.isPrefix]

/-- An escaped quote, and a quote between two, are literals of their own wherever they stand: the
first is not cut after its backslash, nor the second after its second quote. -/
theorem lexes_quote {c : Cursor} {raw : Text} (hraw : raw = "'\\''".toList ∨ raw = "'''".toList)
    (hpre : raw <+: c.rest) {op : Operation} (hop : op.AsksFor .charLiteral) :
    ∃ c', op.run c = (.outcome (.lexed .charLiteral (.character raw) c.position), c') ∧
      c.Passes raw c' := by
  obtain ⟨rest, hrest⟩ := hpre
  have hcharacter : IsCharacter raw ∧ raw ≠ loneBackslash := by
    rcases hraw with rfl | rfl
    · exact ⟨.escaped (by decide), by decide⟩
    · exact ⟨.plain (by decide), by decide⟩
  refine hop.run_ok hrest.symm (Lexes.lex?_character hcharacter.1 fun hlone => ?_)
  exact absurd hlone hcharacter.2

/-- **A cursor takes the longest tag, character literal or placeholder**, although the patterns
choose by preference and not by length: each starts exactly where a word of its language stands, and
then the longest is taken, neither less nor more. An escaped quote is never read as a lone backslash
before a quote, a quote between quotes is taken whole, and the tag of a placeholder is captured
exactly where a bracket follows the dollar sign. -/
theorem takes_longest (c : Cursor) :
    c.TakesLongest .tag IsTag .tag ∧
    c.TakesLongest .charLiteral IsCharacter .character ∧
    c.MatchesLongest .valuePlaceholder (HasForm .value) ∧
    c.MatchesLongest .locationPlaceholder (HasForm .location) ∧
    ((Placeholder.lex? c.rest).isSome = true ↔ ∃ form word, HasForm form word ∧ word <+: c.rest) ∧
    (∀ form word, Longest (HasForm form) word c.rest → ∃ p : Placeholder, p.form = form ∧
      p.text = word ∧ Placeholder.lex? c.rest = some p.checked ∧ c.Passes word c.passPlaceholder) ∧
    (∀ word, Longest (HasForm .value) word c.rest → ∃ tag dollar digits,
      (c.takeMatch .valuePlaceholder).1 = some [some word, tag, dollar, digits] ∧
      (tag.isSome = true ↔ ['$', '<'] <+: word)) ∧
    ∀ op : Operation, op.AsksFor .charLiteral →
      ∀ raw, raw = "'\\''".toList ∨ raw = "'''".toList → raw <+: c.rest →
        ∃ c', op.run c = (.outcome (.lexed .charLiteral (.character raw) c.position), c') ∧
          c.Passes raw c' := by
  refine ⟨c.takesLongest Pattern.findsLongest_tag (fun _ => rfl) fun _ => rfl,
    c.takesLongest Pattern.findsLongest_character (fun _ => rfl) fun _ => rfl,
    c.matchesLongest Pattern.findsLongest_value, c.matchesLongest Pattern.findsLongest_location,
    ?_, fun form word hlong => ?_, fun word => captures_value,
    fun op hop raw hraw hpre => lexes_quote hraw hpre hop⟩
  · rcases Placeholder.lex?_cases c.rest with ⟨hnone, hlex⟩ | ⟨p, hp, hlong, hlex⟩
    · rw [hlex]
      refine ⟨fun hsome => (nomatch hsome), fun ⟨form, word, hword, hpre⟩ => ?_⟩
      exact absurd hpre (hnone word hword.isPlaceholder)
    · rw [hlex]
      exact ⟨fun _ => ⟨p.form, p.text, hp.hasForm, hlong.isPrefix⟩, fun _ => rfl⟩
  · obtain ⟨hword, hlong⟩ := longest_hasForm_iff.1 hlong
    obtain ⟨p, hp, rfl⟩ := Placeholder.exists_wellFormed hword.isPlaceholder
    obtain ⟨hlex, hpasses⟩ := passes_passPlaceholder hp hlong
    exact ⟨p, hp.hasForm.unique hword (List.prefix_refl _) (List.prefix_refl _), rfl, hlex, hpasses⟩

/-- An escaped quote before another quote, and a placeholder with a tag and two digits. -/
theorem takes_longest_quote_and_tag :
    (∃ c', (Operation.read .charLiteral).run (.start "'\\'''".toList 1) =
        (.outcome (.lexed .charLiteral (.character "'\\''".toList) ⟨1, 1⟩), c') ∧
      (Cursor.start "'\\'''".toList 1).Passes "'\\''".toList c') ∧
    ∃ word groups c', Longest (HasForm .value) word "$<t>12;".toList ∧
      (Cursor.start "$<t>12;".toList 1).takeMatch .valuePlaceholder =
        (some (some word :: groups), c') ∧
      (Cursor.start "$<t>12;".toList 1).Passes word c' := by
  obtain ⟨-, -, -, -, -, -, -, hquote⟩ := takes_longest (.start "'\\'''".toList 1)
  obtain ⟨-, -, hvalue, -⟩ := takes_longest (.start "$<t>12;".toList 1)
  exact ⟨hquote _ (.inr rfl) _ (.inl rfl) ⟨_, rfl⟩, hvalue.takes rfl⟩

end Cursor

end GrammarLexer
