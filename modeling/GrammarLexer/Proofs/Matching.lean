import GrammarLexer.Form
import GrammarLexer.Proofs.Runs

/-!
# What the patterns match

A pattern is a search with preferences. For the patterns of this library the search comes to
something simpler: each names a language of texts, and its match is the one beginning of the text
that is in the language, or the longest if there are several.

* `Pattern.ways_seq_one`, `Pattern.ways_seq_many` -- a sequence that begins with a character, and
  one that begins with a run which nothing else gives back;
* `IsName`, `IsPercentWord`, `IsTag`, `IsCharacter` -- the languages;
* `Pattern.match?_name_iff`, `Pattern.match?_percentWord_iff`, `Pattern.match?_tag_iff`,
  `Pattern.match?_character_iff` -- the matches.
-/

namespace GrammarLexer

/-- The same match, found `n` characters further on. -/
def Match.later (n : Nat) (m : Match) : Match := ⟨n + m.width, m.groups⟩

namespace Pattern

/-! ## 1. Sequences -/

variable {cls : Char → Bool} {p q r : Pattern}

theorem ways_seq_one (cls : Char → Bool) (q : Pattern) (ch : Char) (s : Text) :
    (seq (one cls) q).ways (ch :: s) = if cls ch then (q.ways s).map (Match.later 1) else [] := by
  simp only [ways]
  by_cases h : cls ch = true
  · simp [h, Match.later]
  · simp [h]

/-- A run gives nothing back if what follows it cannot begin with a character of the run: the
sequence then matches after all of the run. -/
theorem ways_seq_many (h : ∀ ch s, cls ch = true → q.ways (ch :: s) = []) (s : Text) :
    (seq (many cls) q).ways s =
      (q.ways (s.dropWhile cls)).map (Match.later (s.takeWhile cls).length) := by
  have hshort : ∀ n ∈ (List.range (s.takeWhile cls).length).reverse, q.ways (s.drop n) = [] := by
    intro n hn
    have hn : n < (s.takeWhile cls).length := List.mem_range.1 (List.mem_reverse.1 hn)
    have hlen : n < s.length := Nat.lt_of_lt_of_le hn (List.takeWhile_prefix cls).length_le
    rw [List.drop_eq_getElem_cons hlen]
    refine h _ _ (Text.of_mem_takeWhile (s := s) ?_)
    rw [← (List.takeWhile_prefix cls).getElem hn]
    exact List.getElem_mem hn
  have hnil : ((List.range (s.takeWhile cls).length).reverse.flatMap fun n =>
      (q.ways (s.drop n)).map (Match.later n)) = [] := by
    refine List.flatMap_eq_nil_iff.2 fun n hn => ?_
    rw [hshort n hn, List.map_nil]
  have hways : (seq (many cls) q).ways s =
      (List.range ((s.takeWhile cls).length + 1)).reverse.flatMap fun n =>
        (q.ways (s.drop n)).map (Match.later n) := by
    simp only [ways, List.flatMap_map, List.nil_append]
    rfl
  rw [hways, List.range_succ, List.reverse_append, List.flatMap_append, hnil, List.append_nil]
  simp [Text.drop_length_takeWhile]

theorem ways_seq_assoc (p q r : Pattern) (s : Text) :
    (seq (seq p q) r).ways s = (seq p (seq q r)).ways s := by
  simp [ways, List.flatMap_assoc, List.flatMap_map, List.map_flatMap, Function.comp_def,
    List.drop_drop, Nat.add_assoc]

/-- A choice without groups, followed by something: first all ways of the one, then of the other. -/
theorem ways_seq_alt (hp : p.groupCount = 0) (hq : q.groupCount = 0) (s : Text) :
    (seq (alt p q) r).ways s = (seq p r).ways s ++ (seq q r).ways s := by
  simp [ways, hp, hq]

theorem match?_many (cls : Char → Bool) (s : Text) :
    (many cls).match? s = some ⟨(s.takeWhile cls).length, []⟩ := by
  simp [match?, ways, List.range_succ]

theorem match?_seq_one (cls : Char → Bool) (q : Pattern) (ch : Char) (s : Text) :
    (seq (one cls) q).match? (ch :: s) =
      if cls ch then (q.match? s).map (Match.later 1) else none := by
  simp only [match?, ways_seq_one]
  split
  · exact List.head?_map
  · rfl

/-- A run of at least one character: all of them, unless there is none. -/
theorem match?_many1 (cls : Char → Bool) (s : Text) :
    (many1 cls).match? s =
      if s.takeWhile cls = [] then none else some ⟨(s.takeWhile cls).length, []⟩ := by
  cases s with
  | nil => rfl
  | cons ch s =>
    rw [many1, match?_seq_one, match?_many]
    by_cases h : cls ch = true
    · simp [h, Match.later, Nat.add_comm]
    · simp [h]

theorem ways_char (c ch : Char) (s : Text) :
    (char c).ways (ch :: s) = if ch = c then [⟨1, []⟩] else [] := by
  simp [char, ways]

theorem match?_char (c : Char) (s : Text) :
    (char c).match? s = if s.head? = some c then some ⟨1, []⟩ else none := by
  cases s with
  | nil => rfl
  | cons ch s =>
    rw [match?, ways_char]
    by_cases h : ch = c <;> simp [h]

theorem match?_char_seq (c : Char) (q : Pattern) (s : Text) :
    (seq (char c) q).match? s =
      if s.head? = some c then (q.match? (s.drop 1)).map (Match.later 1) else none := by
  cases s with
  | nil => rfl
  | cons ch s =>
    rw [char, match?_seq_one]
    by_cases h : ch = c <;> simp [h]

@[simp] theorem match?_char_seq_cons (c : Char) (q : Pattern) (s : Text) :
    (seq (char c) q).match? (c :: s) = (q.match? s).map (Match.later 1) := by
  rw [match?_char_seq, List.head?_cons, if_pos rfl, List.drop_succ_cons, List.drop_zero]

theorem exists_of_match?_char_seq {c : Char} {q : Pattern} {s : Text} {m : Match}
    (h : (seq (char c) q).match? s = some m) : ∃ t n, s = c :: t ∧ q.match? t = some n := by
  rw [match?_char_seq] at h
  split at h
  case isTrue hhead =>
    obtain ⟨t, rfl⟩ := List.head?_eq_some_iff.1 hhead
    obtain ⟨n, hn, -⟩ := Option.map_eq_some_iff.1 h
    exact ⟨t, n, rfl, hn⟩
  case isFalse => cases h

end Pattern

/-! ## 2. Names -/

/-- A name: a character that names begin with, and characters that they go on with. -/
def IsName (name : Text) : Prop :=
  ∃ ch rest, name = ch :: rest ∧ isNameStart ch = true ∧ ∀ x ∈ rest, isNameChar x = true

/-- A percent sign and a name. -/
def IsPercentWord (word : Text) : Prop := ∃ name, word = '%' :: name ∧ IsName name

theorem isNameChar_of_isNameStart {ch : Char} (h : isNameStart ch = true) :
    isNameChar ch = true := by
  simp [isNameChar, h]

theorem IsName.isNameChar {name : Text} (h : IsName name) : ∀ ch ∈ name, isNameChar ch = true := by
  obtain ⟨ch, rest, rfl, hch, hrest⟩ := h
  intro x hx
  rcases List.mem_cons.1 hx with rfl | hx
  · exact isNameChar_of_isNameStart hch
  · exact hrest x hx

namespace Pattern

/-- **A name is matched to its end.** -/
theorem match?_name_iff {s : Text} {m : Match} :
    Pattern.name.match? s = some m ↔ ∃ name rest, s = name ++ rest ∧ IsName name ∧
      rest.Stops isNameChar ∧ m = ⟨name.length, []⟩ := by
  constructor
  · intro h
    cases s with
    | nil => cases h
    | cons ch s =>
      rw [Pattern.name, match?_seq_one, match?_many] at h
      split at h
      case isTrue hch =>
        cases h
        refine ⟨ch :: s.takeWhile isNameChar, s.dropWhile isNameChar, ?_,
          ⟨ch, _, rfl, hch, fun x hx => Text.of_mem_takeWhile hx⟩, Text.stops_dropWhile _ _, ?_⟩
        · rw [List.cons_append, List.takeWhile_append_dropWhile]
        · simp [Match.later, Nat.add_comm]
      case isFalse => cases h
  · intro h
    obtain ⟨_, rest, rfl, ⟨ch, more, rfl, hch, hmore⟩, hrest, rfl⟩ := h
    rw [Pattern.name, List.cons_append, match?_seq_one, if_pos hch, match?_many,
      Text.takeWhile_append_of_stops hmore hrest]
    simp [Match.later, Nat.add_comm]

/-- A name begins wherever a character stands that names begin with. -/
theorem upcoming_name (s : Text) : Pattern.name.upcoming s = s.head?.any isNameStart := by
  cases s with
  | nil => rfl
  | cons ch s =>
    rw [upcoming, Pattern.name, match?_seq_one, match?_many]
    by_cases h : isNameStart ch = true <;> simp [h]

/-- **A word after a percent sign is matched to its end.** -/
theorem match?_percentWord_iff {s : Text} {m : Match} :
    Pattern.percentWord.match? s = some m ↔ ∃ word rest, s = word ++ rest ∧ IsPercentWord word ∧
      rest.Stops isNameChar ∧ m = ⟨word.length, []⟩ := by
  constructor
  · intro h
    obtain ⟨t, n, rfl, hn⟩ := exists_of_match?_char_seq h
    obtain ⟨name, rest, rfl, hname, hrest, rfl⟩ := match?_name_iff.1 hn
    rw [percentWord, match?_char_seq_cons, hn] at h
    cases h
    refine ⟨'%' :: name, rest, rfl, ⟨name, rfl, hname⟩, hrest, ?_⟩
    simp [Match.later, Nat.add_comm]
  · intro h
    obtain ⟨_, rest, rfl, ⟨name, rfl, hname⟩, hrest, rfl⟩ := h
    rw [percentWord, List.cons_append, match?_char_seq_cons,
      match?_name_iff.2 ⟨name, rest, rfl, hname, hrest, rfl⟩]
    simp [Match.later, Nat.add_comm]

end Pattern

/-! ## 3. Tags -/

/-- A type tag: at least one character between brackets. -/
def IsTag (raw : Text) : Prop :=
  ∃ inner, raw = '<' :: (inner ++ ['>']) ∧ Text.IsRun isTagChar inner

theorem IsTag.ne_nil {raw : Text} (h : IsTag raw) : raw ≠ [] := by
  obtain ⟨inner, rfl, -⟩ := h
  exact List.cons_ne_nil _ _

/-- A closing bracket does not belong to the text between brackets. -/
theorem not_mem_of_isTagChar {inner : Text} (h : ∀ ch ∈ inner, isTagChar ch = true) :
    '>' ∉ inner := by
  intro hmem
  have := h '>' hmem
  revert this
  decide

/-- No tag is a proper beginning of another. -/
theorem IsTag.unique {a b r t : Text} (ha : IsTag a) (hb : IsTag b) (h : a ++ r = b ++ t) :
    a = b ∧ r = t := by
  obtain ⟨x, rfl, hx⟩ := ha
  obtain ⟨y, rfl, hy⟩ := hb
  have h' : x ++ ['>'] ++ r = y ++ ['>'] ++ t := by simpa using h
  obtain ⟨rfl, rfl⟩ := Text.endsFirst_unique (by simp)
    (Text.endsFirst_singleton.2 (not_mem_of_isTagChar hx.2))
    (Text.endsFirst_singleton.2 (not_mem_of_isTagChar hy.2)) h'
  exact ⟨rfl, rfl⟩

namespace Pattern

/-- A run of at least one character and a closing mark outside the class. -/
theorem ways_many1_char {cls : Char → Bool} {c : Char} (hc : cls c = false) (s : Text) :
    (seq (many1 cls) (char c)).ways s =
      if s.takeWhile cls ≠ [] ∧ (s.dropWhile cls).head? = some c then
        [⟨(s.takeWhile cls).length + 1, []⟩]
      else [] := by
  have hshort : ∀ ch s, cls ch = true → (char c).ways (ch :: s) = [] := by
    intro ch s hch
    rw [ways_char, if_neg]
    intro he
    subst he
    rw [hc] at hch
    cases hch
  rw [many1, ways_seq_assoc]
  cases s with
  | nil => rfl
  | cons ch s =>
    rw [ways_seq_one, ways_seq_many hshort]
    by_cases hch : cls ch = true
    · cases hd : s.dropWhile cls with
      | nil => simp [hch, hd, char, ways]
      | cons x t =>
        by_cases hx : x = c
        · simp [hch, hd, hx, ways_char, Match.later, Nat.add_comm, Nat.add_left_comm]
        · simp [hch, hd, hx, ways_char]
    · simp [hch]

/-- **A tag is matched in one way or not at all**: where a tag stands, and nowhere else. -/
theorem ways_tag (s : Text) :
    (∃ raw rest, s = raw ++ rest ∧ IsTag raw ∧ Pattern.tag.ways s = [⟨raw.length, []⟩]) ∨
      ((∀ raw, IsTag raw → ¬ raw <+: s) ∧ Pattern.tag.ways s = []) := by
  cases s with
  | nil =>
    refine .inr ⟨?_, rfl⟩
    intro raw h hpre
    obtain ⟨inner, rfl, -⟩ := h
    simp at hpre
  | cons ch s =>
    rw [Pattern.tag, char, ways_seq_one, ways_many1_char (by decide)]
    by_cases hch : ch = '<'
    · subst hch
      by_cases hin : s.takeWhile isTagChar ≠ [] ∧ (s.dropWhile isTagChar).head? = some '>'
      · obtain ⟨rest, hrest⟩ := List.head?_eq_some_iff.1 hin.2
        refine .inl ⟨'<' :: (s.takeWhile isTagChar ++ ['>']), rest, ?_,
          ⟨_, rfl, hin.1, fun x hx => Text.of_mem_takeWhile hx⟩, ?_⟩
        · have hs := List.takeWhile_append_dropWhile (p := isTagChar) (l := s)
          rw [hrest] at hs
          simp [hs]
        · simp [hin, Match.later]
          omega
      · refine .inr ⟨?_, by rw [if_neg hin]; rfl⟩
        intro raw h ⟨rest, hs⟩
        obtain ⟨inner, rfl, hne, hinner⟩ := h
        have hs : s = inner ++ '>' :: rest := by simpa using hs.symm
        have hstop : Text.Stops isTagChar ('>' :: rest) := Text.stops_cons.2 (by decide)
        refine hin ⟨?_, ?_⟩
        · rw [hs, Text.takeWhile_append_of_stops hinner hstop]
          exact hne
        · rw [← Text.drop_length_takeWhile, hs, Text.takeWhile_append_of_stops hinner hstop]
          simp
    · refine .inr ⟨?_, by simp [hch]⟩
      intro raw h hpre
      obtain ⟨inner, rfl, -⟩ := h
      obtain ⟨rfl, -⟩ := List.cons_prefix_cons.1 hpre
      exact hch rfl

theorem ways_tag_of_isTag {raw : Text} (h : IsTag raw) (rest : Text) :
    Pattern.tag.ways (raw ++ rest) = [⟨raw.length, []⟩] := by
  rcases ways_tag (raw ++ rest) with ⟨raw', rest', heq, htag, hways⟩ | ⟨hnone, -⟩
  · obtain ⟨rfl, -⟩ := h.unique htag heq
    exact hways
  · exact absurd (List.prefix_append raw rest) (hnone raw h)

/-- **A tag is matched from bracket to bracket.** -/
theorem match?_tag_iff {s : Text} {m : Match} :
    Pattern.tag.match? s = some m ↔ ∃ raw rest, s = raw ++ rest ∧ IsTag raw ∧
      m = ⟨raw.length, []⟩ := by
  constructor
  · intro h
    rcases ways_tag s with ⟨raw, rest, rfl, htag, hways⟩ | ⟨-, hways⟩
    · rw [match?, hways] at h
      cases h
      exact ⟨raw, rest, rfl, htag, rfl⟩
    · rw [match?, hways] at h
      cases h
  · intro h
    obtain ⟨raw, rest, rfl, htag, rfl⟩ := h
    rw [match?, ways_tag_of_isTag htag]
    rfl

end Pattern

/-! ## 4. Character literals -/

/-- A character literal: between quotes a backslash and digits, a backslash and a character, or a
character. A newline is none of these characters. -/
inductive IsCharacter : Text → Prop where
  | numeric {digits : Text} : Text.IsRun Char.isDigit digits →
      IsCharacter ('\'' :: '\\' :: (digits ++ ['\'']))
  | escaped {ch : Char} : ch ≠ '\n' → IsCharacter ['\'', '\\', ch, '\'']
  | plain {ch : Char} : ch ≠ '\n' → IsCharacter ['\'', ch, '\'']

/-- The literal of a lone backslash. -/
def loneBackslash : Text := ['\'', '\\', '\'']

namespace Pattern

/-- The three ways to go on after the opening quote, in order of preference. -/
theorem ways_characterBody (s : Text) :
    (seq characterBody (char '\'')).ways s =
      (seq (char '\\') (seq (many1 Char.isDigit) (char '\''))).ways s ++
        ((seq (char '\\') (seq (one notNewline) (char '\''))).ways s ++
          (seq (one notNewline) (char '\'')).ways s) := by
  rw [characterBody, ways_seq_alt rfl rfl, ways_seq_alt rfl rfl, ways_seq_assoc, ways_seq_assoc]

theorem match?_character (s : Text) :
    Pattern.character.match? ('\'' :: s) =
      (((seq (char '\\') (seq (many1 Char.isDigit) (char '\''))).match? s).or
        (((seq (char '\\') (seq (one notNewline) (char '\''))).match? s).or
          ((seq (one notNewline) (char '\'')).match? s))).map (Match.later 1) := by
  rw [character, match?_char_seq_cons, match?, ways_characterBody, List.head?_append,
    List.head?_append]
  rfl

theorem match?_digits_quote (s : Text) :
    (seq (many1 Char.isDigit) (char '\'')).match? s =
      if s.takeWhile Char.isDigit ≠ [] ∧ (s.dropWhile Char.isDigit).head? = some '\'' then
        some ⟨(s.takeWhile Char.isDigit).length + 1, []⟩
      else none := by
  rw [match?, ways_many1_char (by decide)]
  split <;> rfl

/-- **A character literal is matched to its closing quote.** Only a lone backslash has to look at
what follows: before a quote it is the escape of that quote. -/
theorem match?_character_of_isCharacter {raw rest : Text} (h : IsCharacter raw)
    (hlone : raw = loneBackslash → rest.head? ≠ some '\'') :
    Pattern.character.match? (raw ++ rest) = some ⟨raw.length, []⟩ := by
  cases h with
  | @numeric digits hdigits =>
    have hstop : Text.Stops Char.isDigit ('\'' :: rest) := Text.stops_cons.2 (by decide)
    have htake := Text.takeWhile_append_of_stops hdigits.2 hstop
    have hdrop := Text.drop_length_takeWhile Char.isDigit (digits ++ '\'' :: rest)
    rw [htake, List.drop_left] at hdrop
    simp only [List.cons_append, List.append_assoc, List.nil_append, match?_character,
      match?_char_seq, match?_digits_quote, List.head?_cons, List.drop_succ_cons, List.drop_zero,
      htake, ← hdrop]
    simp [hdigits.1, Match.later]
    omega
  | @escaped ch hch =>
    have hnl : notNewline ch = true := by simpa [notNewline] using hch
    by_cases hdigit : ch.isDigit = true
    · simp [match?_character, match?_char_seq, match?_digits_quote, hdigit, Match.later]
    · simp [match?_character, match?_char_seq, match?_digits_quote, match?_seq_one, match?_char,
        hdigit, hnl, Match.later]
  | @plain ch hch =>
    have hnl : notNewline ch = true := by simpa [notNewline] using hch
    by_cases hback : ch = '\\'
    · subst hback
      have hquote : rest.head? ≠ some '\'' := hlone rfl
      simp [match?_character, match?_char_seq, match?_digits_quote, match?_seq_one, match?_char,
        hnl, hquote, Match.later]
    · simp [match?_character, match?_char_seq, match?_seq_one, match?_char, hback, hnl,
        Match.later]

/-- Where a character literal stands, one stands that its follower does not change. -/
theorem exists_settled_character {raw : Text} (h : IsCharacter raw) (rest : Text) :
    ∃ raw' rest', raw ++ rest = raw' ++ rest' ∧ IsCharacter raw' ∧
      (raw' = loneBackslash → rest'.head? ≠ some '\'') := by
  by_cases hlone : raw = loneBackslash ∧ rest.head? = some '\''
  · obtain ⟨rfl, hhead⟩ := hlone
    cases rest with
    | nil => cases hhead
    | cons ch rest =>
      cases hhead
      -- the quote after the lone backslash is the escaped one
      exact ⟨['\'', '\\', '\'', '\''], rest, rfl, .escaped (by decide), fun h => by cases h⟩
  · exact ⟨raw, rest, rfl, h, fun hraw hhead => hlone ⟨hraw, hhead⟩⟩

theorem exists_of_match?_digits_quote {s : Text} {m : Match}
    (h : (seq (many1 Char.isDigit) (char '\'')).match? s = some m) :
    ∃ digits rest, s = digits ++ '\'' :: rest ∧ Text.IsRun Char.isDigit digits := by
  rw [match?_digits_quote] at h
  split at h
  case isTrue hs =>
    obtain ⟨rest, hrest⟩ := List.head?_eq_some_iff.1 hs.2
    refine ⟨s.takeWhile Char.isDigit, rest, ?_, hs.1, fun x hx => Text.of_mem_takeWhile hx⟩
    rw [← hrest, List.takeWhile_append_dropWhile]
  case isFalse => cases h

theorem exists_of_match?_one_quote {s : Text} {m : Match}
    (h : (seq (one notNewline) (char '\'')).match? s = some m) :
    ∃ ch rest, s = ch :: '\'' :: rest ∧ ch ≠ '\n' := by
  cases s with
  | nil => cases h
  | cons ch s =>
    rw [match?_seq_one, match?_char] at h
    split at h
    case isTrue hch =>
      split at h
      case isTrue hquote =>
        obtain ⟨rest, rfl⟩ := List.head?_eq_some_iff.1 hquote
        exact ⟨ch, rest, rfl, by simpa [notNewline] using hch⟩
      case isFalse => cases h
    case isFalse => cases h

/-- What is matched as a character literal begins with one. -/
theorem exists_isCharacter_of_match? {s : Text} {m : Match}
    (h : Pattern.character.match? s = some m) : ∃ raw rest, s = raw ++ rest ∧ IsCharacter raw := by
  obtain ⟨t, -, rfl, -⟩ := exists_of_match?_char_seq h
  rw [match?_character] at h
  obtain ⟨n, hn, -⟩ := Option.map_eq_some_iff.1 h
  rcases Option.or_eq_some_iff.1 hn with hn | ⟨-, hn⟩
  · obtain ⟨u, _, rfl, hu⟩ := exists_of_match?_char_seq hn
    obtain ⟨digits, rest, rfl, hdigits⟩ := exists_of_match?_digits_quote hu
    exact ⟨_, rest, by simp, .numeric hdigits⟩
  rcases Option.or_eq_some_iff.1 hn with hn | ⟨-, hn⟩
  · obtain ⟨u, _, rfl, hu⟩ := exists_of_match?_char_seq hn
    obtain ⟨ch, rest, rfl, hch⟩ := exists_of_match?_one_quote hu
    exact ⟨_, rest, rfl, .escaped hch⟩
  · obtain ⟨ch, rest, rfl, hch⟩ := exists_of_match?_one_quote hn
    exact ⟨_, rest, rfl, .plain hch⟩

/-- **A character literal and what follows it**: the match is the literal that its follower does not
change. -/
theorem match?_character_iff {s : Text} {m : Match} :
    Pattern.character.match? s = some m ↔ ∃ raw rest, s = raw ++ rest ∧ IsCharacter raw ∧
      (raw = loneBackslash → rest.head? ≠ some '\'') ∧ m = ⟨raw.length, []⟩ := by
  constructor
  · intro h
    obtain ⟨raw, rest, rfl, hraw⟩ := exists_isCharacter_of_match? h
    obtain ⟨raw', rest', heq, hraw', hlone⟩ := exists_settled_character hraw rest
    rw [heq] at h ⊢
    rw [match?_character_of_isCharacter hraw' hlone] at h
    cases h
    exact ⟨raw', rest', rfl, hraw', hlone, rfl⟩
  · intro h
    obtain ⟨raw, rest, rfl, hraw, hlone, rfl⟩ := h
    exact match?_character_of_isCharacter hraw hlone

end Pattern

end GrammarLexer
