import GrammarLexer.Delimited

/-!
# Runs and marks

What a reader takes from the start of a text is either a run of characters of one class, up to the
first character that is not in it, or everything up to the first occurrence of a mark.

* `Text.Stops` -- no character of a class goes on at the start of a text;
* `Text.IsRun` -- a text of at least one character, all of one class;
* `Text.wordValue?_eq_some_iff` -- the number that a run of digits holds;
* `Text.EndsFirst` -- a mark after a text occurs there for the first time;
* `Text.before?_eq_some_iff` -- **what stands before the first mark**, both ways;
* `Longest language word s` -- the word is the longest beginning of the text in the language;
* `readQuoted_eq_ok_iff`, `readComment_eq_ok_iff` -- what stands before the first mark, for the two
  delimited runs.

A text that a character cannot occur in is a beginning of `u ++ ch :: v` only if it is one of `u`
(`prefix_append_cons_iff`): that character shields what comes before it from what comes after it.
-/

namespace GrammarLexer

namespace Text

/-! ## 1. Runs -/

/-- The text does not go on with a character of the class. -/
def Stops (cls : Char → Bool) (rest : Text) : Prop := rest.head?.any cls = false

instance (cls : Char → Bool) (rest : Text) : Decidable (Stops cls rest) :=
  inferInstanceAs (Decidable (_ = _))

/-- At least one character, and all of the class. -/
def IsRun (cls : Char → Bool) (run : Text) : Prop := run ≠ [] ∧ ∀ ch ∈ run, cls ch = true

variable {cls : Char → Bool}

@[simp] theorem stops_cons {ch : Char} {rest : Text} : Stops cls (ch :: rest) ↔ cls ch = false :=
  Iff.rfl

theorem stops_dropWhile (cls : Char → Bool) (s : Text) : Stops cls (s.dropWhile cls) := by
  induction s with
  | nil => rfl
  | cons ch rest ih =>
    by_cases h : cls ch = true
    · rw [List.dropWhile_cons_of_pos h]
      exact ih
    · rw [List.dropWhile_cons_of_neg h]
      exact Bool.eq_false_iff.2 h

theorem takeWhile_eq_nil_of_stops {s : Text} (h : Stops cls s) : s.takeWhile cls = [] := by
  cases s with
  | nil => rfl
  | cons ch rest => exact List.takeWhile_cons_of_neg (Bool.eq_false_iff.1 (stops_cons.1 h))

/-- A run that stops is what is taken of the class, and what follows it is what is left. -/
theorem takeWhile_append_of_stops {run rest : Text} (hrun : ∀ ch ∈ run, cls ch = true)
    (hrest : Stops cls rest) : (run ++ rest).takeWhile cls = run := by
  rw [List.takeWhile_append_of_pos hrun, takeWhile_eq_nil_of_stops hrest, List.append_nil]

theorem of_mem_takeWhile {s : Text} {ch : Char} (h : ch ∈ s.takeWhile cls) : cls ch = true :=
  List.all_eq_true.1 List.all_takeWhile ch h

theorem drop_length_takeWhile (cls : Char → Bool) (s : Text) :
    s.drop (s.takeWhile cls).length = s.dropWhile cls := by
  have h := List.takeWhile_append_dropWhile (p := cls) (l := s)
  calc s.drop (s.takeWhile cls).length
      = (s.takeWhile cls ++ s.dropWhile cls).drop (s.takeWhile cls).length := by rw [h]
    _ = s.dropWhile cls := List.drop_left

/-- What is taken of a class is a beginning of the text, and a run of the class at the start of the
text is a beginning of that. -/
theorem prefix_takeWhile {run s : Text} (hrun : ∀ ch ∈ run, cls ch = true) (h : run <+: s) :
    run <+: s.takeWhile cls := by
  obtain ⟨rest, rfl⟩ := h
  rw [List.takeWhile_append_of_pos hrun]
  exact List.prefix_append _ _

/-! ## 2. Shields -/

/-- **A character shields what comes before it**: a text without it that is a beginning of the whole
is a beginning of the part before it. -/
theorem prefix_append_cons_iff {w u v : Text} {ch : Char} (hw : ch ∉ w) :
    w <+: u ++ ch :: v ↔ w <+: u := by
  constructor
  · intro h
    rcases List.prefix_or_prefix_of_prefix h (List.prefix_append u (ch :: v)) with h' | h'
    · exact h'
    · -- the whole of `u` begins `w`, and what follows it in `w` would be `ch`
      obtain ⟨w', rfl⟩ := h'
      have h'' : w' <+: ch :: v := (List.prefix_append_right_inj u).1 h
      cases w' with
      | nil => simp
      | cons x w' =>
        obtain ⟨rfl, -⟩ := List.cons_prefix_cons.1 h''
        simp at hw
  · intro h
    exact h.trans (List.prefix_append _ _)

/-! ## 3. Numbers -/

/-- Digits spell a number that is held if there is one and the number fits into 64 bits. -/
theorem wordValue?_eq_some_iff {digits : Text} {n : Nat} :
    wordValue? digits = some n ↔ digits ≠ [] ∧ digits.decimal < wordLimit ∧ n = digits.decimal := by
  unfold wordValue?
  split
  case isTrue hnil =>
    constructor
    · intro h
      cases h
    · intro h
      exact absurd hnil h.1
  case isFalse hne =>
    split
    case isTrue hfits =>
      constructor
      · intro h
        exact ⟨hne, hfits, (Option.some.inj h).symm⟩
      · intro h
        rw [h.2.2]
    case isFalse hlarge =>
      constructor
      · intro h
        cases h
      · intro h
        exact absurd h.2.1 hlarge

/-! ## 4. Marks -/

/-- In `inner` followed by the mark, the mark occurs at the end only. -/
def EndsFirst (mark inner : Text) : Prop := ∀ p q, inner ++ mark = p ++ mark ++ q → q = []

theorem endsFirst_nil (mark : Text) : EndsFirst mark [] := by
  intro p q h
  have hlen := congrArg List.length h
  simp only [List.nil_append, List.length_append] at hlen
  exact List.length_eq_zero_iff.1 (by omega)

/-- A character in front keeps the mark at the end, unless it makes an earlier one. -/
theorem endsFirst_cons {mark inner : Text} {ch : Char} :
    EndsFirst mark (ch :: inner) ↔ EndsFirst mark inner ∧ ¬ mark <+: ch :: inner ++ mark := by
  constructor
  · intro h
    refine ⟨fun p q hpq => h (ch :: p) q (by simp [hpq]), ?_⟩
    intro ⟨q, hq⟩
    have hnil := h [] q (by simp [hq])
    subst hnil
    have hlen := congrArg List.length hq
    simp only [List.append_nil, List.cons_append, List.length_cons, List.length_append] at hlen
    omega
  · intro ⟨hinner, hfirst⟩ p q hpq
    cases p with
    | nil => exact absurd ⟨q, by simpa using hpq.symm⟩ hfirst
    | cons x p =>
      simp only [List.cons_append, List.cons.injEq] at hpq
      exact hinner p q hpq.2

/-- A mark of one character ends a text first if the text does not have it. -/
theorem endsFirst_singleton {ch : Char} {inner : Text} : EndsFirst [ch] inner ↔ ch ∉ inner := by
  induction inner with
  | nil => simp [endsFirst_nil]
  | cons x inner ih =>
    rw [endsFirst_cons, ih]
    simp [and_comm]

theorem before?_of_endsFirst {mark p : Text} (hm : mark ≠ []) (h : EndsFirst mark p) (rest : Text) :
    before? mark (p ++ mark ++ rest) = some p := by
  induction p with
  | nil =>
    obtain ⟨m, mark', rfl⟩ := List.exists_cons_of_ne_nil hm
    simp [before?]
  | cons ch p ih =>
    obtain ⟨hp, hfirst⟩ := endsFirst_cons.1 h
    -- an occurrence at the very start would lie before the one at the end
    have hstart : ¬ mark.isPrefixOf (ch :: (p ++ mark ++ rest)) = true := by
      intro hpre
      refine hfirst (List.prefix_of_prefix_length_le (List.isPrefixOf_iff_prefix.1 hpre)
        ⟨rest, by simp⟩ ?_)
      simp only [List.cons_append, List.length_cons, List.length_append]
      omega
    rw [List.cons_append, List.cons_append, before?, if_neg hstart, ih hp]
    rfl

theorem endsFirst_of_before? {mark s p : Text} (h : before? mark s = some p) :
    EndsFirst mark p := by
  induction s generalizing p with
  | nil =>
    simp only [before?] at h
    split at h
    · cases h
      exact endsFirst_nil mark
    · cases h
  | cons ch rest ih =>
    have hpre := before?_append_prefix h
    simp only [before?] at h
    split at h
    · cases h
      exact endsFirst_nil mark
    case isFalse hfirst =>
      obtain ⟨q, hq, rfl⟩ := Option.map_eq_some_iff.1 h
      refine endsFirst_cons.2 ⟨ih hq, fun hmark => hfirst ?_⟩
      exact List.isPrefixOf_iff_prefix.2 (hmark.trans hpre)

/-- **What stands before the first mark**: a text that the mark follows and ends first. -/
theorem before?_eq_some_iff {mark s p : Text} (hm : mark ≠ []) :
    before? mark s = some p ↔ EndsFirst mark p ∧ ∃ rest, s = p ++ mark ++ rest := by
  constructor
  · intro h
    obtain ⟨rest, hrest⟩ := before?_append_prefix h
    exact ⟨endsFirst_of_before? h, rest, hrest.symm⟩
  · intro h
    obtain ⟨hp, rest, rfl⟩ := h
    exact before?_of_endsFirst hm hp rest

/-- A text is divided by the first mark in one way only. -/
theorem endsFirst_unique {mark p q r t : Text} (hm : mark ≠ []) (hp : EndsFirst mark p)
    (hq : EndsFirst mark q) (h : p ++ mark ++ r = q ++ mark ++ t) : p = q ∧ r = t := by
  have hpq := before?_of_endsFirst hm hp r
  rw [h, before?_of_endsFirst hm hq t] at hpq
  cases hpq
  exact ⟨rfl, List.append_cancel_left h⟩

end Text

/-! ## 5. Longest beginnings -/

/-- `Longest language word s`: among the beginnings of the text that are in the language, `word` is
the longest. -/
structure Longest (language : Text → Prop) (word s : Text) : Prop where
  mem : language word
  isPrefix : word <+: s
  longest : ∀ other, language other → other <+: s → other.length ≤ word.length

namespace Longest

variable {language : Text → Prop} {word s : Text}

/-- There is one longest beginning at most. -/
theorem unique {word' : Text} (h : Longest language word s) (h' : Longest language word' s) :
    word = word' := by
  have hlength : word.length = word'.length :=
    Nat.le_antisymm (h'.longest word h.mem h.isPrefix) (h.longest word' h'.mem h'.isPrefix)
  exact (List.prefix_of_prefix_length_le h.isPrefix h'.isPrefix (Nat.le_of_eq hlength)).eq_of_length
    hlength

/-- A character that no word of the language has shields the longest one from what comes after. -/
theorem change {ch : Char} {u v : Text} (hfree : ∀ {w}, language w → ch ∉ w)
    (h : Longest language word (u ++ ch :: v)) (v' : Text) :
    Longest language word (u ++ ch :: v') := by
  have hshield : ∀ {other}, language other →
      (other <+: u ++ ch :: v' ↔ other <+: u ++ ch :: v) := by
    intro other hother
    rw [Text.prefix_append_cons_iff (hfree hother), Text.prefix_append_cons_iff (hfree hother)]
  exact ⟨h.mem, (hshield h.mem).2 h.isPrefix,
    fun other hother hpre => h.longest other hother ((hshield hother).1 hpre)⟩

end Longest

/-! ## 6. Delimited runs -/

/-- **A quoted run** closes at the very next mark. -/
theorem readQuoted_eq_ok_iff {mark : Char} {s inner : Text} :
    readQuoted mark s = .ok inner ↔ mark ∉ inner ∧ ∃ rest, s = quotedRun mark inner ++ rest := by
  cases s with
  | nil => simp [readQuoted, quotedRun]
  | cons ch rest =>
    by_cases hch : ch = mark
    · subst hch
      have hbefore : Text.before? [ch] rest = some inner ↔ _ :=
        Text.before?_eq_some_iff (List.cons_ne_nil ch [])
      rw [Text.endsFirst_singleton] at hbefore
      have hread : readQuoted ch (ch :: rest) = .ok inner ↔ Text.before? [ch] rest = some inner := by
        simp only [readQuoted, if_pos]
        cases Text.before? [ch] rest <;> simp
      rw [hread, hbefore]
      simp [quotedRun]
    · simp [readQuoted, quotedRun, hch]

theorem commentOpening_begins (inner rest : Text) : commentOpening <+: commentRun inner ++ rest := by
  simp [commentRun]

/-- Two bytes cover the opening mark of a comment. -/
theorem covering_commentOpening (s : Text) : (commentOpening ++ s).covering 2 = 2 := by
  have h₁ : '/'.utf8Size = 1 := by decide
  have h₂ : '*'.utf8Size = 1 := by decide
  simp [commentOpening, Text.covering, h₁, h₂]

/-- **A comment** closes at the first closing mark after its opening mark. -/
theorem readComment_eq_ok_iff {s : Text} {taken : Taken Text} (h : commentOpening <+: s) :
    readComment s = .ok taken ↔
      Text.EndsFirst commentClosing taken.value ∧ taken.width = (commentRun taken.value).length ∧
        ∃ rest, s = commentRun taken.value ++ rest := by
  obtain ⟨t, rfl⟩ := h
  have hbefore : ∀ p, Text.before? commentClosing t = some p ↔ _ :=
    fun p => Text.before?_eq_some_iff (by decide)
  have hdrop : (commentOpening ++ t).drop 2 = t := rfl
  simp only [readComment, covering_commentOpening, hdrop]
  constructor
  · intro hread
    split at hread
    case h_1 inner hinner =>
      cases hread
      obtain ⟨hfirst, rest, hrest⟩ := (hbefore inner).1 hinner
      refine ⟨hfirst, ?_, rest, ?_⟩
      · simp [commentRun, commentOpening, commentClosing]
        omega
      · simp [commentRun, hrest]
    case h_2 => cases hread
  · intro ⟨hfirst, hwidth, rest, hrest⟩
    have ht : t = taken.value ++ commentClosing ++ rest := by
      simpa [commentRun] using hrest
    rw [(hbefore taken.value).2 ⟨hfirst, rest, ht⟩]
    obtain ⟨value, width⟩ := taken
    simp only at hwidth
    subst hwidth
    simp [commentRun, commentOpening, commentClosing]
    omega

end GrammarLexer
