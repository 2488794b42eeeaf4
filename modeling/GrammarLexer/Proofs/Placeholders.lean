import GrammarLexer.Proofs.Matching

/-!
# Placeholders

The placeholders of action code as a language of texts, and the search for them: wherever one can
stand, the longest does.

* `Spells` -- what a text spells as a placeholder: its form, its tag and its target;
* `Placeholder.lex?_cases` -- **the reader finds the longest**, or there is none;
* `ReferenceScan` -- the placeholders of a text from left to right, quoted runs and comments
  skipped, with the bytes that each takes;
* `ReferenceScan.unique` -- a text has one such scan at most.

A text spells a placeholder in one way only (`Spells.unique`).
-/

namespace GrammarLexer

/-! ## 1. What a placeholder spells -/

/-- What follows the sigil and the tag: a dollar sign, or the digits of a number. -/
inductive SpellsTarget : Text → ReferenceTarget → Prop where
  | whole : SpellsTarget ['$'] .whole
  | index {digits : Text} : Text.IsRun Char.isDigit digits →
      SpellsTarget digits (.index (Text.decimal digits))

/-- `Spells word form tag target`: the text is a placeholder of this form, tag and target. -/
inductive Spells : Text → ReferenceForm → Option Text → ReferenceTarget → Prop where
  | value {word : Text} {target : ReferenceTarget} : SpellsTarget word target →
      Spells ('$' :: word) .value none target
  | tagged {raw word : Text} {target : ReferenceTarget} : IsTag raw → SpellsTarget word target →
      Spells ('$' :: (raw ++ word)) .value (some raw) target
  | location {word : Text} {target : ReferenceTarget} : SpellsTarget word target →
      Spells ('@' :: word) .location none target

/-- The text is a placeholder. -/
def IsPlaceholder (word : Text) : Prop := ∃ form tag target, Spells word form tag target

/-- No placeholder stands at the start of the text. -/
def NoPlaceholder (s : Text) : Prop := ∀ word, IsPlaceholder word → ¬ word <+: s

/-- A target is a dollar sign, or begins with a digit. -/
theorem SpellsTarget.head {word : Text} {target : ReferenceTarget} (h : SpellsTarget word target) :
    ∃ ch rest, word = ch :: rest ∧ (ch = '$' ∨ ch.isDigit = true) := by
  cases h with
  | whole => exact ⟨'$', [], rfl, .inl rfl⟩
  | index hrun =>
    obtain ⟨ch, rest, rfl⟩ := List.exists_cons_of_ne_nil hrun.1
    exact ⟨ch, rest, rfl, .inr (hrun.2 ch List.mem_cons_self)⟩

/-- So no tag begins like a target. -/
theorem SpellsTarget.not_prefix_tag {word raw s : Text} {target : ReferenceTarget}
    (h : SpellsTarget word target) (hraw : IsTag raw) : ¬ word <+: raw ++ s := by
  obtain ⟨ch, rest, rfl, hch⟩ := h.head
  obtain ⟨inner, rfl, -⟩ := hraw
  intro hpre
  obtain ⟨rfl, -⟩ := List.cons_prefix_cons.1 hpre
  revert hch
  decide

theorem SpellsTarget.unique {word : Text} {t t' : ReferenceTarget} (h : SpellsTarget word t)
    (h' : SpellsTarget word t') : t = t' := by
  have hdollar : ¬ Text.IsRun Char.isDigit ['$'] := by
    intro hrun
    exact absurd (hrun.2 '$' List.mem_cons_self) (by decide)
  cases h with
  | whole =>
    cases h' with
    | whole => rfl
    | index hrun => exact absurd hrun hdollar
  | index hrun =>
    cases h' with
    | whole => exact absurd hrun hdollar
    | index => rfl

theorem Spells.isTag {word raw : Text} {form : ReferenceForm} {target : ReferenceTarget}
    (h : Spells word form (some raw) target) : IsTag raw := by
  cases h with
  | tagged hraw _ => exact hraw

/-- **A text spells a placeholder in one way only.** -/
theorem Spells.unique {word : Text} {form form' : ReferenceForm} {tag tag' : Option Text}
    {target target' : ReferenceTarget} (h : Spells word form tag target)
    (h' : Spells word form' tag' target') : form = form' ∧ tag = tag' ∧ target = target' := by
  cases h with
  | @value w _ hw =>
    generalize hword : '$' :: w = word at h'
    cases h' with
    | value hw' =>
      cases hword
      exact ⟨rfl, rfl, hw.unique hw'⟩
    | tagged hraw hw' =>
      cases hword
      exact absurd (List.prefix_refl _) (hw.not_prefix_tag hraw)
    | location => cases hword
  | @tagged raw w _ hraw hw =>
    generalize hword : '$' :: (raw ++ w) = word at h'
    cases h' with
    | value hw' =>
      cases hword
      exact absurd (List.prefix_refl _) (hw'.not_prefix_tag hraw)
    | tagged hraw' hw' =>
      obtain ⟨rfl, rfl⟩ := hraw.unique hraw' (List.cons.inj hword).2
      exact ⟨rfl, rfl, hw.unique hw'⟩
    | location => cases hword
  | @location w _ hw =>
    generalize hword : '@' :: w = word at h'
    cases h' with
    | value => cases hword
    | tagged => cases hword
    | location hw' =>
      cases hword
      exact ⟨rfl, rfl, hw.unique hw'⟩

/-! ## 2. The characters of a placeholder -/

/-- The characters that occur in placeholders. -/
def isPlaceholderChar (ch : Char) : Bool :=
  ch == '$' || ch == '@' || ch == '<' || ch == '>' || isTagChar ch

theorem isPlaceholderChar_of_isTagChar {ch : Char} (h : isTagChar ch = true) :
    isPlaceholderChar ch = true := by
  simp [isPlaceholderChar, h]

theorem isTagChar_of_isDigit {ch : Char} (h : ch.isDigit = true) : isTagChar ch = true := by
  simp [isTagChar, Char.isAlphanum, h]

theorem SpellsTarget.isPlaceholderChar {word : Text} {target : ReferenceTarget}
    (h : SpellsTarget word target) : ∀ ch ∈ word, isPlaceholderChar ch = true := by
  cases h with
  | whole =>
    intro ch hch
    rw [List.mem_singleton.1 hch]
    rfl
  | index hrun =>
    intro ch hch
    exact isPlaceholderChar_of_isTagChar (isTagChar_of_isDigit (hrun.2 ch hch))

theorem IsTag.isPlaceholderChar {raw : Text} (h : IsTag raw) :
    ∀ ch ∈ raw, isPlaceholderChar ch = true := by
  obtain ⟨inner, rfl, hinner⟩ := h
  intro ch hch
  simp only [List.mem_cons, List.mem_append, List.not_mem_nil, or_false] at hch
  rcases hch with rfl | hch | rfl
  · decide
  · exact isPlaceholderChar_of_isTagChar (hinner.2 ch hch)
  · decide

theorem IsPlaceholder.isPlaceholderChar {word : Text} (h : IsPlaceholder word) :
    ∀ ch ∈ word, isPlaceholderChar ch = true := by
  obtain ⟨form, tag, target, h⟩ := h
  intro ch hch
  cases h with
  | value hw =>
    rcases List.mem_cons.1 hch with rfl | hch
    · decide
    · exact hw.isPlaceholderChar ch hch
  | tagged hraw hw =>
    rcases List.mem_cons.1 hch with rfl | hch
    · decide
    · rcases List.mem_append.1 hch with hch | hch
      · exact hraw.isPlaceholderChar ch hch
      · exact hw.isPlaceholderChar ch hch
  | location hw =>
    rcases List.mem_cons.1 hch with rfl | hch
    · decide
    · exact hw.isPlaceholderChar ch hch

/-- A placeholder begins with one of the two sigils. -/
theorem IsPlaceholder.head {word : Text} (h : IsPlaceholder word) :
    ∃ ch rest, word = ch :: rest ∧ (ch = '$' ∨ ch = '@') := by
  obtain ⟨form, tag, target, h⟩ := h
  cases h with
  | value => exact ⟨_, _, rfl, .inl rfl⟩
  | tagged => exact ⟨_, _, rfl, .inl rfl⟩
  | location => exact ⟨_, _, rfl, .inr rfl⟩

theorem IsPlaceholder.ne_nil {word : Text} (h : IsPlaceholder word) : word ≠ [] := by
  obtain ⟨ch, rest, rfl, -⟩ := h.head
  exact List.cons_ne_nil _ _

theorem noPlaceholder_cons {ch : Char} (s : Text) (h₁ : ch ≠ '$') (h₂ : ch ≠ '@') :
    NoPlaceholder (ch :: s) := by
  intro word hword hpre
  obtain ⟨x, rest, rfl, hx⟩ := hword.head
  obtain ⟨rfl, -⟩ := List.cons_prefix_cons.1 hpre
  rcases hx with rfl | rfl
  · exact h₁ rfl
  · exact h₂ rfl

/-! ## 3. The reader finds the longest -/

namespace Pattern

theorem match?_target (s : Text) :
    target.match? s =
      if s.head? = some '$' then some ⟨1, [some ['$'], none]⟩
      else if s.takeWhile Char.isDigit = [] then none
      else some ⟨(s.takeWhile Char.isDigit).length, [none, some (s.takeWhile Char.isDigit)]⟩ := by
  have hchar := match?_char '$' s
  have hdigits := match?_many1 Char.isDigit s
  have htake : s.take (s.takeWhile Char.isDigit).length = s.takeWhile Char.isDigit :=
    List.prefix_iff_eq_take.1 (List.takeWhile_prefix _) |>.symm
  simp only [match?] at hchar hdigits
  simp only [match?, target, ways, groupCount, List.head?_append, List.head?_map, hchar, hdigits]
  by_cases hdollar : s.head? = some '$'
  · obtain ⟨t, rfl⟩ := List.head?_eq_some_iff.1 hdollar
    simp [groupCount, char, many1]
  · by_cases hnone : s.takeWhile Char.isDigit = []
    · simp [hdollar, hnone]
    · simp [hdollar, hnone, groupCount, char, htake]

/-- Nothing that a target begins with, no target. -/
theorem ways_target_tag {raw : Text} (h : IsTag raw) (s : Text) : target.ways (raw ++ s) = [] := by
  obtain ⟨inner, rfl, -⟩ := h
  rfl

/-- A tag is taken if there is one; what comes before a target is then that tag. -/
theorem match?_valuePlaceholder_tag {raw : Text} (h : IsTag raw) (s : Text) :
    valuePlaceholder.match? ('$' :: (raw ++ s)) =
      (target.match? s).map fun n => ⟨1 + (raw.length + n.width), some raw :: n.groups⟩ := by
  have hways : (seq (optional (group tag)) target).ways (raw ++ s) =
      (target.ways s).map fun n => ⟨raw.length + n.width, some raw :: n.groups⟩ := by
    simp [ways, optional, ways_tag_of_isTag h, ways_target_tag h, groupCount]
  rw [valuePlaceholder, match?_char_seq_cons, match?, hways, List.head?_map, Option.map_map]
  rfl

theorem match?_valuePlaceholder_noTag {s : Text} (h : Pattern.tag.ways s = []) :
    valuePlaceholder.match? ('$' :: s) =
      (target.match? s).map fun n => ⟨1 + n.width, none :: n.groups⟩ := by
  have hways : (seq (optional (group tag)) target).ways s =
      (target.ways s).map fun n => ⟨n.width, none :: n.groups⟩ := by
    simp [ways, optional, h, groupCount, show tag.groupCount = 0 from rfl]
  rw [valuePlaceholder, match?_char_seq_cons, match?, hways, List.head?_map, Option.map_map]
  rfl

/-- **The target that is matched is the longest**, or there is none. -/
theorem target_cases (s : Text) :
    ((∀ word t, SpellsTarget word t → ¬ word <+: s) ∧ target.match? s = none) ∨
      ∃ (digits : Option Text) (g : Option Text),
        (∀ d ∈ digits, Text.IsRun Char.isDigit d) ∧ digits.getD ['$'] <+: s ∧
        (∀ word t, SpellsTarget word t → word <+: s → word.length ≤ (digits.getD ['$']).length) ∧
        target.match? s = some ⟨(digits.getD ['$']).length, [g, digits]⟩ := by
  rw [match?_target]
  by_cases hdollar : s.head? = some '$'
  · obtain ⟨t, rfl⟩ := List.head?_eq_some_iff.1 hdollar
    refine .inr ⟨none, some ['$'], by simp, by simp, ?_, by simp⟩
    intro word t' hword hpre
    cases hword with
    | whole => simp
    | index hrun =>
      obtain ⟨ch, rest, rfl⟩ := List.exists_cons_of_ne_nil hrun.1
      obtain ⟨rfl, -⟩ := List.cons_prefix_cons.1 hpre
      exact absurd (hrun.2 '$' List.mem_cons_self) (by decide)
  · have hwhole : ¬ ['$'] <+: s := by
      intro h
      obtain ⟨rest, rfl⟩ := h
      exact hdollar rfl
    rw [if_neg hdollar]
    by_cases hnone : s.takeWhile Char.isDigit = []
    · refine .inl ⟨?_, by rw [if_pos hnone]⟩
      intro word t hword hpre
      cases hword with
      | whole => exact hwhole hpre
      | index hrun =>
        have := Text.prefix_takeWhile hrun.2 hpre
        rw [hnone] at this
        exact hrun.1 (List.prefix_nil.1 this)
    · refine .inr ⟨some (s.takeWhile Char.isDigit), none, ?_, List.takeWhile_prefix _, ?_,
        by rw [if_neg hnone]; rfl⟩
      · intro d hd
        cases hd
        exact ⟨hnone, fun ch hch => Text.of_mem_takeWhile hch⟩
      · intro word t hword hpre
        cases hword with
        | whole => exact absurd hpre hwhole
        | index hrun => exact (Text.prefix_takeWhile hrun.2 hpre).length_le

end Pattern

/-- The parts of a placeholder have the shape that the patterns give them. -/
structure Placeholder.WellFormed (p : Placeholder) : Prop where
  tag : ∀ raw ∈ p.tag, IsTag raw ∧ p.form = .value
  digits : ∀ d ∈ p.digits, Text.IsRun Char.isDigit d

namespace Placeholder

theorem spellsTarget_of_digits {p : Placeholder} (h : ∀ d ∈ p.digits, Text.IsRun Char.isDigit d) :
    SpellsTarget (p.digits.getD ['$']) p.target := by
  rcases p with ⟨form, tag, _ | d⟩
  · exact .whole
  · exact .index (h d rfl)

theorem WellFormed.spells {p : Placeholder} (h : p.WellFormed) :
    Spells p.text p.form p.tag p.target := by
  have htarget := spellsTarget_of_digits h.digits
  rcases p with ⟨form, _ | raw, digits⟩
  · cases form with
    | value => exact .value htarget
    | location => exact .location htarget
  · obtain ⟨htag, hform⟩ := h.tag raw rfl
    cases hform
    exact .tagged htag htarget

/-- What the target decides. Here `form` and `tag` are settled, every placeholder at the start of
the text goes on with a target, and what is found is the longest one. -/
theorem cases_of_target (form : ReferenceForm) (tag : Option Text) (groups : List (Option Text))
    {s u : Text} (hs : s = form.sigil :: (tag.getD [] ++ u))
    (htag : ∀ raw ∈ tag, IsTag raw ∧ form = .value)
    (hall : ∀ word, IsPlaceholder word → word <+: s →
      ∃ w t, word = form.sigil :: (tag.getD [] ++ w) ∧ SpellsTarget w t)
    {found : Option Match}
    (hfound : found = (Pattern.target.match? u).map fun n =>
      ⟨1 + ((tag.getD []).length + n.width), groups ++ n.groups⟩) :
    (NoPlaceholder s ∧ found = none) ∨
      ∃ (p : Placeholder) (g : Option Text), p.WellFormed ∧ p.form = form ∧ p.tag = tag ∧
        Longest IsPlaceholder p.text s ∧ found = some ⟨p.text.length, groups ++ [g, p.digits]⟩ := by
  have hrest : ∀ w, form.sigil :: (tag.getD [] ++ w) <+: s ↔ w <+: u := by
    intro w
    rw [hs, List.cons_prefix_cons, List.prefix_append_right_inj]
    simp
  rcases Pattern.target_cases u with ⟨hnone, hmatch⟩ | ⟨digits, g, hdigits, hpre, hlong, hmatch⟩
  · refine .inl ⟨?_, by rw [hfound, hmatch]; rfl⟩
    intro word hword hpre
    obtain ⟨w, t, rfl, hw⟩ := hall word hword hpre
    exact hnone w t hw ((hrest w).1 hpre)
  · have hwf : WellFormed ⟨form, tag, digits⟩ := ⟨htag, hdigits⟩
    refine .inr ⟨⟨form, tag, digits⟩, g, hwf, rfl, rfl,
      ⟨⟨_, _, _, hwf.spells⟩, (hrest _).2 hpre, ?_⟩, ?_⟩
    · intro other hother hpre'
      obtain ⟨w, t, rfl, hw⟩ := hall other hother hpre'
      have := hlong w t hw ((hrest w).1 hpre')
      simp only [text, List.length_cons, List.length_append]
      omega
    · rw [hfound, hmatch, text, List.length_cons, List.length_append, Nat.add_comm _ 1]
      rfl

/-- **The pattern of a value finds the longest placeholder** after a dollar sign, or there is none.
Its groups are the tag, the second dollar sign and the digits. -/
theorem value_cases {s : Text} (hdollar : s.head? = some '$') :
    (NoPlaceholder s ∧ Pattern.valuePlaceholder.match? s = none) ∨
      ∃ (p : Placeholder) (g : Option Text), p.WellFormed ∧ p.form = .value ∧
        Longest IsPlaceholder p.text s ∧
        Pattern.valuePlaceholder.match? s = some ⟨p.text.length, [p.tag, g, p.digits]⟩ := by
  obtain ⟨t, rfl⟩ := List.head?_eq_some_iff.1 hdollar
  rcases Pattern.ways_tag t with ⟨raw, u, rfl, hraw, -⟩ | ⟨hnone, hways⟩
  · refine (cases_of_target .value (some raw) [some raw] (u := u) rfl ?_ ?_
      (Pattern.match?_valuePlaceholder_tag hraw u)).imp_right ?_
    · intro _ h
      cases h
      exact ⟨hraw, rfl⟩
    · intro word ⟨form, tag, target, hword⟩ hpre
      cases hword with
      | value hw => exact absurd (List.cons_prefix_cons.1 hpre).2 (hw.not_prefix_tag hraw)
      | @tagged raw' w _ hraw' hw =>
        obtain ⟨v, hv⟩ := (List.cons_prefix_cons.1 hpre).2
        rw [List.append_assoc] at hv
        obtain ⟨rfl, -⟩ := hraw'.unique hraw hv
        exact ⟨w, _, rfl, hw⟩
      | location => cases (List.cons_prefix_cons.1 hpre).1
    · rintro ⟨p, g, hp, hform, htag, hlong, hmatch⟩
      exact ⟨p, g, hp, hform, hlong, by rw [hmatch, htag]; rfl⟩
  · have hmatch := Pattern.match?_valuePlaceholder_noTag hways
    refine (cases_of_target .value none [none] (u := t) rfl ?_ ?_
      (hmatch.trans (by simp))).imp_right ?_
    · intro _ h
      cases h
    · intro word ⟨form, tag, target, hword⟩ hpre
      cases hword with
      | @value w _ hw => exact ⟨w, _, rfl, hw⟩
      | @tagged raw w _ hraw hw =>
        exact absurd ((List.prefix_append raw w).trans (List.cons_prefix_cons.1 hpre).2)
          (hnone raw hraw)
      | location => cases (List.cons_prefix_cons.1 hpre).1
    · rintro ⟨p, g, hp, hform, htag, hlong, hmatch⟩
      exact ⟨p, g, hp, hform, hlong, by rw [hmatch, htag]; rfl⟩

/-- **The pattern of a location finds the longest placeholder** after an at sign, or there is none.
Its groups are the dollar sign and the digits. -/
theorem location_cases {s : Text} (hat : s.head? = some '@') :
    (NoPlaceholder s ∧ Pattern.locationPlaceholder.match? s = none) ∨
      ∃ (p : Placeholder) (g : Option Text), p.WellFormed ∧ p.form = .location ∧ p.tag = none ∧
        Longest IsPlaceholder p.text s ∧
        Pattern.locationPlaceholder.match? s = some ⟨p.text.length, [g, p.digits]⟩ := by
  obtain ⟨t, rfl⟩ := List.head?_eq_some_iff.1 hat
  refine cases_of_target .location none [] (u := t) rfl ?_ ?_ ?_
  · intro _ h
    cases h
  · intro word ⟨form, tag, target, hword⟩ hpre
    cases hword with
    | value => cases (List.cons_prefix_cons.1 hpre).1
    | tagged => cases (List.cons_prefix_cons.1 hpre).1
    | @location w _ hw => exact ⟨w, _, rfl, hw⟩
  · rw [Pattern.locationPlaceholder, Pattern.match?_char_seq_cons]
    simp only [Option.getD_none, List.length_nil, Nat.zero_add, List.nil_append]
    rfl

/-- Where another character stands, the pattern of a sigil finds nothing. -/
theorem match?_value_eq_none {s : Text} (h : s.head? ≠ some '$') :
    Pattern.valuePlaceholder.match? s = none := by
  rw [Pattern.valuePlaceholder, Pattern.match?_char_seq, if_neg h]

@[inherit_doc match?_value_eq_none]
theorem match?_location_eq_none {s : Text} (h : s.head? ≠ some '@') :
    Pattern.locationPlaceholder.match? s = none := by
  rw [Pattern.locationPlaceholder, Pattern.match?_char_seq, if_neg h]

/-- **The reader finds the longest placeholder**, or there is none at the start of the text. Whether
its number fits is looked at afterwards. -/
theorem lex?_cases (s : Text) :
    (NoPlaceholder s ∧ lex? s = none) ∨
      ∃ p : Placeholder, p.WellFormed ∧ Longest IsPlaceholder p.text s ∧
        lex? s = some p.checked := by
  by_cases hdollar : s.head? = some '$'
  · have hlocation : Pattern.locationPlaceholder.match? s = none :=
      match?_location_eq_none (by rw [hdollar]; decide)
    rcases value_cases hdollar with
      ⟨hnone, hmatch⟩ | ⟨⟨form, tag, digits⟩, g, hp, rfl, hlong, hmatch⟩
    · exact .inl ⟨hnone, by rw [lex?, hmatch, hlocation]⟩
    · exact .inr ⟨_, hp, hlong, by rw [lex?, hmatch]; rfl⟩
  have hvalue := match?_value_eq_none hdollar
  by_cases hat : s.head? = some '@'
  · rcases location_cases hat with
      ⟨hnone, hmatch⟩ | ⟨⟨form, tag, digits⟩, g, hp, rfl, rfl, hlong, hmatch⟩
    · exact .inl ⟨hnone, by rw [lex?, hvalue, hmatch]⟩
    · exact .inr ⟨_, hp, hlong, by rw [lex?, hvalue, hmatch]; rfl⟩
  · refine .inl ⟨?_, by rw [lex?, hvalue, match?_location_eq_none hat]⟩
    intro word hword hpre
    obtain ⟨ch, rest, rfl, hch⟩ := hword.head
    obtain ⟨t, rfl⟩ := hpre
    rcases hch with rfl | rfl
    · exact hdollar rfl
    · exact hat rfl

/-- A placeholder passes unchanged, or is refused after all of it. -/
theorem checked_cases (p : Placeholder) :
    p.checked = .ok p ∨ ∃ digits, p.checked = .error ⟨.unreadable digits, 0, p.text.length⟩ := by
  unfold checked
  split
  · split
    · exact .inl rfl
    · exact .inr ⟨_, rfl⟩
  · exact .inl rfl

end Placeholder

/-- The number of a target fits into 64 bits. -/
def ReferenceTarget.Fits : ReferenceTarget → Prop
  | .whole => True
  | .index n => n < Text.wordLimit

/-- A placeholder passes if its number fits, and then it is unchanged. -/
theorem Placeholder.checked_eq_ok_iff {p q : Placeholder} (h : p.WellFormed) :
    p.checked = .ok q ↔ p.target.Fits ∧ q = p := by
  rcases p with ⟨form, tag, _ | d⟩
  · simp [checked, target, ReferenceTarget.Fits, eq_comm]
  · have hne := (h.digits d rfl).1
    unfold checked
    dsimp only
    split
    case isTrue hsome =>
      obtain ⟨n, hn⟩ := Option.isSome_iff_exists.1 hsome
      have hfits := (Text.wordValue?_eq_some_iff.1 hn).2.1
      constructor
      · intro hq
        exact ⟨hfits, (Except.ok.inj hq).symm⟩
      · intro hq
        rw [hq.2]
    case isFalse hnone =>
      constructor
      · intro hq
        cases hq
      · intro hq
        refine absurd ?_ hnone
        rw [Text.wordValue?_eq_some_iff.2 ⟨hne, hq.1, rfl⟩]
        rfl

/-! ## 4. The scan for references -/

/-- A reference without the position of its tag. -/
structure Outline where
  form : ReferenceForm
  target : ReferenceTarget
  tag : Option Text
  span : Span
  deriving DecidableEq, Repr

/-- What a reference is apart from the place of its tag in a file. -/
def Reference.outline (r : Reference) : Outline := ⟨r.form, r.target, r.tag.map Tag.raw, r.span⟩

/-- The characters that quoted runs stand between. -/
def isQuote (ch : Char) : Bool := ch == '"' || ch == '\''

/-- `ReferenceScan offset s found`: the placeholders of `s`, read from left to right, are `found`.
Quoted runs and comments are skipped whole, and where placeholders match, the longest is one. The
text begins at byte `offset` of what is scanned. -/
inductive ReferenceScan : Nat → Text → List Outline → Prop where
  | done {offset : Nat} : ReferenceScan offset [] []
  | quoted {offset : Nat} {mark : Char} {inner rest : Text} {found : List Outline} :
      isQuote mark = true → mark ∉ inner →
      ReferenceScan (offset + (quotedRun mark inner).byteSize) rest found →
      ReferenceScan offset (quotedRun mark inner ++ rest) found
  | comment {offset : Nat} {inner rest : Text} {found : List Outline} :
      Text.EndsFirst commentClosing inner →
      ReferenceScan (offset + (commentRun inner).byteSize) rest found →
      ReferenceScan offset (commentRun inner ++ rest) found
  | placeholder {offset : Nat} {word rest : Text} {form : ReferenceForm} {tag : Option Text}
      {target : ReferenceTarget} {found : List Outline} :
      Longest IsPlaceholder word (word ++ rest) → Spells word form tag target →
      ReferenceScan (offset + word.byteSize) rest found →
      ReferenceScan offset (word ++ rest)
        (⟨form, target, tag, ⟨offset, offset + word.byteSize⟩⟩ :: found)
  | other {offset : Nat} {ch : Char} {rest : Text} {found : List Outline} :
      isQuote ch = false → ¬ commentOpening <+: ch :: rest → NoPlaceholder (ch :: rest) →
      ReferenceScan (offset + ch.utf8Size) rest found → ReferenceScan offset (ch :: rest) found

/-- Quoted runs, comments and placeholders begin differently. -/
theorem quotedRun_append_ne {mark : Char} {inner other r t : Text} (h : isQuote mark = true) :
    quotedRun mark inner ++ r ≠ commentRun other ++ t := by
  intro heq
  have hmark : mark = '/' := (List.cons.inj heq).1
  subst hmark
  revert h
  decide

theorem IsPlaceholder.append_ne_quotedRun {word inner r t : Text} {mark : Char}
    (hword : IsPlaceholder word) (h : isQuote mark = true) :
    word ++ r ≠ quotedRun mark inner ++ t := by
  obtain ⟨ch, rest, rfl, hch⟩ := hword.head
  intro heq
  have hmark : ch = mark := (List.cons.inj heq).1
  subst hmark
  rcases hch with rfl | rfl <;> revert h <;> decide

theorem IsPlaceholder.append_ne_commentRun {word inner r t : Text} (hword : IsPlaceholder word) :
    word ++ r ≠ commentRun inner ++ t := by
  obtain ⟨ch, rest, rfl, hch⟩ := hword.head
  intro heq
  have hmark : ch = '/' := (List.cons.inj heq).1
  subst hmark
  revert hch
  decide

theorem quotedRun_unique {mark mark' : Char} {inner inner' r t : Text} (h : mark ∉ inner)
    (h' : mark' ∉ inner') (heq : quotedRun mark inner ++ r = quotedRun mark' inner' ++ t) :
    mark = mark' ∧ inner = inner' ∧ r = t := by
  obtain ⟨rfl, heq⟩ := List.cons.inj heq
  obtain ⟨rfl, rfl⟩ := Text.endsFirst_unique (by simp) (Text.endsFirst_singleton.2 h)
    (Text.endsFirst_singleton.2 h') heq
  exact ⟨rfl, rfl, rfl⟩

theorem commentRun_unique {inner inner' r t : Text} (h : Text.EndsFirst commentClosing inner)
    (h' : Text.EndsFirst commentClosing inner')
    (heq : commentRun inner ++ r = commentRun inner' ++ t) : inner = inner' ∧ r = t := by
  simp only [commentRun, List.append_assoc, List.append_cancel_left_eq] at heq
  exact Text.endsFirst_unique (by decide) h h' (by simpa using heq)

namespace ReferenceScan

variable {offset : Nat} {mark ch : Char} {inner rest word : Text} {found : List Outline}

theorem of_nil (h : ReferenceScan offset [] found) : found = [] := by
  generalize hs : ([] : Text) = s at h
  cases h with
  | done => rfl
  | quoted => cases hs
  | comment => cases hs
  | placeholder hlong =>
    have := List.append_eq_nil_iff.1 hs.symm
    exact absurd this.1 hlong.mem.ne_nil
  | other => cases hs

theorem of_quoted (hmark : isQuote mark = true) (hinner : mark ∉ inner)
    (h : ReferenceScan offset (quotedRun mark inner ++ rest) found) :
    ReferenceScan (offset + (quotedRun mark inner).byteSize) rest found := by
  generalize hs : quotedRun mark inner ++ rest = s at h
  cases h with
  | done => cases hs
  | quoted _ hinner' hscan =>
    obtain ⟨rfl, rfl, rfl⟩ := quotedRun_unique hinner hinner' hs
    exact hscan
  | comment => exact absurd hs (quotedRun_append_ne hmark)
  | placeholder hlong =>
    exact absurd hs.symm (hlong.mem.append_ne_quotedRun hmark)
  | other hquote =>
    cases hs
    rw [hmark] at hquote
    cases hquote

theorem of_comment (hinner : Text.EndsFirst commentClosing inner)
    (h : ReferenceScan offset (commentRun inner ++ rest) found) :
    ReferenceScan (offset + (commentRun inner).byteSize) rest found := by
  generalize hs : commentRun inner ++ rest = s at h
  cases h with
  | done => cases hs
  | quoted hmark => exact absurd hs.symm (quotedRun_append_ne hmark)
  | comment hinner' hscan =>
    obtain ⟨rfl, rfl⟩ := commentRun_unique hinner hinner' hs
    exact hscan
  | placeholder hlong => exact absurd hs.symm hlong.mem.append_ne_commentRun
  | other _ hopen =>
    rw [← hs] at hopen
    exact absurd (commentOpening_begins _ _) hopen

theorem of_placeholder {form : ReferenceForm} {tag : Option Text} {target : ReferenceTarget}
    (hlong : Longest IsPlaceholder word (word ++ rest)) (hspells : Spells word form tag target)
    (h : ReferenceScan offset (word ++ rest) found) :
    ∃ more, found = ⟨form, target, tag, ⟨offset, offset + word.byteSize⟩⟩ :: more ∧
      ReferenceScan (offset + word.byteSize) rest more := by
  generalize hs : word ++ rest = s at h
  cases h with
  | done => exact absurd (List.append_eq_nil_iff.1 hs).1 hlong.mem.ne_nil
  | quoted hmark => exact absurd hs (hlong.mem.append_ne_quotedRun hmark)
  | comment => exact absurd hs hlong.mem.append_ne_commentRun
  | placeholder hlong' hspells' hscan =>
    rw [hs] at hlong
    obtain rfl := hlong.unique hlong'
    obtain rfl := List.append_cancel_left hs
    obtain ⟨rfl, rfl, rfl⟩ := hspells.unique hspells'
    exact ⟨_, rfl, hscan⟩
  | other _ _ hnone =>
    rw [← hs] at hnone
    exact absurd hlong.isPrefix (hnone word hlong.mem)

theorem of_other (hquote : isQuote ch = false) (hopen : ¬ commentOpening <+: ch :: rest)
    (hnone : NoPlaceholder (ch :: rest)) (h : ReferenceScan offset (ch :: rest) found) :
    ReferenceScan (offset + ch.utf8Size) rest found := by
  generalize hs : ch :: rest = s at h
  cases h with
  | done => cases hs
  | quoted hmark =>
    cases hs
    rw [hmark] at hquote
    cases hquote
  | comment =>
    rw [hs] at hopen
    exact absurd (commentOpening_begins _ _) hopen
  | placeholder hlong =>
    rw [hs] at hnone
    exact absurd hlong.isPrefix (hnone _ hlong.mem)
  | other _ _ _ hscan =>
    cases hs
    exact hscan

/-- **A text has one scan at most.** -/
theorem unique {s : Text} {found' : List Outline} (h : ReferenceScan offset s found)
    (h' : ReferenceScan offset s found') : found = found' := by
  induction h generalizing found' with
  | done => exact h'.of_nil.symm
  | quoted hmark hinner _ ih => exact ih (h'.of_quoted hmark hinner)
  | comment hinner _ ih => exact ih (h'.of_comment hinner)
  | placeholder hlong hspells _ ih =>
    obtain ⟨more, rfl, hscan⟩ := h'.of_placeholder hlong hspells
    rw [ih hscan]
  | other hquote hopen hnone _ ih => exact ih (h'.of_other hquote hopen hnone)

end ReferenceScan

end GrammarLexer
