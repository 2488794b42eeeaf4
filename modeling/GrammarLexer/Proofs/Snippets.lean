import GrammarLexer.Proofs.Moves

/-!
# Snippets are lines

The line around a byte offset is found by searching from the offset to the newlines on both sides of
it. The lines of a text are found by cutting it after each newline. Both come to the same lines: the
offset shows the line whose number is told by the newlines before it, or the last line if the offset
is at the end and there is no such line.

* `Text.IsBoundary` -- an offset between two characters;
* `Text.snippetAt?_eq_none_iff` -- the offsets that show nothing;
* `Text.Looks` -- the search as a run of looks, with their number;
* `Text.look?_again`, `Text.Looks.le_two` -- a look that asks for another one is the first;
* `Consecutive.ne_nil_of_mem`, `Consecutive.ends_of_mem_dropLast` -- the shape of lines;
* `Text.ShowsLine` -- the line that belongs to a number of newlines;
* `Text.snippets_are_lines` -- **the search and the cuts agree**.
-/

namespace GrammarLexer

namespace Text

/-! ## 1. Boundaries -/

/-- The offset stands between two characters of the text, or at one of its ends. -/
def IsBoundary (s : Text) (index : Nat) : Prop :=
  ∃ before after, s = before ++ after ∧ before.byteSize = index

theorem isBoundary_byteSize (s : Text) : s.IsBoundary s.byteSize :=
  ⟨s, [], (List.append_nil s).symm, rfl⟩

theorem splitAt?_eq_none_iff {n : Nat} {s : Text} : splitAt? n s = none ↔ ¬ s.IsBoundary n := by
  constructor
  · rintro hnone ⟨before, after, rfl, rfl⟩
    rw [splitAt?_byteSize] at hnone
    cases hnone
  · intro hinside
    cases hsplit : splitAt? n s with
    | none => rfl
    | some parts =>
      obtain ⟨hparts, hsize⟩ := splitAt?_eq_some hsplit
      exact absurd ⟨parts.1, parts.2, hparts.symm, hsize⟩ hinside

/-- An offset past the end counts as the end, so only one inside a character is no boundary. -/
theorem not_isBoundary_min_iff {s : Text} {index : Nat} :
    ¬ s.IsBoundary (min index s.byteSize) ↔ index < s.byteSize ∧ ¬ s.IsBoundary index := by
  by_cases hlt : index < s.byteSize
  · rw [Nat.min_eq_left (Nat.le_of_lt hlt)]
    exact (and_iff_right hlt).symm
  · rw [Nat.min_eq_right (Nat.le_of_not_lt hlt)]
    exact iff_of_false (not_not_intro (isBoundary_byteSize s)) fun h => hlt h.1

/-- **Only an offset inside a character shows nothing.** -/
theorem snippetAt?_eq_none_iff {s : Text} {index : Nat} :
    snippetAt? s index = none ↔ index < s.byteSize ∧ ¬ s.IsBoundary index := by
  rw [snippetAt?, Option.map_eq_none_iff, splitAt?_eq_none_iff, not_isBoundary_min_iff]

theorem snippetAt?_min (s : Text) (index : Nat) :
    snippetAt? s (min index s.byteSize) = snippetAt? s index := by
  rw [snippetAt?, snippetAt?, Nat.min_assoc, Nat.min_self]

/-! ## 2. Looking for a line -/

theorem look?_min (s : Text) (index : Nat) : look? s (min index s.byteSize) = look? s index := by
  simp only [look?, Nat.min_assoc, Nat.min_self]

theorem look?_eq_none {s : Text} {index : Nat} (h : ¬ s.IsBoundary (min index s.byteSize)) :
    look? s index = none := by
  rw [look?, slice?, splitAt?_eq_none_iff.2 h]
  rfl

/-- **A second look is before the newline at the end of the text, and finds a line there.** -/
theorem look?_again {s : Text} {index earlier : Nat} (h : look? s index = some (.again earlier)) :
    earlier < min index s.byteSize ∧ ∃ line, look? s earlier = some (.line line) := by
  by_cases hboundary : s.IsBoundary (min index s.byteSize)
  · obtain ⟨before, after, hs, hsize⟩ := hboundary
    rw [← look?_min, ← hsize, hs, look?_eq] at h
    split at h
    case isFalse => cases h
    case isTrue hend =>
      obtain ⟨hafter, hne, hlast⟩ := hend
      obtain ⟨whole, hbefore, -, hwhole⟩ := exists_lastLine before
      rw [hlast, List.append_nil] at hbefore
      subst hbefore
      obtain ⟨body, hbody⟩ := List.getLast?_eq_some_iff.1 (hwhole.resolve_left hne)
      subst hbody hafter hs
      cases h
      rw [List.dropLast_concat]
      constructor
      · rw [← hsize, byteSize_append]
        exact Nat.lt_succ_self _
      · rw [List.append_nil, look?_eq, if_neg fun h => List.cons_ne_nil _ _ h.1]
        exact ⟨_, rfl⟩
  · rw [look?_eq_none hboundary] at h
    cases h

/-- `Looks s index n r`: looking for the line at the offset, and again whenever a look asks for it,
ends after `n` looks with `r`. -/
inductive Looks (s : Text) : Nat → Nat → Option Text → Prop where
  | breaksOff {index : Nat} : look? s index = none → Looks s index 1 none
  | found {index : Nat} {line : Text} : look? s index = some (.line line) →
      Looks s index 1 (some line)
  | again {index earlier n : Nat} {r : Option Text} : look? s index = some (.again earlier) →
      Looks s earlier n r → Looks s index (n + 1) r

/-- **There are two looks at most.** -/
theorem Looks.le_two {s : Text} {index n : Nat} {r : Option Text} (h : Looks s index n r) :
    n ≤ 2 := by
  cases h with
  | breaksOff | found => exact Nat.le_succ 1
  | again hlook hmore =>
    obtain ⟨-, line, hline⟩ := look?_again hlook
    cases hmore with
    | breaksOff | found => exact Nat.le_refl 2
    | again hlook' =>
      rw [hline] at hlook'
      cases hlook'

/-- The looks end with the line at the offset. -/
theorem exists_looks (s : Text) (index : Nat) : ∃ n, Looks s index n (lineAt? s index) := by
  rw [lineAt?]
  cases hlook : look? s index with
  | none => exact ⟨1, .breaksOff hlook⟩
  | some look =>
    cases look with
    | line line => exact ⟨1, .found hlook⟩
    | again earlier =>
      obtain ⟨hearlier, line, hline⟩ := look?_again hlook
      have hnext : lineAt? s earlier = some line := by
        rw [lineAt?, hline]
      refine ⟨2, .again hlook ?_⟩
      dsimp only
      rw [if_pos hearlier, hnext]
      exact .found hline

/-- **What the looks end with is the snippet.** -/
theorem lineAt?_eq_snippetAt? (s : Text) (index : Nat) : lineAt? s index = snippetAt? s index := by
  by_cases hboundary : s.IsBoundary (min index s.byteSize)
  · obtain ⟨before, after, hs, hsize⟩ := hboundary
    have hline := lineAt?_byteSize before after
    rw [← snippetAt?_byteSize, ← hs, hsize, snippetAt?_min] at hline
    rw [← hline, lineAt?, lineAt?, look?_min, Nat.min_assoc, Nat.min_self]
  · rw [snippetAt?_eq_none_iff.2 (not_isBoundary_min_iff.1 hboundary), lineAt?,
      look?_eq_none hboundary]

end Text

/-! ## 3. The shape of lines -/

namespace Consecutive

variable {n : Nat} {lines : List Line} {line last : Line}

/-- No line is empty, and a newline is only ever its last character. -/
theorem ne_nil_of_mem (h : Consecutive n lines) (hline : line ∈ lines) :
    line.text ≠ [] ∧ '\n' ∉ line.text.dropLast := by
  induction h with
  | nil => cases hline
  | last hne hmem =>
    obtain rfl := List.mem_singleton.1 hline
    exact ⟨hne, fun h => hmem ((List.dropLast_sublist _).subset h)⟩
  | cons hmem _ ih =>
    rcases List.mem_cons.1 hline with rfl | hline
    · rw [List.dropLast_concat]
      exact ⟨List.append_ne_nil_of_right_ne_nil _ (List.cons_ne_nil _ _), hmem⟩
    · exact ih hline

/-- Every line but the last ends in a newline. -/
theorem ends_of_mem_dropLast (h : Consecutive n lines) (hline : line ∈ lines.dropLast) :
    line.text.getLast? = some '\n' := by
  induction h with
  | nil | last => cases hline
  | @cons n body more hmem _ ih =>
    cases more with
    | nil => cases hline
    | cons next more =>
      rcases List.mem_cons.1 hline with rfl | hline
      · rw [List.getLast?_concat]
      · exact ih hline

theorem number_le (h : Consecutive n lines) (hlast : lines.getLast? = some last)
    (hline : line ∈ lines) : n ≤ line.number ∧ line.number ≤ last.number := by
  have hnumbers := h.numbers
  obtain ⟨front, rfl⟩ := List.getLast?_eq_some_iff.1 hlast
  rw [List.map_append, List.length_append, List.map_singleton, List.length_singleton,
    List.range'_concat] at hnumbers
  obtain ⟨hfront, hnumber⟩ := List.append_inj' hnumbers rfl
  have hlastNumber := List.singleton_inj.1 hnumber
  rcases List.mem_append.1 hline with hline | hline
  · have hmem := List.mem_map_of_mem (f := Line.number) hline
    rw [hfront, List.mem_range'_1] at hmem
    omega
  · rw [List.mem_singleton.1 hline]
    omega

end Consecutive

/-! ## 4. The line that is shown -/

namespace Text

/-- `ShowsLine s k shown`: where `k` newlines come before, the text shows its line `k + 1`. If it
has no such line, it shows line `k`; and if it has no line at all, nothing. -/
inductive ShowsLine (s : Text) (k : Nat) (shown : Text) : Prop where
  | next {line : Line} : line ∈ s.numberedLines → line.number = k + 1 → shown = line.body →
      ShowsLine s k shown
  | last {line : Line} : (∀ other ∈ s.numberedLines, other.number ≠ k + 1) → 0 < k →
      line ∈ s.numberedLines → line.number = k → shown = line.body → ShowsLine s k shown
  | empty : s = [] → shown = [] → ShowsLine s k shown

/-- **A place shows the line that its newlines tell.** -/
theorem showsLine_shown (before after : Text) :
    ShowsLine (before ++ after) (before.count '\n') (shown before after) := by
  generalize hs : before ++ after = s
  have hlines := consecutive_numberedLines s
  have htext := flatMap_numberedLines s
  by_cases hne : s.numberedLines = []
  · rw [hne] at htext
    obtain ⟨rfl, rfl⟩ := List.append_eq_nil_iff.1 (hs.trans htext.symm)
    exact .empty htext.symm rfl
  · have hshows := hlines.shows hne (htext.trans hs.symm)
    rw [Position.after_start] at hshows
    cases hshows with
    | onLine hline hnumber _ _ hbody =>
      exact .next hline (hnumber.symm.trans (Nat.add_comm _ _)) hbody
    | @afterLast last hlast _ hposition hbody =>
      have hnumber : 1 + before.count '\n' = last.number + 1 := congrArg Position.line hposition
      have hmem := List.mem_of_getLast? hlast
      have hfirst := (hlines.number_le hlast hmem).1
      refine .last (fun other hother => ?_) (by omega) hmem (by omega) hbody
      have hle := (hlines.number_le hlast hother).2
      omega

/-- **Snippets are lines.** The lines of a text make it up, are numbered from one on, are not empty
and end in their only newline, which the last one may lack. The snippet at a boundary, or past the
end, is the line with one more than the number of newlines before it; at the end there may be none,
and then it is the line before, or nothing if the text is empty. Only an offset inside a character
has no snippet. The search for it, as long as it asks for another look, takes two looks at most. -/
theorem snippets_are_lines (s : Text) :
    (s.numberedLines.flatMap Line.text = s ∧
      s.numberedLines.map Line.number = List.range' 1 s.numberedLines.length ∧
      (∀ line ∈ s.numberedLines, line.text ≠ [] ∧ '\n' ∉ line.text.dropLast) ∧
      ∀ line ∈ s.numberedLines.dropLast, line.text.getLast? = some '\n') ∧
    (∀ index before after, s = before ++ after → before.byteSize = min index s.byteSize →
      ∃ shown, snippetAt? s index = some shown ∧ ShowsLine s (before.count '\n') shown) ∧
    (∀ index, snippetAt? s index = none ↔ index < s.byteSize ∧ ¬ s.IsBoundary index) ∧
    ∀ index, lineAt? s index = snippetAt? s index ∧ (∃ n, Looks s index n (lineAt? s index)) ∧
      ∀ n r, Looks s index n r → n ≤ 2 := by
  have hlines := consecutive_numberedLines s
  refine ⟨⟨flatMap_numberedLines s, hlines.numbers, fun line => hlines.ne_nil_of_mem,
    fun line => hlines.ends_of_mem_dropLast⟩, fun index before after hs hsize => ?_,
    fun index => snippetAt?_eq_none_iff, fun index => ⟨lineAt?_eq_snippetAt? s index,
      exists_looks s index, fun n r => Looks.le_two⟩⟩
  refine ⟨shown before after, ?_, hs ▸ showsLine_shown before after⟩
  rw [← snippetAt?_min, ← hsize, hs, snippetAt?_byteSize]

/-- Three lines, the first with a letter of two bytes and the last empty. Past the end the third
line is shown and after the first newline the second one; inside the letter there is nothing. -/
theorem snippets_are_lines_at_edges :
    (∃ shown, snippetAt? "é\nb\n\n".toList 9 = some shown ∧
      ShowsLine "é\nb\n\n".toList 3 shown) ∧
    (∃ shown, snippetAt? "é\nb\n\n".toList 3 = some shown ∧
      ShowsLine "é\nb\n\n".toList 1 shown) ∧
    snippetAt? "é\nb\n\n".toList 1 = none ∧
    ∃ n, n ≤ 2 ∧ Looks "é\nb\n\n".toList 6 n (some []) := by
  obtain ⟨-, hsnippet, hnone, hlooks⟩ := snippets_are_lines "é\nb\n\n".toList
  have hinside : ¬ IsBoundary "é\nb\n\n".toList 1 := splitAt?_eq_none_iff.1 (by decide)
  refine ⟨hsnippet 9 "é\nb\n\n".toList [] (by decide) (by decide),
    hsnippet 3 "é\n".toList "b\n\n".toList (by decide) (by decide),
    (hnone 1).2 ⟨by decide, hinside⟩, ?_⟩
  obtain ⟨hline, ⟨n, hn⟩, hle⟩ := hlooks 6
  have hempty : snippetAt? "é\nb\n\n".toList 6 = some [] := by decide
  rw [hline, hempty] at hn
  exact ⟨n, hle n _ hn, hn⟩

end Text

end GrammarLexer
