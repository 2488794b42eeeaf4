import GrammarLexer.Text.Blank

/-!
# Patterns

Patterns are matched at the start of a text only. A choice prefers its first alternative and a run
prefers to be long, but both give way where that lets the rest of the pattern match; the first way
to match in this order of preference is the match.

* `Pattern` -- single characters, runs, sequences, choices and groups;
* `Pattern.ways` -- every way to match a beginning of a text, in order of preference;
* `Pattern.match?`, `Pattern.upcoming` -- the preferred way, and whether there is one.

A way never passes the end of the text (`width_le_length`) and takes at least the characters that
the pattern itself asks for (`leastWidth_le_width`).
-/

namespace GrammarLexer

/-- A pattern for the beginning of a text. -/
inductive Pattern where
  /-- The empty text. -/
  | empty
  /-- One character of a class. -/
  | one (cls : Char → Bool)
  /-- A run of characters of a class, the longer the better; it may be empty. -/
  | many (cls : Char → Bool)
  /-- One pattern and then another. -/
  | seq (first second : Pattern)
  /-- One pattern, or else another. -/
  | alt (first second : Pattern)
  /-- A pattern whose matched text is reported. -/
  | group (inner : Pattern)

/-- One way to match: how many characters it takes, and the text of each group, in the order in
which the groups are written. A group of an alternative that was not chosen has none. -/
structure Match where
  width : Nat
  groups : List (Option Text)
  deriving DecidableEq, Repr

/-- The text of the group at an index, if that group took part. -/
def Match.group? (m : Match) (i : Nat) : Option Text := (m.groups[i]?).join

/-- What a match shows of the text that it was found in: first all that it took, then its groups. -/
def Match.captures (m : Match) (s : Text) : List (Option Text) := some (s.take m.width) :: m.groups

namespace Pattern

/-! ## 1. Building patterns -/

/-- One given character. -/
def char (ch : Char) : Pattern := one (· == ch)

/-- A run of at least one character of a class. -/
def many1 (cls : Char → Bool) : Pattern := seq (one cls) (many cls)

/-- A pattern, or else nothing. -/
def optional (p : Pattern) : Pattern := alt p empty

/-- The number of groups in a pattern. -/
def groupCount : Pattern → Nat
  | empty | one _ | many _ => 0
  | seq p q | alt p q => p.groupCount + q.groupCount
  | group p => p.groupCount + 1

/-! ## 2. Matching -/

/-- Every way to match a beginning of `s`, the preferred one first. -/
def ways : Pattern → Text → List Match
  | empty, _ => [⟨0, []⟩]
  | one cls, s =>
    match s with
    | [] => []
    | ch :: _ => if cls ch then [⟨1, []⟩] else []
  | many cls, s =>
    (List.range ((s.takeWhile cls).length + 1)).reverse.map fun n => ⟨n, []⟩
  | seq p q, s =>
    (ways p s).flatMap fun m =>
      (ways q (s.drop m.width)).map fun n => ⟨m.width + n.width, m.groups ++ n.groups⟩
  | alt p q, s =>
    -- the groups of the other alternative take no part
    (ways p s).map (fun m => ⟨m.width, m.groups ++ List.replicate q.groupCount none⟩) ++
      (ways q s).map fun m => ⟨m.width, List.replicate p.groupCount none ++ m.groups⟩
  | group p, s => (ways p s).map fun m => ⟨m.width, some (s.take m.width) :: m.groups⟩

/-- The preferred way to match a beginning of a text. -/
def match? (p : Pattern) (s : Text) : Option Match := (p.ways s).head?

/-- Does some beginning of the text match? -/
def upcoming (p : Pattern) (s : Text) : Bool := (p.match? s).isSome

theorem mem_ways_of_match? {p : Pattern} {s : Text} {m : Match} (h : p.match? s = some m) :
    m ∈ p.ways s :=
  List.mem_of_mem_head? h

/-! ## 3. How much a match takes -/

/-- The least number of characters that a pattern asks for. -/
def leastWidth : Pattern → Nat
  | empty | many _ => 0
  | one _ => 1
  | seq p q => p.leastWidth + q.leastWidth
  | alt p q => min p.leastWidth q.leastWidth
  | group p => p.leastWidth

/-- **A match takes at least what its pattern asks for.** -/
theorem leastWidth_le_width {p : Pattern} {s : Text} {m : Match} (h : m ∈ p.ways s) :
    p.leastWidth ≤ m.width := by
  induction p generalizing s m with
  | empty => simp [leastWidth]
  | one cls =>
    cases s with
    | nil => simp [ways] at h
    | cons ch rest =>
      simp only [ways] at h
      split at h <;> simp_all [leastWidth]
  | many cls => simp [leastWidth]
  | seq p q ihp ihq =>
    simp only [ways, List.mem_flatMap, List.mem_map] at h
    obtain ⟨m₁, h₁, m₂, h₂, rfl⟩ := h
    exact Nat.add_le_add (ihp h₁) (ihq h₂)
  | alt p q ihp ihq =>
    simp only [ways, List.mem_append, List.mem_map] at h
    rcases h with ⟨n, hn, rfl⟩ | ⟨n, hn, rfl⟩
    · have := ihp hn
      exact Nat.le_trans (Nat.min_le_left _ _) this
    · have := ihq hn
      exact Nat.le_trans (Nat.min_le_right _ _) this
  | group p ih =>
    simp only [ways, List.mem_map] at h
    obtain ⟨n, hn, rfl⟩ := h
    have := ih hn
    exact this

/-- **A match stays inside the text.** -/
theorem width_le_length {p : Pattern} {s : Text} {m : Match} (h : m ∈ p.ways s) :
    m.width ≤ s.length := by
  induction p generalizing s m with
  | empty => simp_all [ways]
  | one cls =>
    cases s with
    | nil => simp [ways] at h
    | cons ch rest =>
      simp only [ways] at h
      split at h <;> simp_all
  | many cls =>
    simp only [ways, List.mem_map, List.mem_reverse, List.mem_range] at h
    obtain ⟨n, hn, rfl⟩ := h
    have := (List.takeWhile_prefix cls (l := s)).length_le
    dsimp only
    omega
  | seq p q ihp ihq =>
    simp only [ways, List.mem_flatMap, List.mem_map] at h
    obtain ⟨m₁, h₁, m₂, h₂, rfl⟩ := h
    have h₁ := ihp h₁
    have h₂ := ihq h₂
    simp only [List.length_drop] at h₂
    dsimp only
    omega
  | alt p q ihp ihq =>
    simp only [ways, List.mem_append, List.mem_map] at h
    rcases h with ⟨n, hn, rfl⟩ | ⟨n, hn, rfl⟩
    · have := ihp hn
      exact this
    · have := ihq hn
      exact this
  | group p ih =>
    simp only [ways, List.mem_map] at h
    obtain ⟨n, hn, rfl⟩ := h
    have := ih hn
    exact this

end Pattern

end GrammarLexer
