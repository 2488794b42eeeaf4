import Mathlib.Order.Bounds.Defs
import GrammarLexer.Proofs.Snippets

/-!
# Long moves are single steps

A cursor passes a number of bytes, a match, or a run of characters in one move. Each of these moves
has a loop of its own, or is told a size in bytes; each leads to where taking the characters in
between would lead, one after another, with the same counters.

* `Text.isLeast_covering` -- the characters that cover a number of bytes end at the least boundary;
* `Cursor.Takes`, `Cursor.Strides` -- one character after another, and a move that comes to that;
* `Matcher`, `Matcher.Finds`, `Matcher.Anchored` -- a search for matches by what it promises;
* `Guarded.takeMatchBy`, `Cursor.Placed.takesMatch` -- taking a match that any such search finds;
* `Pattern.Accepts`, `Pattern.upcoming_iff` -- the words of a pattern, and that it is such a search;
* `Cursor.strides_are_steps` -- **every long move is a number of single steps.**
-/

namespace GrammarLexer

open Text (Stops)

/-! ## 1. Boundaries ahead -/

namespace Text

/-- After a beginning of the text, its boundaries are those of what follows. -/
theorem isBoundary_append_iff {before after : Text} {n : Nat} :
    (before ++ after).IsBoundary (before.byteSize + n) ↔ after.IsBoundary n := by
  constructor
  · intro h
    obtain ⟨p, q, hsplit, hsize⟩ := h
    rcases List.append_eq_append_iff.1 hsplit with ⟨more, hp, hafter⟩ | ⟨more, hbefore, hq⟩
    · rw [hp, byteSize_append] at hsize
      exact ⟨more, q, hafter, by omega⟩
    · -- then the place is the end of `before`
      rw [hbefore, byteSize_append] at hsize
      exact ⟨[], after, rfl, by rw [byteSize_nil]; omega⟩
  · intro h
    obtain ⟨p, q, hafter, hsize⟩ := h
    refine ⟨before ++ p, q, ?_, ?_⟩
    · rw [hafter, List.append_assoc]
    · rw [byteSize_append, hsize]

/-- **Covering a number of bytes ends at the least boundary that is not before them**, or at the end
if there are fewer. -/
theorem isLeast_covering (n : Nat) (s : Text) :
    IsLeast {i | s.IsBoundary i ∧ min n s.byteSize ≤ i} (byteSize (s.take (covering n s))) := by
  induction s generalizing n with
  | nil =>
    have hnone : covering n [] = 0 := by cases n <;> rfl
    rw [hnone]
    exact ⟨⟨⟨[], [], rfl, rfl⟩, Nat.min_le_right _ _⟩, fun _ _ => Nat.zero_le _⟩
  | cons ch rest ih =>
    cases n with
    | zero => exact ⟨⟨⟨[], ch :: rest, rfl, rfl⟩, Nat.min_le_left _ _⟩, fun _ _ => Nat.zero_le _⟩
    | succ n =>
      obtain ⟨⟨hboundary, hle⟩, hleast⟩ := ih (n + 1 - ch.utf8Size)
      have hpos := Char.utf8Size_pos ch
      have hsize : byteSize ((ch :: rest).take (covering (n + 1) (ch :: rest))) =
          byteSize [ch] + byteSize (rest.take (covering (n + 1 - ch.utf8Size) rest)) := rfl
      have hch : byteSize [ch] = ch.utf8Size := rfl
      have hnext : IsBoundary ([ch] ++ rest) _ := isBoundary_append_iff.2 hboundary
      rw [hsize]
      refine ⟨⟨hnext, ?_⟩, ?_⟩
      · rw [byteSize_cons, hch]
        omega
      · intro i hi
        obtain ⟨⟨p, q, hsplit, hp⟩, hmin⟩ := hi
        rw [byteSize_cons] at hmin
        cases p with
        | nil =>
          -- the beginning is before the first byte
          rw [byteSize_nil] at hp
          omega
        | cons x p =>
          obtain ⟨rfl, hrest⟩ := List.cons.inj hsplit
          rw [byteSize_cons] at hp
          have hlater := hleast ⟨⟨p, q, hrest, rfl⟩, by omega⟩
          rw [hch]
          omega

end Text

/-! ## 2. One character after another -/

namespace Cursor

open Guarded (Leads)

/-- `c.Takes taken c'`: taking a character, again and again, gives the characters of `taken` and
leads from `c` to `c'`; and so does taking them by the counters alone. -/
inductive Takes : Cursor → Text → Cursor → Prop where
  | nil {c : Cursor} : Takes c [] c
  | cons {c next c' : Cursor} {ch : Char} {taken : Text} :
      Operation.take.run c = (.character (some ch), next) →
      Leads Guarded.take c (.ok (some ch)) next → Takes next taken c' → Takes c (ch :: taken) c'

/-- **Skipping characters is taking them one by one.** -/
theorem Placed.takes_skip {c : Cursor} {taken rest : Text} (h : c.Placed)
    (hrest : c.rest = taken ++ rest) : c.Takes taken (c.skip taken.length) := by
  induction taken generalizing c with
  | nil => exact .nil
  | cons ch taken ih =>
    have htake : Operation.take.run c = (.character (some ch), c.skip 1) := by
      unfold Operation.run peek
      rw [hrest]
      rfl
    have hmore := ih (h.skip 1) (rest_skip_one hrest)
    rw [← skip_add, Nat.add_comm] at hmore
    exact .cons htake (Guarded.leads_take h hrest) hmore

/-- `c.Strides taken c'`: a move from `c` to `c'` past the text `taken`, which is what lies between
their offsets. Taking its characters one by one leads to the same cursor. -/
structure Strides (c : Cursor) (taken : Text) (c' : Cursor) : Prop where
  index_eq : c'.index = c.index + taken.byteSize
  between : c.text.slice? c.index c'.index = some taken
  steps : c.Takes taken c'

theorem Placed.strides {c : Cursor} {taken rest : Text} (h : c.Placed)
    (hrest : c.rest = taken ++ rest) : c.Strides taken (c.skip taken.length) := by
  have htake : c.rest.take taken.length = taken := by rw [hrest, List.take_left]
  have hslice := h.slice? taken.length
  rw [htake] at hslice
  refine ⟨?_, hslice, h.takes_skip hrest⟩
  rw [index_skip, htake]

/-- **Bytes are passed up to the least boundary.** -/
theorem Passed.isLeast_advance {text passed : Text} {first : Nat} {c : Cursor}
    (h : c.Passed text first passed) (n : Nat) :
    IsLeast {i | text.IsBoundary i ∧ min (c.index + n) text.byteSize ≤ i} (c.advance n).index := by
  have hindex : (c.advance n).index =
      passed.byteSize + Text.byteSize (c.rest.take (c.rest.covering n)) := by
    rw [advance, index_skip, h.index_eq]
  obtain ⟨⟨hboundary, hle⟩, hleast⟩ := Text.isLeast_covering n c.rest
  rw [hindex, h.index_eq, ← h.split]
  refine ⟨⟨Text.isBoundary_append_iff.2 hboundary, ?_⟩, ?_⟩
  · rw [Text.byteSize_append]
    omega
  · intro i hi
    obtain ⟨hi, hmin⟩ := hi
    rw [Text.byteSize_append] at hmin
    obtain ⟨k, rfl⟩ : ∃ k, i = passed.byteSize + k := ⟨i - passed.byteSize, by omega⟩
    have hk := hleast ⟨Text.isBoundary_append_iff.1 hi, by omega⟩
    omega

theorem Placed.strides_advance {c : Cursor} (h : c.Placed) (n : Nat) :
    ∃ taken, c.Strides taken (c.advance n) := by
  have hstrides := h.strides (List.take_append_drop (c.rest.covering n) c.rest).symm
  rw [List.length_take, Nat.min_eq_left (Text.covering_le_length n c.rest)] at hstrides
  exact ⟨_, hstrides⟩

end Cursor

/-! ## 3. Searches for a match -/

/-- A search for matches in a text: whether there is one, and what one captures. All that it took is
captured first, as a span of the text. -/
structure Matcher (γ : Type) where
  isMatch : Text → Bool
  captures? : Text → Option γ
  whole? : γ → Option Span

namespace Matcher

variable {γ : Type}

/-- How many bytes of the text come before the end of a match. -/
def size (m : Matcher γ) (captures : γ) : Nat := ((m.whole? captures).map Span.stop).getD 0

/-- The same for the match that is found in a text, if there is one. -/
def size? (m : Matcher γ) (s : Text) : Option Nat := (m.captures? s).map m.size

/-- `m.Finds found`: the search does what it promises, for the spans of a text that are `found`. It
tells whether there is one; it captures nothing only if there is none; and all that a capture took
is one of them. -/
structure Finds (m : Matcher γ) (found : Text → Span → Prop) : Prop where
  isMatch_iff : ∀ s, m.isMatch s = true ↔ ∃ span, found s span
  not_found : ∀ s, m.captures? s = none → ∀ span, ¬ found s span
  whole : ∀ s captures, m.captures? s = some captures →
    ∃ span, m.whole? captures = some span ∧ found s span

/-- Every match begins where the text begins, and ends between two characters of it. -/
def Anchored (found : Text → Span → Prop) : Prop :=
  ∀ s span, found s span → span.start = 0 ∧ s.IsBoundary span.stop

end Matcher

namespace Guarded

variable {γ : Type}

/-- Is there a match ahead? -/
def upcomingBy (m : Matcher γ) : Guarded Bool := do return m.isMatch (← rest)

/-- Takes what a search finds, by its size in bytes, and gives what it captured. -/
def takeMatchBy (m : Matcher γ) : Guarded (Option γ) := do
  let ahead ← rest
  match m.captures? ahead with
  | some captures =>
    advance (m.size captures)
    return some captures
  | none => return none

theorem leads_upcomingBy {c : Cursor} (h : c.Placed) (m : Matcher γ) :
    Leads (upcomingBy m) c (.ok (m.isMatch c.rest)) c :=
  .bind (leads_rest h rfl) (.pure _ _)

theorem leads_takeMatchBy_some {c : Cursor} (h : c.Placed) {m : Matcher γ} {captures : γ}
    (hcaptures : m.captures? c.rest = some captures) :
    Leads (takeMatchBy m) c (.ok (some captures)) (c.advance (m.size captures)) := by
  unfold takeMatchBy
  refine .bind (leads_rest h rfl) ?_
  rw [hcaptures]
  exact .bind (leads_advance h _) (.pure _ _)

theorem leads_takeMatchBy_none {c : Cursor} (h : c.Placed) {m : Matcher γ}
    (hcaptures : m.captures? c.rest = none) : Leads (takeMatchBy m) c (.ok none) c := by
  unfold takeMatchBy
  refine .bind (leads_rest h rfl) ?_
  rw [hcaptures]
  exact .pure _ _

end Guarded

namespace Cursor

open Guarded (Leads upcomingBy takeMatchBy)

variable {γ : Type}

/-- `c.TakesMatch m found answer c'`: what taking a match comes to at a cursor. There is a match
ahead exactly if one is taken. Then the cursor goes to the end of it, past the text that was
matched; else it stays. -/
structure TakesMatch (c : Cursor) (m : Matcher γ) (found : Text → Span → Prop) (answer : Option γ)
    (c' : Cursor) : Prop where
  leads : Leads (takeMatchBy m) c (.ok answer) c'
  upcoming : Leads (upcomingBy m) c (.ok answer.isSome) c
  stays : answer = none → c' = c
  takes : ∀ captures, answer = some captures → ∃ span taken, m.whole? captures = some span ∧
    found c.rest span ∧ c'.index = c.index + span.stop ∧
    c.rest.slice? span.start span.stop = some taken ∧ c.Strides taken c'

theorem passMatch_of_some {c : Cursor} {find : Text → Option Nat} {size : Nat}
    (h : find c.rest = some size) : c.passMatch find = c.advance size := by
  rw [passMatch, h]

theorem passMatch_of_none {c : Cursor} {find : Text → Option Nat} (h : find c.rest = none) :
    c.passMatch find = c := by
  rw [passMatch, h]

/-- **A match is passed up to its end**, whatever the search for it. -/
theorem Placed.takesMatch {c : Cursor} (h : c.Placed) {m : Matcher γ}
    {found : Text → Span → Prop} (hm : m.Finds found) (hanchored : Matcher.Anchored found) :
    c.TakesMatch m found (m.captures? c.rest) (c.passMatch m.size?) := by
  have hupcoming := Guarded.leads_upcomingBy h m
  cases hcaptures : m.captures? c.rest with
  | none =>
    have hsize : m.size? c.rest = none := Option.map_eq_none_iff.2 hcaptures
    have hno : m.isMatch c.rest = false := by
      rw [Bool.eq_false_iff]
      intro hyes
      obtain ⟨span, hfound⟩ := (hm.isMatch_iff _).1 hyes
      exact hm.not_found _ hcaptures span hfound
    rw [passMatch_of_none hsize]
    rw [hno] at hupcoming
    refine ⟨Guarded.leads_takeMatchBy_none h hcaptures, hupcoming, fun _ => rfl, ?_⟩
    intro captures hsome
    cases hsome
  | some captures =>
    have hsize : m.size? c.rest = some (m.size captures) :=
      Option.map_eq_some_iff.2 ⟨captures, hcaptures, rfl⟩
    obtain ⟨span, hwhole, hfound⟩ := hm.whole _ _ hcaptures
    rw [passMatch_of_some hsize]
    rw [(hm.isMatch_iff _).2 ⟨span, hfound⟩] at hupcoming
    refine ⟨Guarded.leads_takeMatchBy_some h hcaptures, hupcoming, ?_, ?_⟩
    · intro hnone
      cases hnone
    · intro captures' hsome
      cases hsome
      obtain ⟨hstart, taken, after, hrest, hstop⟩ := hanchored _ _ hfound
      have hbytes : m.size captures = taken.byteSize := by
        rw [Matcher.size, hwhole, hstop]
        rfl
      have hstrides := h.strides hrest
      rw [← advance_byteSize hrest, ← hbytes] at hstrides
      refine ⟨span, taken, hwhole, hfound, ?_, ?_, hstrides⟩
      · rw [← hstop]
        exact hstrides.index_eq
      · rw [hstart, ← hstop, hrest]
        exact Text.slice?_left taken after

end Cursor

/-! ## 4. The words of a pattern -/

namespace Pattern

/-- The words that a pattern asks for, whichever of them it prefers. -/
inductive Accepts : Pattern → Text → Prop where
  | empty : Accepts .empty []
  | one {cls : Char → Bool} {ch : Char} : cls ch = true → Accepts (.one cls) [ch]
  | many {cls : Char → Bool} {run : Text} : (∀ ch ∈ run, cls ch = true) → Accepts (.many cls) run
  | seq {p q : Pattern} {u v : Text} : Accepts p u → Accepts q v → Accepts (.seq p q) (u ++ v)
  | first {p q : Pattern} {u : Text} : Accepts p u → Accepts (.alt p q) u
  | second {p q : Pattern} {u : Text} : Accepts q u → Accepts (.alt p q) u
  | group {p : Pattern} {u : Text} : Accepts p u → Accepts (.group p) u

/-- Every way to match takes a word of the pattern. -/
theorem accepts_of_mem_ways {p : Pattern} {s : Text} {m : Match} (h : m ∈ p.ways s) :
    p.Accepts (s.take m.width) := by
  induction p generalizing s m with
  | empty =>
    rw [ways, List.mem_singleton] at h
    rw [h]
    exact .empty
  | one cls =>
    cases s with
    | nil => cases h
    | cons ch rest =>
      simp only [ways] at h
      split at h
      case isTrue hch =>
        rw [List.mem_singleton.1 h]
        exact .one hch
      case isFalse => cases h
  | many cls =>
    simp only [ways, List.mem_map, List.mem_reverse, List.mem_range] at h
    obtain ⟨n, hn, rfl⟩ := h
    have htake : s.take n = (s.takeWhile cls).take n := by
      have hwhole := List.prefix_iff_eq_take.1 (List.takeWhile_prefix cls (l := s))
      rw [hwhole, List.take_take, Nat.min_eq_left (Nat.le_of_lt_succ hn)]
    refine .many fun ch hch => ?_
    dsimp only at hch
    rw [htake] at hch
    exact Text.of_mem_takeWhile (List.mem_of_mem_take hch)
  | seq p q ihp ihq =>
    simp only [ways, List.mem_flatMap, List.mem_map] at h
    obtain ⟨m₁, h₁, m₂, h₂, rfl⟩ := h
    show Accepts _ (s.take (m₁.width + m₂.width))
    rw [List.take_add]
    exact .seq (ihp h₁) (ihq h₂)
  | alt p q ihp ihq =>
    simp only [ways, List.mem_append, List.mem_map] at h
    rcases h with ⟨n, hn, rfl⟩ | ⟨n, hn, rfl⟩
    · have hword := ihp hn
      exact .first hword
    · have hword := ihq hn
      exact .second hword
  | group p ih =>
    simp only [ways, List.mem_map] at h
    obtain ⟨n, hn, rfl⟩ := h
    have hword := ih hn
    exact .group hword

/-- Every word of the pattern is a way to match where it stands. -/
theorem exists_way_of_accepts {p : Pattern} {word : Text} (h : p.Accepts word) (rest : Text) :
    ∃ m ∈ p.ways (word ++ rest), m.width = word.length := by
  induction h generalizing rest with
  | empty => exact ⟨⟨0, []⟩, List.mem_singleton_self _, rfl⟩
  | @one cls ch hch =>
    refine ⟨⟨1, []⟩, ?_, rfl⟩
    show _ ∈ if cls ch = true then _ else _
    rw [if_pos hch]
    exact List.mem_singleton_self _
  | @many cls run hrun =>
    have hle := (Text.prefix_takeWhile hrun (List.prefix_append run rest)).length_le
    refine ⟨⟨run.length, []⟩, ?_, rfl⟩
    simp only [ways, List.mem_map, List.mem_reverse, List.mem_range]
    exact ⟨run.length, Nat.lt_succ_of_le hle, rfl⟩
  | @seq p q u v _ _ ihp ihq =>
    obtain ⟨m₁, h₁, hwidth₁⟩ := ihp (v ++ rest)
    obtain ⟨m₂, h₂, hwidth₂⟩ := ihq rest
    refine ⟨⟨m₁.width + m₂.width, m₁.groups ++ m₂.groups⟩, ?_, ?_⟩
    · simp only [ways, List.mem_flatMap, List.mem_map]
      refine ⟨m₁, by rwa [List.append_assoc], m₂, ?_, rfl⟩
      rwa [hwidth₁, List.append_assoc, List.drop_left]
    · show m₁.width + m₂.width = _
      rw [hwidth₁, hwidth₂, List.length_append]
  | first _ ih =>
    obtain ⟨m, hm, hwidth⟩ := ih rest
    exact ⟨_, List.mem_append_left _ (List.mem_map_of_mem hm), hwidth⟩
  | second _ ih =>
    obtain ⟨m, hm, hwidth⟩ := ih rest
    exact ⟨_, List.mem_append_right _ (List.mem_map_of_mem hm), hwidth⟩
  | group _ ih =>
    obtain ⟨m, hm, hwidth⟩ := ih rest
    exact ⟨_, List.mem_map_of_mem hm, hwidth⟩

theorem accepts_of_match? {p : Pattern} {s : Text} {m : Match} (h : p.match? s = some m) :
    p.Accepts (s.take m.width) :=
  accepts_of_mem_ways (mem_ways_of_match? h)

/-- **A pattern is upcoming exactly where one of its words stands.** -/
theorem upcoming_iff {p : Pattern} {s : Text} :
    p.upcoming s = true ↔ ∃ word, p.Accepts word ∧ word <+: s := by
  unfold upcoming
  constructor
  · intro h
    obtain ⟨m, hm⟩ := Option.isSome_iff_exists.1 h
    exact ⟨_, accepts_of_match? hm, List.take_prefix _ _⟩
  · intro h
    obtain ⟨word, hword, rest, rfl⟩ := h
    obtain ⟨m, hm, -⟩ := exists_way_of_accepts hword rest
    rw [match?, List.isSome_head?]
    exact List.ne_nil_of_mem hm

/-- The search of a pattern. -/
def matcher (p : Pattern) : Matcher (List (Option Text)) where
  isMatch := p.upcoming
  captures? s := (p.match? s).map (·.captures s)
  whole? captures := (capture? captures 0).map fun word => ⟨0, word.byteSize⟩

/-- The spans of a text that are words of the pattern at its beginning. -/
def Found (p : Pattern) (s : Text) (span : Span) : Prop :=
  ∃ word, p.Accepts word ∧ word <+: s ∧ span = ⟨0, word.byteSize⟩

theorem anchored_found (p : Pattern) : Matcher.Anchored p.Found := by
  intro s span h
  obtain ⟨word, -, ⟨rest, rfl⟩, rfl⟩ := h
  exact ⟨rfl, word, rest, rfl, rfl⟩

/-- **A pattern finds its words.** -/
theorem finds_matcher (p : Pattern) : p.matcher.Finds p.Found where
  isMatch_iff s := by
    show p.upcoming s = true ↔ _
    rw [upcoming_iff]
    constructor
    · intro h
      obtain ⟨word, hword, hpre⟩ := h
      exact ⟨_, word, hword, hpre, rfl⟩
    · intro h
      obtain ⟨span, word, hword, hpre, -⟩ := h
      exact ⟨word, hword, hpre⟩
  not_found s hnone span h := by
    obtain ⟨word, hword, hpre, -⟩ := h
    have hup := upcoming_iff.2 ⟨word, hword, hpre⟩
    rw [upcoming, Option.map_eq_none_iff.1 hnone] at hup
    cases hup
  whole s captures h := by
    obtain ⟨m, hm, rfl⟩ := Option.map_eq_some_iff.1 h
    exact ⟨_, rfl, _, accepts_of_match? hm, List.take_prefix _ _, rfl⟩

/-- Taking what the search of a pattern finds is taking what the pattern matches. -/
theorem takeMatchBy_matcher (p : Pattern) :
    Guarded.takeMatchBy p.matcher = Guarded.takeMatch p := by
  unfold Guarded.takeMatchBy Guarded.takeMatch
  congr 1
  funext ahead
  have hcaptures : p.matcher.captures? ahead = (p.match? ahead).map (·.captures ahead) := rfl
  rw [hcaptures]
  cases p.match? ahead with
  | none => rfl
  | some m => rfl

/-- A cursor takes what the search of the pattern finds. -/
theorem takeMatch_eq (p : Pattern) (c : Cursor) :
    c.takeMatch p = (p.matcher.captures? c.rest, c.passMatch p.matcher.size?) := by
  unfold Cursor.takeMatch
  cases hmatch : p.match? c.rest with
  | none =>
    have hcaptures : p.matcher.captures? c.rest = none := Option.map_eq_none_iff.2 hmatch
    rw [hcaptures, Cursor.passMatch_of_none (Option.map_eq_none_iff.2 hcaptures)]
  | some m =>
    have hcaptures : p.matcher.captures? c.rest = some (m.captures c.rest) :=
      Option.map_eq_some_iff.2 ⟨m, hmatch, rfl⟩
    have hpass : c.passMatch p.matcher.size? = c.advance (Text.byteSize (c.rest.take m.width)) :=
      Cursor.passMatch_of_some (Option.map_eq_some_iff.2 ⟨_, hcaptures, rfl⟩)
    rw [hcaptures, hpass, Cursor.advance_of_match? hmatch]

end Pattern

/-! ## 5. Long moves -/

namespace Cursor

open Guarded (Leads)

/-- **A run is passed up to the first character that does not belong to it.** -/
theorem Placed.strides_takeWhile {c : Cursor} (h : c.Placed) (keep : Char → Bool) :
    c.Strides (c.rest.takeWhile keep) (c.takeWhile keep).2 ∧
      Stops keep (c.takeWhile keep).2.rest := by
  have hrest := (List.takeWhile_append_dropWhile (p := keep) (l := c.rest)).symm
  refine ⟨h.strides hrest, ?_⟩
  show Stops keep (c.skip (c.rest.takeWhile keep).length).rest
  rw [rest_skip, Text.drop_length_takeWhile]
  exact Text.stops_dropWhile keep c.rest

/-- Nothing is passed exactly if the offset stays. -/
theorem Strides.eq_nil_iff {c c' : Cursor} {taken : Text} (h : c.Strides taken c') :
    taken = [] ↔ c'.index = c.index := by
  rw [h.index_eq, ← Text.byteSize_eq_zero]
  omega

/-- **Every long move is a number of single steps.** Passing bytes leads to the least character
boundary that is not before them, or to the end; taking a match, found by whatever search, leads to
its end, and one is upcoming exactly if one is taken; taking a run leads to the first character that
does not belong to it, and gives what was passed, or nothing if nothing was. Each of these loops
leads to where taking the characters in between leads, one after another. -/
theorem strides_are_steps {text : Text} {line : Nat} {c : Cursor} (h : Reached text line c) :
    (∀ n, ∃ taken c', (Operation.advance n).run c = (.done, c') ∧
      Leads (Guarded.advance n) c (.ok ()) c' ∧ c.Strides taken c' ∧
      IsLeast {i | text.IsBoundary i ∧ min (c.index + n) text.byteSize ≤ i} c'.index) ∧
    (∀ (γ : Type) (m : Matcher γ) (found : Text → Span → Prop), m.Finds found →
      Matcher.Anchored found → ∃ c', c.TakesMatch m found (m.captures? c.rest) c') ∧
    (∀ p : Pattern, Guarded.takeMatchBy p.matcher = Guarded.takeMatch p ∧
      ∃ answer c', (Operation.takeMatch p).run c = (.captures answer, c') ∧
        (Operation.upcomingPattern p).run c = (.verdict answer.isSome, c) ∧
        c.TakesMatch p.matcher p.Found answer c') ∧
    ∀ keep : Char → Bool, ∃ answer taken c', (Operation.takeWhile keep).run c = (.text answer, c') ∧
      Leads (Guarded.takeWhile keep) c (.ok answer) c' ∧ c.Strides taken c' ∧
      (∀ ch ∈ taken, keep ch = true) ∧ Stops keep c'.rest ∧
      (answer = none ↔ c'.index = c.index) ∧ ∀ s, answer = some s → s = taken := by
  obtain ⟨passed, hpassed⟩ := h.passed
  have hplaced : c.Placed := ⟨line, passed, hpassed.text_eq ▸ hpassed⟩
  refine ⟨fun n => ?_, fun γ m found hm hanchored => ?_, fun p => ?_, fun keep => ?_⟩
  · obtain ⟨taken, hstrides⟩ := hplaced.strides_advance n
    exact ⟨taken, _, rfl, Guarded.leads_advance hplaced n, hstrides, hpassed.isLeast_advance n⟩
  · exact ⟨_, hplaced.takesMatch hm hanchored⟩
  · have htakes := hplaced.takesMatch p.finds_matcher p.anchored_found
    refine ⟨p.takeMatchBy_matcher, _, _, ?_, ?_, htakes⟩
    · rw [Operation.run, p.takeMatch_eq]
      rfl
    · show (Answer.verdict (p.match? c.rest).isSome, c) = _
      rw [← Option.isSome_map]
      rfl
  · obtain ⟨hstrides, hstops⟩ := hplaced.strides_takeWhile keep
    have hanswer : (c.takeWhile keep).1 =
        if c.rest.takeWhile keep = [] then none else some (c.rest.takeWhile keep) := rfl
    refine ⟨(c.takeWhile keep).1, c.rest.takeWhile keep, (c.takeWhile keep).2, rfl,
      Guarded.leads_takeWhile hplaced keep, hstrides, fun ch => Text.of_mem_takeWhile, hstops,
      ?_, ?_⟩
    · rw [hanswer, ← hstrides.eq_nil_iff]
      split
      case isTrue hnil => exact iff_of_true rfl hnil
      case isFalse hne => exact iff_of_false (Option.some_ne_none _) hne
    · intro s hs
      rw [hanswer] at hs
      split at hs
      case isTrue => cases hs
      case isFalse => exact (Option.some.inj hs).symm

/-- A letter of two bytes, a newline, and a word with a colon. One byte is passed with all of the
letter; after the newline the word is matched up to its colon; and a run of no blanks is not
given. -/
theorem strides_are_steps_past_accent :
    (∃ taken c', (Operation.advance 1).run (.start "é\nab :c".toList 7) = (.done, c') ∧
      (Cursor.start "é\nab :c".toList 7).Strides taken c' ∧
      IsLeast {i | Text.IsBoundary "é\nab :c".toList i ∧ 1 ≤ i} c'.index) ∧
    (∃ c', ((Operation.advance 3).run (.start "é\nab :c".toList 7)).2.TakesMatch
      Pattern.label.matcher Pattern.label.Found (some [some "ab :".toList]) c') ∧
    ∃ taken c', (Operation.takeWhile isBlank).run (.start "é\nab :c".toList 7) =
      (.text none, c') ∧ (Cursor.start "é\nab :c".toList 7).Strides taken c' := by
  obtain ⟨hadvance, -, -, hwhile⟩ := strides_are_steps (.start : Reached "é\nab :c".toList 7 _)
  obtain ⟨-, hmatch, -, -⟩ := strides_are_steps
    (Reached.start.ask (.advance 3) : Reached "é\nab :c".toList 7 _)
  refine ⟨?_, ?_, ?_⟩
  · obtain ⟨taken, c', hrun, -, hstrides, hleast⟩ := hadvance 1
    exact ⟨taken, c', hrun, hstrides, hleast⟩
  · exact hmatch _ _ _ Pattern.label.finds_matcher Pattern.label.anchored_found
  · obtain ⟨answer, taken, c', hrun, -, hstrides, -⟩ := hwhile isBlank
    cases hrun
    exact ⟨taken, _, rfl, hstrides⟩

end Cursor

end GrammarLexer
