import Mathlib.Data.List.Basic
import Mathlib.Data.Nat.Digits.Defs
import GrammarLexer.Proofs.Diagnosis
import GrammarLexer.Proofs.Locations
import GrammarLexer.Proofs.LongestMatch

/-!
# Numbers

A run of digits is taken whole, and what counts is the number that it spells: leading zeros do no
harm, and the 64th power of two is the first number that is refused. This holds for the numbers of
declarations and rules and for those of placeholders in action code.

* `Text.decimal_eq_ofDigits` -- the number that digits spell, as a sum of powers of ten;
* `Operation.AsksFor.number` -- a number at a cursor, exact or refused;
* `Placeholder.WellFormed.longest_iff_stops` -- a placeholder with all of its digits is the longest
  one;
* `Code.Trail.pass_number`, `Code.Trail.refuse_number` -- its number is passed, or refused with the
  whole block;
* `Text.Parted`, `ReadsTo.parted` -- no item begins or ends inside a run of digits;
* `numbers_exact` -- **numbers are exact, and no run of digits is cut.**
-/

namespace GrammarLexer

open Decomposition (tokensFrom)
open Text (Stops IsRun)

/-! ## 1. The number that digits spell -/

theorem Text.decimal_append_singleton (digits : Text) (ch : Char) :
    decimal (digits ++ [ch]) = 10 * decimal digits + (ch.toNat - '0'.toNat) := by
  simp [decimal]

/-- **Digits spell the sum of their values**, each times a power of ten. -/
theorem Text.decimal_eq_ofDigits (digits : Text) :
    digits.decimal = Nat.ofDigits 10 (digits.reverse.map fun ch => ch.toNat - '0'.toNat) := by
  induction digits using List.reverseRecOn with
  | nil => rfl
  | append_singleton digits ch ih =>
    rw [decimal_append_singleton, ih, List.reverse_append, List.reverse_singleton,
      List.singleton_append, List.map_cons, Nat.ofDigits_cons]
    exact Nat.add_comm _ _

theorem Text.wordLimit_eq : wordLimit = 2 ^ 64 := by decide

/-! ## 2. Numbers at a cursor -/

/-- **A run of digits is read as the number that it spells, or refused**, and is passed either
way. -/
theorem Operation.AsksFor.number {op : Operation} (hop : op.AsksFor .number) {c : Cursor}
    {digits rest : Text} (hrest : c.rest = digits ++ rest) (hrun : IsRun Char.isDigit digits)
    (hstops : Stops Char.isDigit rest) :
    ∃ c', c.Passes digits c' ∧
      op.run c = (.outcome (if digits.decimal < 2 ^ 64 then
          .lexed .number (.number digits.decimal) c.position
        else .errant (.unknownToken digits ⟨c.position, c.snippet⟩)), c') := by
  rw [← Text.wordLimit_eq]
  by_cases hfits : digits.decimal < Text.wordLimit
  · obtain ⟨c', hrun', hpasses⟩ := hop.run_ok hrest (Lexes.lex?_number hrun hfits hstops)
    exact ⟨c', hpasses, by rw [hrun', if_pos hfits]⟩
  · have hlex := lex?_tooLarge hrun hstops (Nat.le_of_not_lt hfits)
    rw [← hrest] at hlex
    refine ⟨_, Cursor.passes_skip hrest, ?_⟩
    rw [hop.run_eq hlex, if_neg hfits]
    rfl

/-! ## 3. Numbers in action code -/

/-- Where digits stand, no target is longer than all of them. -/
theorem SpellsTarget.length_le {word digits after : Text} {target : ReferenceTarget}
    (h : SpellsTarget word target) (hrun : IsRun Char.isDigit digits)
    (hstops : Stops Char.isDigit after) (hpre : word <+: digits ++ after) :
    word.length ≤ digits.length := by
  cases h with
  | whole => exact List.length_pos_iff.2 hrun.1
  | index hrun' =>
    have hle := Text.prefix_takeWhile hrun'.2 hpre
    rw [Text.takeWhile_append_of_stops hrun.2 hstops] at hle
    exact hle.length_le

namespace Placeholder.WellFormed

variable {p q : Placeholder} {after : Text}

/-- Two placeholders that begin at one place have the same sigil and the same tag. -/
theorem form_and_tag_eq (hp : p.WellFormed) (hq : q.WellFormed)
    (hpre : q.text <+: p.text ++ after) : q.form = p.form ∧ q.tag = p.tag := by
  have hform : q.form = p.form := hq.hasForm.unique hp.hasForm hpre (List.prefix_append _ _)
  refine ⟨hform, ?_⟩
  obtain ⟨form, tag, digits⟩ := p
  obtain ⟨form', tag', digits'⟩ := q
  cases hform
  have htarget := spellsTarget_of_digits hp.digits
  have htarget' := spellsTarget_of_digits hq.digits
  obtain ⟨rest, hrest⟩ := (List.cons_prefix_cons.1 hpre).2
  -- a tag begins with a bracket, and a target does not
  cases tag with
  | none =>
    cases tag' with
    | none => rfl
    | some raw' =>
      have hraw' := (hq.tag raw' rfl).1
      refine absurd ?_ (htarget.not_prefix_tag (s := digits'.getD ['$'] ++ rest) hraw')
      exact ⟨after, by simpa using hrest.symm⟩
  | some raw =>
    have hraw := (hp.tag raw rfl).1
    cases tag' with
    | none =>
      refine absurd ?_ (htarget'.not_prefix_tag (s := digits.getD ['$'] ++ after) hraw)
      exact ⟨rest, by simpa using hrest⟩
    | some raw' =>
      have heq : raw' ++ (digits'.getD ['$'] ++ rest) = raw ++ (digits.getD ['$'] ++ after) := by
        simpa using hrest
      rw [((hq.tag raw' rfl).1.unique hraw heq).1]

/-- One digit more makes a longer placeholder. -/
theorem append_digit (hp : p.WellFormed) {digits : Text} (hdigits : p.digits = some digits)
    {ch : Char} (hch : ch.isDigit = true) : IsPlaceholder (p.text ++ [ch]) := by
  have hlonger : WellFormed { p with digits := some (digits ++ [ch]) } := by
    refine ⟨hp.tag, ?_⟩
    rintro _ ⟨⟩
    exact (goesOnWith_isRun _).goesOn (hp.digits digits hdigits) hch
  have htext : text { p with digits := some (digits ++ [ch]) } = p.text ++ [ch] := by
    simp [text, hdigits]
  rw [← htext]
  exact hlonger.isPlaceholder

/-- **A placeholder with a number is the longest one where no digit follows it.** -/
theorem longest_iff_stops (hp : p.WellFormed) {digits : Text} (hdigits : p.digits = some digits) :
    Longest IsPlaceholder p.text (p.text ++ after) ↔ Stops Char.isDigit after := by
  constructor
  · intro hlong
    cases after with
    | nil => rfl
    | cons ch after =>
      refine Text.stops_cons.2 (Bool.eq_false_iff.2 fun hch => ?_)
      have hlonger := hlong.longest _ (hp.append_digit hdigits hch) ⟨after, by simp⟩
      rw [List.length_append, List.length_singleton] at hlonger
      omega
  · intro hstops
    refine ⟨hp.isPlaceholder, List.prefix_append _ _, fun other hother hpre => ?_⟩
    obtain ⟨q, hq, rfl⟩ := exists_wellFormed hother
    obtain ⟨hform, htag⟩ := hp.form_and_tag_eq hq hpre
    have hrun := hp.digits digits hdigits
    have htarget : q.digits.getD ['$'] <+: digits ++ after := by
      rw [text, text, hform, htag, hdigits, List.cons_append, List.cons_prefix_cons,
        List.append_assoc, List.prefix_append_right_inj] at hpre
      exact hpre.2
    have hlength := (spellsTarget_of_digits hq.digits).length_le hrun hstops htarget
    simp only [text, htag, hdigits, List.length_cons, List.length_append, Option.getD_some]
    omega

end Placeholder.WellFormed

namespace Code

theorem text_append (before more : Code) : text (before ++ more) = text before ++ text more :=
  List.flatMap_append

theorem referencesFrom_append (position : Position) (offset : Nat) (before more : Code) :
    referencesFrom position offset (before ++ more) =
      referencesFrom position offset before ++
        referencesFrom (position.after (text before)) (offset + (text before).byteSize) more := by
  induction before generalizing position offset with
  | nil => rfl
  | cons piece before ih =>
    rw [List.cons_append, referencesFrom, ih, referencesFrom, List.append_assoc, text_cons,
      Position.after_append, Text.byteSize_append, Nat.add_assoc]

/-- A placeholder among the pieces is a reference, at the bytes that it takes. -/
theorem reference_mem (position : Position) (before more : Code) (p : Placeholder) :
    p.reference (position.after (text before)) (text before).byteSize ∈
      references position (before ++ .placeholder p :: more) := by
  rw [references, referencesFrom_append, Nat.zero_add]
  exact List.mem_append_right _ List.mem_cons_self

variable {pieces : Code} {depth : Nat} {p : Placeholder} {digits after : Text}

/-- One piece more. -/
theorem Trail.concat {depth last next : Nat} {piece : Piece}
    (h : Trail depth pieces last (piece.text ++ after)) (hstands : piece.Stands after)
    (hdepth : piece.depthAfter? last = some next) : Trail depth (pieces ++ [piece]) next after := by
  generalize hrest : piece.text ++ after = rest at h
  induction h with
  | done => exact .step hstands hdepth .done
  | @step _ _ _ first more _ hfirst hnext _ ih =>
    have htext : text (more ++ [piece]) ++ after = text more ++ (piece.text ++ after) := by
      simp [text_append]
    refine .step ?_ hnext (ih hdepth hrest)
    rwa [List.append_eq, htext, hrest]

section

variable (htrail : Trail 0 pieces depth (p.text ++ after)) (hp : p.WellFormed)
  (hdigits : p.digits = some digits) (hstops : Stops Char.isDigit after)

include htrail hp hdigits hstops

/-- **A number that fits is passed**: the reading of the block goes on after the placeholder. -/
theorem Trail.pass_number (hfits : digits.decimal < Text.wordLimit) :
    Trail 0 (pieces ++ [.placeholder p]) depth after := by
  have hlong := (hp.longest_iff_stops hdigits).2 hstops
  have htarget : p.target.Fits := by
    rw [Placeholder.target, hdigits]
    exact hfits
  exact htrail.concat (.placeholder hp hlong htarget) rfl

/-- What the block is read as has the placeholder in it. -/
theorem Trail.exists_read (hfits : digits.decimal < Text.wordLimit) {code : Code}
    (hread : read ('{' :: (text pieces ++ (p.text ++ after))) = .ok code) :
    ∃ more, code = .opening :: pieces ++ .placeholder p :: more := by
  have htext : text pieces ++ (p.text ++ after) = text (pieces ++ [.placeholder p]) ++ after := by
    simp [text_append, Piece.text]
  rw [htext, read, if_pos rfl] at hread
  obtain ⟨all, hall, rfl⟩ := exists_of_map_eq_ok hread
  rw [(htrail.pass_number hp hdigits hstops hfits).readFrom] at hall
  obtain ⟨more, -, rfl⟩ := exists_of_map_eq_ok hall
  exact ⟨more, by simp⟩

/-- **A number that does not fit is refused with the whole block**, as a fault at the sigil. -/
theorem Trail.refuse_number (hlarge : Text.wordLimit ≤ digits.decimal) :
    read ('{' :: (text pieces ++ (p.text ++ after))) =
      .error (Fault.shift (1 + (text pieces).length) ⟨.unreadable digits, 0, p.text.length⟩) := by
  have hlong := (hp.longest_iff_stops hdigits).2 hstops
  have hfails : Piece.Fails (p.text ++ after) ⟨.unreadable digits, 0, p.text.length⟩ :=
    .placeholder hp hlong hdigits hlarge
  rw [read, if_pos rfl, readFrom_eq_error_iff.2 (.atPiece htrail hfails)]
  rfl

end

end Code

/-- **The number of a placeholder in action code is exact, or the code is refused.** The block
begins at `c`, and its reading comes to the placeholder at `here`. -/
theorem Operation.AsksFor.number_in_code {op : Operation} (hop : op.AsksFor .userCode) {c : Cursor}
    {pieces : Code} {depth : Nat} {p : Placeholder} {digits after : Text}
    (hrest : c.rest = '{' :: (Code.text pieces ++ (p.text ++ after)))
    (htrail : Code.Trail 0 pieces depth (p.text ++ after)) (hp : p.WellFormed)
    (hdigits : p.digits = some digits) (hstops : Stops Char.isDigit after) {here : Cursor}
    (hhere : here = c.skip (1 + (Code.text pieces).length)) :
    (digits.decimal < 2 ^ 64 → Code.Trail 0 (pieces ++ [.placeholder p]) depth after ∧
      ∀ form code position c', op.run c = (.outcome (.lexed form (.code code) position), c') →
        ∃ r ∈ code.references position, r.form = p.form ∧ r.tag.map Tag.raw = p.tag ∧
          r.target = .index digits.decimal ∧ c.index + r.span.start = here.index) ∧
    (2 ^ 64 ≤ digits.decimal → ∃ c', op.run c =
      (.outcome (.errant (.unknownToken digits ⟨here.position, here.snippet⟩)), c')) := by
  rw [← Text.wordLimit_eq]
  constructor
  · intro hfits
    refine ⟨htrail.pass_number hp hdigits hstops hfits, fun form code position c' hrun => ?_⟩
    have hread := (Operation.read_of_run (congrArg Prod.fst hrun)).1
    rw [hrest] at hread
    obtain ⟨more, rfl⟩ := htrail.exists_read hp hdigits hstops hfits hread
    refine ⟨_, Code.reference_mem position (.opening :: pieces) more p, rfl, ?_, ?_, ?_⟩
    · simp [Placeholder.reference, Function.comp_def]
    · rw [Placeholder.reference, Placeholder.target, hdigits]
    · have htake : c.rest.take (1 + (Code.text pieces).length) = '{' :: Code.text pieces := by
        rw [hrest, Nat.add_comm, List.take_succ_cons, List.take_left]
      rw [hhere, Cursor.index_skip, htake]
      rfl
  · intro hlarge
    have hread := htrail.refuse_number hp hdigits hstops hlarge
    have hlex : Form.userCode.lex? c.rest = some (.error
        (Fault.shift (1 + (Code.text pieces).length) ⟨.unreadable digits, 0, p.text.length⟩)) := by
      rw [hrest]
      refine Form.lex?_eq_some_iff.2 ⟨rfl, ?_⟩
      rw [Form.read, hread]
      rfl
    have herror : Fault.error
        (Fault.shift (1 + (Code.text pieces).length) ⟨.unreadable digits, 0, p.text.length⟩) c =
        .unknownToken digits ⟨here.position, here.snippet⟩ := by
      rw [Fault.error_shift, ← hhere]
      rfl
    rw [← herror]
    exact ⟨_, hop.run_eq hlex⟩

/-! ## 4. Runs of digits are not cut -/

/-- No run of the class goes on from the first text into the second. -/
def Text.Parted (cls : Char → Bool) (a b : Text) : Prop := a.getLast?.any cls = false ∨ Stops cls b

theorem Text.Parted.of_last {cls : Char → Bool} {ch : Char} (h : cls ch = false) (a b : Text) :
    Parted cls (a ++ [ch]) b := by
  left
  simp [h]

/-- Texts in a row: a run that goes on past the last of them began in it, or in the one before. -/
theorem Text.Parted.append {cls : Char → Bool} {a a' b : Text} (h : Parted cls a (a' ++ b))
    (h' : Parted cls a' b) : Parted cls (a ++ a') b := by
  cases a' with
  | nil => rwa [List.append_nil]
  | cons ch a' =>
    rwa [Parted, List.getLast?_append_cons]

theorem stops_isDigit {rest : Text} (h : Stops isNameChar rest) : Stops Char.isDigit rest := by
  cases rest with
  | nil => rfl
  | cons ch rest =>
    simp only [Text.stops_cons, isNameChar, Bool.or_eq_false_iff] at h ⊢
    exact h.1.2

/-- A lexeme that ends in a digit ends with its run: it is a number or a word. -/
theorem Lexes.parted {value : Lexeme} {word rest : Text} (h : Lexes value word rest) :
    Text.Parted Char.isDigit word rest := by
  cases h with
  | semicolon | bar => exact .inl rfl
  | number _ _ hstops => exact .inr hstops
  | name _ hstops | directive hstops | emptyRule hstops | extended _ hstops =>
    exact .inr (stops_isDigit hstops)
  | tag hraw =>
    obtain ⟨inner, rfl, -⟩ := hraw
    exact .of_last (by decide) ('<' :: inner) rest
  | label => exact .of_last (by decide) _ rest
  | code hblock =>
    obtain ⟨inner, hinner, -⟩ := hblock
    rw [hinner]
    exact .of_last (by decide) ('{' :: inner) rest
  | @string inner => exact .of_last (by decide) ('"' :: inner) rest
  | @comment inner =>
    have hrun : commentRun inner = commentOpening ++ inner ++ ['*'] ++ ['/'] := by
      simp [commentRun, commentClosing]
    rw [hrun]
    exact .of_last (by decide) _ rest
  | character hraw =>
    cases hraw with
    | @numeric digits => exact .of_last (by decide) ('\'' :: '\\' :: digits) rest
    | @escaped ch => exact .of_last (by decide) ['\'', '\\', ch] rest
    | @plain ch => exact .of_last (by decide) ['\'', ch] rest

/-- **No run of digits goes on from the items of a text into what follows them.** -/
theorem ReadsTo.parted {items : List Item} {s rest : Text} (h : ReadsTo items s rest) :
    Text.Parted Char.isDigit (items.flatMap Item.text) rest := by
  induction h with
  | done => exact .inl rfl
  | @blank ch _ s _ hblank hreads ih =>
    have hfirst : Text.Parted Char.isDigit [ch] s := .of_last (isDigit_of_isBlank hblank) [] s
    rw [hreads.text_eq] at hfirst
    exact hfirst.append ih
  | lexeme hlexes hreads ih =>
    have hfirst := hlexes.parted
    rw [hreads.text_eq] at hfirst
    exact hfirst.append ih

/-! ## 5. Tokens -/

/-- The numbers of a token, which was read from `word`: a number is what all the digits of the word
spell, and the target of a reference what all the digits of its placeholder spell. -/
structure Token.Exact (t : Token) (word : Text) : Prop where
  number : t.kind = .number →
    IsRun Char.isDigit word ∧ t.value = .number word.decimal ∧ word.decimal < 2 ^ 64
  reference : ∀ r ∈ t.references, ∀ n, r.target = .index n →
    ∃ (before : Text) (p : Placeholder) (digits after : Text),
      word = before ++ (p.text ++ after) ∧ r.span.start = before.byteSize ∧ p.WellFormed ∧
      p.form = r.form ∧ p.digits = some digits ∧ Stops Char.isDigit after ∧
      digits.decimal = n ∧ n < 2 ^ 64

theorem Lexes.number_of_kind {value : Lexeme} {word rest : Text} {position : Position} {t : Token}
    (h : Lexes value word rest) (ht : value.token? position = some t) (hkind : t.kind = .number) :
    IsRun Char.isDigit word ∧ t.value = .number word.decimal ∧ word.decimal < 2 ^ 64 := by
  cases h with
  | number hrun hfits _ =>
    cases ht
    exact ⟨hrun, rfl, hfits⟩
  | emptyRule | comment => cases ht
  | _ =>
    cases ht
    cases hkind

theorem Lexes.exact {value : Lexeme} {word rest : Text} {position : Position} {t : Token}
    (h : Lexes value word rest) (ht : value.token? position = some t) : t.Exact word where
  number := h.number_of_kind ht
  reference r hr n hn := by
    obtain ⟨block, hread, rfl, -, hr⟩ := h.exists_code ht hr
    obtain ⟨hscan, hfits⟩ := Code.scan_of_read hread position
    have hfits := hfits r hr
    obtain ⟨before, word, after, htext, hspan, hlong, hspells⟩ :=
      hscan.exists_word (List.mem_map_of_mem hr)
    obtain ⟨p, hp, rfl⟩ := Placeholder.exists_wellFormed hlong.mem
    -- the placeholder at the span is the one that the reference tells
    obtain ⟨hform, -, htarget⟩ := hp.spells.unique hspells
    simp only [Reference.outline, hn] at hform htarget hspan
    rw [hn] at hfits
    unfold Placeholder.target at htarget
    cases hdigits : p.digits with
    | none =>
      rw [hdigits] at htarget
      cases htarget
    | some digits =>
      rw [hdigits] at htarget
      have hstops := (hp.longest_iff_stops hdigits).1 hlong
      refine ⟨before, p, digits, after, ?_, ?_, hp, hform, hdigits, hstops,
        ReferenceTarget.index.inj htarget, hfits⟩
      · rw [htext, List.append_assoc]
      · rw [hspan, Nat.zero_add]

/-- **Numbers are exact, and no run of digits is cut.** Where a digit stands at a cursor, the
longest run of digits is passed, and its number is lexed if it is below the 64th power of two; else
the run is shown in an error at its first digit. Likewise in action code: where the reading comes to
a placeholder with a number, that number is the target of a reference, or the whole code is refused
with an error at the sigil. So in every scan, also one that fails, the number of a token and the
targets of its references are spelled by digits that go on no further, and no token begins or ends
inside a run of digits. -/
theorem numbers_exact :
    (∀ digits : Text, digits.decimal =
      Nat.ofDigits 10 (digits.reverse.map fun ch => ch.toNat - '0'.toNat)) ∧
    (∀ c : Cursor, c.rest.head?.any Char.isDigit = true →
      ∃ digits, Longest (IsRun Char.isDigit) digits c.rest ∧
        ∀ op : Operation, op.AsksFor .number → ∃ c', c.Passes digits c' ∧
          op.run c = (.outcome (if digits.decimal < 2 ^ 64 then
              .lexed .number (.number digits.decimal) c.position
            else .errant (.unknownToken digits ⟨c.position, c.snippet⟩)), c')) ∧
    (∀ (c : Cursor) (pieces : Code) (depth : Nat) (p : Placeholder) (digits after : Text),
      c.rest = '{' :: (Code.text pieces ++ (p.text ++ after)) →
      Code.Trail 0 pieces depth (p.text ++ after) → p.WellFormed → p.digits = some digits →
      Stops Char.isDigit after →
      ∃ here, c.Passes ('{' :: Code.text pieces) here ∧
        ∀ op : Operation, op.AsksFor .userCode →
          (digits.decimal < 2 ^ 64 → Code.Trail 0 (pieces ++ [.placeholder p]) depth after ∧
            ∀ form code position c',
              op.run c = (.outcome (.lexed form (.code code) position), c') →
              ∃ r ∈ code.references position, r.form = p.form ∧ r.tag.map Tag.raw = p.tag ∧
                r.target = .index digits.decimal ∧ c.index + r.span.start = here.index) ∧
          (2 ^ 64 ≤ digits.decimal → ∃ c', op.run c =
            (.outcome (.errant (.unknownToken digits ⟨here.position, here.snippet⟩)), c'))) ∧
    ∀ (lines : List Line), ∀ t ∈ (scanLines lines).tokens,
      ∃ pre value word rest, lines.flatMap Line.text = pre ++ (word ++ rest) ∧
        Lexes value word rest ∧ value.token? ((startOf lines).after pre) = some t ∧
        Text.Parted Char.isDigit pre (word ++ rest) ∧ Text.Parted Char.isDigit (pre ++ word) rest ∧
        t.Exact word := by
  refine ⟨Text.decimal_eq_ofDigits, fun c hdigit => ?_,
    fun c pieces depth p digits after hrest htrail hp hdigits hstops => ?_, fun lines t ht => ?_⟩
  · obtain ⟨ch, hhead, hch⟩ := (Option.any_eq_true _ _).1 hdigit
    obtain ⟨more, hmore⟩ := List.head?_eq_some_iff.1 hhead
    have hrun : IsRun Char.isDigit [ch] := ⟨List.cons_ne_nil _ _, by simpa using hch⟩
    obtain ⟨digits, rest, hrest, hlong, hstops⟩ :=
      (goesOnWith_isRun Char.isDigit).exists_longest hrun ⟨more, hmore.symm⟩
    exact ⟨digits, hlong, fun op hop => hop.number hrest hlong.mem hstops⟩
  · have hpasses : c.Passes ('{' :: Code.text pieces) _ := Cursor.passes_skip hrest
    refine ⟨_, hpasses, fun op hop => hop.number_in_code hrest htrail hp hdigits hstops ?_⟩
    rw [List.length_cons, Nat.add_comm]
  · rw [tokens_scanLines] at ht
    obtain ⟨last, hreads⟩ := exists_readsTo_decompose (lines.flatMap Line.text)
    obtain ⟨before, value, word, -, rest, -, hbefore, hlexes, htoken⟩ := hreads.exists_lexeme ht
    exact ⟨_, value, word, rest, hbefore.text_eq, hlexes, htoken, hbefore.parted,
      hbefore.parted.append hlexes.parted, hlexes.exact htoken⟩

/-- The largest number with a zero in front at a cursor, the next larger one in a placeholder with a
tag, and a number after a name that ends in a digit. -/
theorem numbers_exact_at_limit :
    (∃ digits, Longest (IsRun Char.isDigit) digits "018446744073709551615x".toList ∧
      ∀ op : Operation, op.AsksFor .number →
        ∃ c', (Cursor.start "018446744073709551615x".toList 1).Passes digits c' ∧
          op.run (.start "018446744073709551615x".toList 1) =
            (.outcome (if digits.decimal < 2 ^ 64 then
              .lexed .number (.number digits.decimal) ⟨1, 1⟩
            else .errant (.unknownToken digits ⟨⟨1, 1⟩, "018446744073709551615x".toList⟩)), c')) ∧
    (∃ here, (Cursor.start "\x7b$<t>18446744073709551616\x7d".toList 1).Passes ['{'] here ∧
      ∃ c', (Operation.lex .userCode).run (.start "\x7b$<t>18446744073709551616\x7d".toList 1) =
        (.outcome (.errant (.unknownToken "18446744073709551616".toList
          ⟨here.position, here.snippet⟩)), c')) ∧
    (⟨.number, .number 7, ⟨1, 4⟩, []⟩ : Token) ∈ (scanLines [⟨"a1 07|".toList, 1⟩]).tokens ∧
    ∃ pre value word rest, "a1 07|".toList = pre ++ (word ++ rest) ∧ Lexes value word rest ∧
      value.token? (Position.after ⟨1, 1⟩ pre) = some ⟨.number, .number 7, ⟨1, 4⟩, []⟩ ∧
      Text.Parted Char.isDigit pre (word ++ rest) ∧ Text.Parted Char.isDigit (pre ++ word) rest ∧
      Token.Exact ⟨.number, .number 7, ⟨1, 4⟩, []⟩ word := by
  obtain ⟨-, hcursor, hcode, hscan⟩ := numbers_exact
  refine ⟨hcursor (.start "018446744073709551615x".toList 1) rfl, ?_, ?_⟩
  · have hp : Placeholder.WellFormed
        ⟨.value, some "<t>".toList, some "18446744073709551616".toList⟩ := by
      constructor
      · rintro _ ⟨⟩
        exact ⟨⟨['t'], rfl, by decide, List.all_eq_true.1 rfl⟩, rfl⟩
      · rintro _ ⟨⟩
        exact ⟨by decide, List.all_eq_true.1 rfl⟩
    obtain ⟨here, hpasses, hrun⟩ :=
      hcode (.start "\x7b$<t>18446744073709551616\x7d".toList 1) [] 0 _ _ ['}'] rfl .done hp rfl rfl
    exact ⟨here, hpasses, (hrun _ (.inl rfl)).2 (by decide)⟩
  · have hname : Lexes (.identifier "a1".toList false) "a1".toList " 07|".toList :=
      .name ⟨'a', ['1'], rfl, rfl, List.all_eq_true.1 rfl⟩ rfl (by decide)
    have hnumber : Lexes (.number (Text.decimal "07".toList)) "07".toList ['|'] :=
      .number ⟨by decide, List.all_eq_true.1 rfl⟩ (by decide) rfl
    have hreads : Reads _ "a1 07|".toList :=
      .lexeme hname (.blank rfl (.lexeme hnumber (.lexeme .bar .done)))
    have htoken : (⟨.number, .number 7, ⟨1, 4⟩, []⟩ : Token) ∈
        (scanLines [⟨"a1 07|".toList, 1⟩]).tokens := by
      rw [tokens_scanLines]
      change _ ∈ tokensFrom ⟨1, 1⟩ (decompose "a1 07|".toList).items
      rw [hreads.decompose]
      exact List.mem_cons_of_mem _ List.mem_cons_self
    exact ⟨htoken, hscan [⟨"a1 07|".toList, 1⟩] _ htoken⟩

end GrammarLexer
