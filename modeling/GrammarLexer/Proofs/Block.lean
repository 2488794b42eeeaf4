import GrammarLexer.Proofs.Pieces
import GrammarLexer.Session

/-!
# Blocks of action code

What a block is, said without a reader: braces around items, an item being a block again, a quoted
run, a comment or any other character. The reader has one counter in place of this nesting, and
finds the same blocks.

* `Items`, `IsBlock` -- the nested grammar;
* `Closes` -- the same with a counter: what closes a block in which some inner blocks are open;
* `isBlock_iff` -- **the counter stands for the nesting**;
* `IndicesFit` -- every number of a placeholder in the text fits into 64 bits;
* `Operation.lexes_code_iff_block` -- **where action code is lexed**, and what is taken.

A beginning of a text is a block in one way at most (`Closes.unique`), and every block has a scan
for references (`Closes.exists_scan`).
-/

namespace GrammarLexer

/-! ## 1. The nested grammar -/

/-- A character that is an item by itself: no brace and no quote. -/
def isPlain (ch : Char) : Bool := !isQuote ch && ch != '{' && ch != '}'

/-- What stands between the braces of a block. -/
inductive Items : Text → Prop where
  | nil : Items []
  | block {inner rest : Text} : Items inner → Items rest → Items ('{' :: (inner ++ '}' :: rest))
  | quoted {mark : Char} {inner rest : Text} : isQuote mark = true → mark ∉ inner → Items rest →
      Items (quotedRun mark inner ++ rest)
  | comment {inner rest : Text} : Text.EndsFirst commentClosing inner → Items rest →
      Items (commentRun inner ++ rest)
  | plain {ch : Char} {rest : Text} : isPlain ch = true → ¬ (ch = '/' ∧ rest.head? = some '*') →
      Items rest → Items (ch :: rest)

/-- A block: items between braces. -/
def IsBlock (b : Text) : Prop := ∃ inner, b = '{' :: (inner ++ ['}']) ∧ Items inner

/-! ## 2. The counter -/

/-- `Closes depth t`: the text `t` closes a block in which `depth` inner blocks are open, and ends
with the brace that does so. -/
inductive Closes : Nat → Text → Prop where
  | last : Closes 0 ['}']
  | leave {depth : Nat} {t : Text} : Closes depth t → Closes (depth + 1) ('}' :: t)
  | enter {depth : Nat} {t : Text} : Closes (depth + 1) t → Closes depth ('{' :: t)
  | quoted {depth : Nat} {mark : Char} {inner t : Text} : isQuote mark = true → mark ∉ inner →
      Closes depth t → Closes depth (quotedRun mark inner ++ t)
  | comment {depth : Nat} {inner t : Text} : Text.EndsFirst commentClosing inner →
      Closes depth t → Closes depth (commentRun inner ++ t)
  | plain {depth : Nat} {ch : Char} {t : Text} : isPlain ch = true →
      ¬ (ch = '/' ∧ t.head? = some '*') → Closes depth t → Closes depth (ch :: t)

/-- Items may stand before anything that closes, as long as it begins with a closing brace. -/
theorem Items.closes {inner t : Text} (h : Items inner) {depth : Nat}
    (ht : Closes depth ('}' :: t)) : Closes depth (inner ++ '}' :: t) := by
  induction h generalizing depth t with
  | nil => exact ht
  | @block inner rest _ _ ihinner ihrest =>
    have hrest := ihinner (.leave (ihrest ht))
    have htext : '{' :: (inner ++ '}' :: rest) ++ '}' :: t =
        '{' :: (inner ++ '}' :: (rest ++ '}' :: t)) := by simp
    rw [htext]
    exact .enter hrest
  | quoted hquote hmem _ ih =>
    rw [List.append_assoc]
    exact .quoted hquote hmem (ih ht)
  | comment hfirst _ ih =>
    rw [List.append_assoc]
    exact .comment hfirst (ih ht)
  | @plain ch rest hplain hnext _ ih =>
    refine .plain hplain (fun hstar => hnext ⟨hstar.1, ?_⟩) (ih ht)
    -- the closing brace is not the star that would open a comment
    cases rest with
    | nil => cases hstar.2
    | cons x rest => exact hstar.2

/-- Items and a closing brace, and the same once more for each inner block that is open. -/
inductive Levels : Nat → Text → Prop where
  | last {inner : Text} : Items inner → Levels 0 (inner ++ ['}'])
  | next {depth : Nat} {inner rest : Text} : Items inner → Levels depth rest →
      Levels (depth + 1) (inner ++ '}' :: rest)

/-- An item may be put in front of the first level, if the items allow it. -/
theorem Levels.prepend {depth : Nat} {w t : Text} (h : Levels depth t)
    (hw : ∀ inner rest, t = inner ++ '}' :: rest → Items inner → Items (w ++ inner)) :
    Levels depth (w ++ t) := by
  cases h with
  | last hitems =>
    rw [← List.append_assoc]
    exact .last (hw _ [] rfl hitems)
  | next hitems hrest =>
    rw [← List.append_assoc]
    exact .next (hw _ _ rfl hitems) hrest

/-- What closes a block runs through the levels that are open. -/
theorem Closes.levels {depth : Nat} {t : Text} (h : Closes depth t) : Levels depth t := by
  induction h with
  | last => exact .last .nil
  | leave _ ih => exact .next .nil ih
  | enter _ ih =>
    -- the inner block and the level around it become one level
    cases ih with
    | @next _ inner rest hinner hrest =>
      have := hrest.prepend (w := '{' :: (inner ++ ['}'])) fun more _ _ hmore => by
        simpa using Items.block hinner hmore
      simpa using this
  | quoted hquote hmem _ ih => exact ih.prepend fun _ _ _ hitems => .quoted hquote hmem hitems
  | comment hfirst _ ih => exact ih.prepend fun _ _ _ hitems => .comment hfirst hitems
  | @plain _ ch t hplain hnext _ ih =>
    refine ih.prepend (w := [ch]) fun inner rest ht hitems => .plain hplain ?_ hitems
    intro ⟨hslash, hstar⟩
    refine hnext ⟨hslash, ?_⟩
    rw [ht, List.head?_append, show inner.head? = some '*' from hstar]
    rfl

/-- **The counter stands for the nesting**: a block is an opening brace and what closes it. -/
theorem isBlock_iff {b : Text} : IsBlock b ↔ ∃ t, b = '{' :: t ∧ Closes 0 t := by
  constructor
  · intro h
    obtain ⟨inner, rfl, hinner⟩ := h
    exact ⟨inner ++ ['}'], rfl, hinner.closes .last⟩
  · intro h
    obtain ⟨t, rfl, ht⟩ := h
    cases ht.levels with
    | last hinner => exact ⟨_, rfl, hinner⟩

/-! ## 3. One block at most -/

theorem isPlain_iff {ch : Char} : isPlain ch = true ↔ isQuote ch = false ∧ ch ≠ '{' ∧ ch ≠ '}' := by
  simp [isPlain, and_assoc]

theorem not_commentOpening_iff {ch : Char} {s : Text} :
    ¬ commentOpening <+: ch :: s ↔ ¬ (ch = '/' ∧ s.head? = some '*') := by
  have hopen : commentOpening = ['/', '*'] := rfl
  cases s <;> simp [hopen, eq_comm]

namespace Closes

variable {depth : Nat} {t : Text}

theorem of_closing (h : Closes depth ('}' :: t)) :
    depth = 0 ∧ t = [] ∨ ∃ below, depth = below + 1 ∧ Closes below t := by
  generalize hs : '}' :: t = s at h
  cases h with
  | last =>
    cases hs
    exact .inl ⟨rfl, rfl⟩
  | @leave below _ hrest =>
    cases hs
    exact .inr ⟨below, rfl, hrest⟩
  | enter => cases hs
  | quoted hquote =>
    cases hs
    exact absurd hquote (by decide)
  | comment => cases hs
  | plain hplain =>
    cases hs
    exact absurd hplain (by decide)

theorem of_opening (h : Closes depth ('{' :: t)) : Closes (depth + 1) t := by
  generalize hs : '{' :: t = s at h
  cases h with
  | last => cases hs
  | leave => cases hs
  | enter hrest =>
    cases hs
    exact hrest
  | quoted hquote =>
    cases hs
    exact absurd hquote (by decide)
  | comment => cases hs
  | plain hplain =>
    cases hs
    exact absurd hplain (by decide)

theorem of_quoted {mark : Char} {inner : Text} (hmark : isQuote mark = true) (hinner : mark ∉ inner)
    (h : Closes depth (quotedRun mark inner ++ t)) : Closes depth t := by
  generalize hs : quotedRun mark inner ++ t = s at h
  cases h with
  | last =>
    obtain ⟨rfl, -⟩ := List.cons.inj hs
    exact absurd hmark (by decide)
  | leave =>
    obtain ⟨rfl, -⟩ := List.cons.inj hs
    exact absurd hmark (by decide)
  | enter =>
    obtain ⟨rfl, -⟩ := List.cons.inj hs
    exact absurd hmark (by decide)
  | quoted _ hinner' hrest =>
    obtain ⟨rfl, rfl, rfl⟩ := quotedRun_unique hinner hinner' hs
    exact hrest
  | comment => exact absurd hs (quotedRun_append_ne hmark)
  | plain hplain =>
    obtain ⟨rfl, -⟩ := List.cons.inj hs
    rw [(isPlain_iff.1 hplain).1] at hmark
    cases hmark

theorem of_comment {inner : Text} (hinner : Text.EndsFirst commentClosing inner)
    (h : Closes depth (commentRun inner ++ t)) : Closes depth t := by
  generalize hs : commentRun inner ++ t = s at h
  cases h with
  | last => cases hs
  | leave => cases hs
  | enter => cases hs
  | quoted hquote => exact absurd hs.symm (quotedRun_append_ne hquote)
  | comment hinner' hrest =>
    obtain ⟨rfl, rfl⟩ := commentRun_unique hinner hinner' hs
    exact hrest
  | plain _ hnext =>
    rw [← not_commentOpening_iff, ← hs] at hnext
    exact absurd (commentOpening_begins inner t) hnext

theorem of_plain {ch : Char} (hplain : isPlain ch = true) (hopen : ¬ commentOpening <+: ch :: t)
    (h : Closes depth (ch :: t)) : Closes depth t := by
  obtain ⟨hquote, hleft, hright⟩ := isPlain_iff.1 hplain
  generalize hs : ch :: t = s at h
  cases h with
  | last =>
    cases hs
    exact absurd rfl hright
  | leave =>
    cases hs
    exact absurd rfl hright
  | enter =>
    cases hs
    exact absurd rfl hleft
  | quoted hmark =>
    obtain ⟨rfl, -⟩ := List.cons.inj hs
    rw [hmark] at hquote
    cases hquote
  | comment =>
    rw [hs] at hopen
    exact absurd (commentOpening_begins _ _) hopen
  | plain _ _ hrest =>
    cases hs
    exact hrest

theorem not_nil : ¬ Closes depth [] := by
  intro h
  generalize hs : ([] : Text) = s at h
  cases h <;> cases hs

/-- What closes a block is over with the brace that does so. -/
theorem eq_nil_of_append {x : Text} (h : Closes depth t) (hx : Closes depth (t ++ x)) : x = [] := by
  induction h with
  | last =>
    rcases hx.of_closing with ⟨-, rfl⟩ | ⟨below, hbelow, -⟩
    · rfl
    · cases hbelow
  | leave _ ih =>
    rcases hx.of_closing with ⟨hzero, -⟩ | ⟨below, hbelow, hrest⟩
    · cases hzero
    · cases hbelow
      exact ih hrest
  | enter _ ih => exact ih hx.of_opening
  | quoted hquote hmem _ ih =>
    rw [List.append_assoc] at hx
    exact ih (hx.of_quoted hquote hmem)
  | comment hfirst _ ih =>
    rw [List.append_assoc] at hx
    exact ih (hx.of_comment hfirst)
  | @plain _ ch t hplain hnext hrest ih =>
    refine ih (hx.of_plain hplain (not_commentOpening_iff.2 fun hstar => hnext ⟨hstar.1, ?_⟩))
    -- the character that follows is in `t`, which is not empty
    cases t with
    | nil => exact absurd hrest not_nil
    | cons y t => exact hstar.2

/-- **At most one beginning of a text closes a block.** -/
theorem unique {s t' : Text} (h : Closes depth t) (h' : Closes depth t') (ht : t <+: s)
    (ht' : t' <+: s) : t = t' := by
  rcases List.prefix_or_prefix_of_prefix ht ht' with ⟨x, rfl⟩ | ⟨x, rfl⟩
  · rw [h.eq_nil_of_append h', List.append_nil]
  · rw [h'.eq_nil_of_append h, List.append_nil]

/-- Characters that are plain and open no comment may be put in front. -/
theorem prepend {w : Text} (hw : ∀ ch ∈ w, isPlain ch = true ∧ ch ≠ '/') (h : Closes depth t) :
    Closes depth (w ++ t) := by
  induction w with
  | nil => exact h
  | cons ch w ih =>
    obtain ⟨hplain, hslash⟩ := hw ch List.mem_cons_self
    exact .plain hplain (fun hstar => hslash hstar.1)
      (ih fun x hx => hw x (List.mem_cons_of_mem ch hx))

/-- They may also be taken away. -/
theorem of_prepend {w : Text} (hw : ∀ ch ∈ w, isPlain ch = true ∧ ch ≠ '/')
    (h : Closes depth (w ++ t)) : Closes depth t := by
  induction w with
  | nil => exact h
  | cons ch w ih =>
    obtain ⟨hplain, hslash⟩ := hw ch List.mem_cons_self
    refine ih (fun x hx => hw x (List.mem_cons_of_mem ch hx)) (h.of_plain hplain ?_)
    exact Piece.not_commentOpening_cons _ hslash

end Closes

/-- Every character of a placeholder is plain, and none opens a comment. -/
theorem IsPlaceholder.isPlain {word : Text} (h : IsPlaceholder word) :
    ∀ ch ∈ word, isPlain ch = true ∧ ch ≠ '/' := by
  intro ch hch
  have hchar := h.isPlaceholderChar ch hch
  refine ⟨isPlain_iff.2 ⟨Bool.eq_false_iff.2 fun hquote => ?_, ?_, ?_⟩, ?_⟩
  · rcases Piece.isQuote_iff.1 hquote with rfl | rfl
    · exact absurd hchar (by decide)
    · exact absurd hchar (by decide)
  · intro he
    subst he
    exact absurd hchar (by decide)
  · intro he
    subst he
    exact absurd hchar (by decide)
  · intro he
    subst he
    exact absurd hchar (by decide)

/-- A brace is nothing that a scan for references looks at. -/
theorem ReferenceScan.brace {offset : Nat} {ch : Char} {rest : Text} {found : List Outline}
    (hch : ch = '{' ∨ ch = '}') (h : ReferenceScan (offset + ch.utf8Size) rest found) :
    ReferenceScan offset (ch :: rest) found := by
  rcases hch with rfl | rfl
  · exact .other (by decide) (Piece.not_commentOpening_cons _ (by decide))
      (noPlaceholder_cons _ (by decide) (by decide)) h
  · exact .other (by decide) (Piece.not_commentOpening_cons _ (by decide))
      (noPlaceholder_cons _ (by decide) (by decide)) h

/-! ## 4. The reader follows the counter -/

@[simp] theorem Placeholder.outline_reference (p : Placeholder) (position : Position)
    (offset : Nat) : (p.reference position offset).outline =
      ⟨p.form, p.target, p.tag, ⟨offset, offset + p.text.byteSize⟩⟩ := by
  simp [Placeholder.reference, Reference.outline, Function.comp_def]

namespace Code

variable {depth : Nat} {pieces : Code} {after : Text}

/-- A piece of a chain stands before the rest of the chain, whatever comes after that. -/
theorem Chain.stands {piece : Piece} (h : Chain depth pieces after)
    (hstands : piece.Stands (text pieces ++ after)) : piece.Stands (text pieces) := by
  obtain ⟨u, hu⟩ := h.text_eq
  rw [hu, List.append_assoc, List.singleton_append] at hstands
  rw [hu]
  exact hstands.change []

/-- A chain of pieces closes its block. -/
theorem Chain.closes (h : Chain depth pieces after) : Closes depth (text pieces) := by
  induction h with
  | last => exact .last
  | @step depth next piece more after hstands hdepth hchain ih =>
    cases hchain.stands hstands with
    | opening =>
      cases hdepth
      exact .enter ih
    | closing =>
      cases depth with
      | zero => cases hdepth
      | succ depth =>
        cases hdepth
        exact .leave ih
    | quoted hquote hmem =>
      cases hdepth
      exact .quoted hquote hmem ih
    | comment hfirst =>
      cases hdepth
      exact .comment hfirst ih
    | placeholder hp =>
      cases hdepth
      exact ih.prepend hp.isPlaceholder.isPlain
    | plain hquote hleft hright hopen =>
      cases hdepth
      exact .plain (isPlain_iff.2 ⟨hquote, hleft, hright⟩) (not_commentOpening_iff.1 hopen) ih

/-- **The references among the pieces are what a scan of their text finds**, and each fits. -/
theorem Chain.scan (h : Chain depth pieces after) (position : Position) (offset : Nat) :
    ReferenceScan offset (text pieces)
        ((referencesFrom position offset pieces).map Reference.outline) ∧
      ∀ r ∈ referencesFrom position offset pieces, r.target.Fits := by
  induction h generalizing position offset with
  | last => exact ⟨.brace (.inr rfl) .done, fun _ h => by cases h⟩
  | @step depth next piece more after hstands hdepth hchain ih =>
    obtain ⟨hscan, hfits⟩ := ih (position.after piece.text) (offset + piece.text.byteSize)
    cases hchain.stands hstands with
    | opening => exact ⟨.brace (.inl rfl) hscan, hfits⟩
    | closing => exact ⟨.brace (.inr rfl) hscan, hfits⟩
    | quoted hquote hmem => exact ⟨.quoted hquote hmem hscan, hfits⟩
    | comment hfirst => exact ⟨.comment hfirst hscan, hfits⟩
    | @placeholder p _ hp hlong htarget =>
      have hrefs : referencesFrom position offset (.placeholder p :: more) =
          p.reference position offset :: referencesFrom (position.after p.text)
            (offset + p.text.byteSize) more := rfl
      rw [hrefs, List.map_cons, Placeholder.outline_reference]
      refine ⟨.placeholder hlong hp.spells hscan, fun r hr => ?_⟩
      rcases List.mem_cons.1 hr with rfl | hr
      · exact htarget
      · exact hfits r hr
    | plain hquote hleft hright hopen hnone => exact ⟨.other hquote hopen hnone hscan, hfits⟩

/-- What closes a block and has only numbers that fit is a chain of pieces. -/
theorem exists_chain {t : Text} {offset : Nat} {found : List Outline}
    (hscan : ReferenceScan offset t found) (hfits : ∀ o ∈ found, o.target.Fits)
    (hcloses : Closes depth t) : ∃ pieces, text pieces = t ∧ Chain depth pieces [] := by
  induction hscan generalizing depth with
  | done => exact absurd hcloses Closes.not_nil
  | quoted hquote hmem _ ih =>
    obtain ⟨more, rfl, hchain⟩ := ih hfits (hcloses.of_quoted hquote hmem)
    exact ⟨.quoted _ _ :: more, rfl, .step (.quoted hquote hmem) rfl hchain⟩
  | comment hfirst _ ih =>
    obtain ⟨more, rfl, hchain⟩ := ih hfits (hcloses.of_comment hfirst)
    exact ⟨.comment _ :: more, rfl, .step (.comment hfirst) rfl hchain⟩
  | @placeholder _ word rest form tag target found hlong hspells _ ih =>
    have hword := hlong.mem
    obtain ⟨more, rfl, hchain⟩ := ih (fun o ho => hfits o (List.mem_cons_of_mem _ ho))
      (hcloses.of_prepend hword.isPlain)
    obtain ⟨p, hp, rfl⟩ := Placeholder.exists_wellFormed hword
    obtain ⟨-, -, rfl⟩ := hspells.unique hp.spells
    refine ⟨.placeholder p :: more, rfl, .step (.placeholder hp ?_ ?_) rfl hchain⟩
    · rw [List.append_nil]
      exact hlong
    · exact hfits _ List.mem_cons_self
  | @other _ ch rest found hquote hopen hnone _ ih =>
    by_cases hright : ch = '}'
    · subst hright
      rcases hcloses.of_closing with ⟨rfl, rfl⟩ | ⟨below, rfl, hbelow⟩
      · exact ⟨[.closing], rfl, .last⟩
      · obtain ⟨more, rfl, hchain⟩ := ih hfits hbelow
        exact ⟨.closing :: more, rfl, .step .closing rfl hchain⟩
    by_cases hleft : ch = '{'
    · subst hleft
      obtain ⟨more, rfl, hchain⟩ := ih hfits hcloses.of_opening
      exact ⟨.opening :: more, rfl, .step .opening rfl hchain⟩
    · have hplain := isPlain_iff.2 ⟨hquote, hleft, hright⟩
      obtain ⟨more, rfl, hchain⟩ := ih hfits (hcloses.of_plain hplain hopen)
      refine ⟨.plain ch :: more, rfl, .step ?_ rfl hchain⟩
      rw [List.append_nil]
      exact .plain hquote hleft hright hopen hnone

end Code

/-- Whatever closes a block has a scan for references. -/
theorem Closes.exists_scan {depth : Nat} {t : Text} (h : Closes depth t) (offset : Nat) :
    ∃ found, ReferenceScan offset t found := by
  induction hn : t.length using Nat.strongRecOn generalizing depth t offset with
  | ind n ih =>
    subst hn
    cases h with
    | last => exact ⟨[], .brace (.inr rfl) .done⟩
    | leave h =>
      obtain ⟨found, hscan⟩ := ih _ (Nat.lt_succ_self _) h _ rfl
      exact ⟨found, .brace (.inr rfl) hscan⟩
    | enter h =>
      obtain ⟨found, hscan⟩ := ih _ (Nat.lt_succ_self _) h _ rfl
      exact ⟨found, .brace (.inl rfl) hscan⟩
    | @quoted _ mark inner t hquote hmem h =>
      obtain ⟨found, hscan⟩ := ih _ (by simp [quotedRun]; omega) h
        (offset + (quotedRun mark inner).byteSize) rfl
      exact ⟨found, .quoted hquote hmem hscan⟩
    | @comment _ inner t hfirst h =>
      obtain ⟨found, hscan⟩ := ih _ (by simp [commentRun, commentOpening]; omega) h
        (offset + (commentRun inner).byteSize) rfl
      exact ⟨found, .comment hfirst hscan⟩
    | @plain _ ch t hplain hnext h =>
      rcases Placeholder.lex?_cases (ch :: t) with ⟨hnone, -⟩ | ⟨p, hp, hlong, -⟩
      · obtain ⟨found, hscan⟩ := ih _ (Nat.lt_succ_self _) h (offset + ch.utf8Size) rfl
        exact ⟨found, .other (isPlain_iff.1 hplain).1 (not_commentOpening_iff.2 hnext) hnone hscan⟩
      · -- a placeholder begins here: go on after it
        obtain ⟨rest, hrest⟩ := hlong.isPrefix
        have hpos := List.length_pos_iff.2 hp.isPlaceholder.ne_nil
        have hcloses : Closes depth (p.text ++ rest) := by
          rw [hrest]
          exact .plain hplain hnext h
        have hlen : rest.length < (ch :: t).length := by
          rw [← hrest, List.length_append]
          omega
        obtain ⟨found, hscan⟩ := ih _ hlen (hcloses.of_prepend hp.isPlaceholder.isPlain)
          (offset + p.text.byteSize) rfl
        rw [← hrest] at hlong ⊢
        exact ⟨_, .placeholder hlong hp.spells hscan⟩

/-! ## 5. Reading blocks -/

/-- Every number of a placeholder in the text fits into 64 bits. -/
def IndicesFit (b : Text) : Prop := ∃ found, ReferenceScan 0 b found ∧ ∀ o ∈ found, o.target.Fits

theorem IsBlock.unique {b b' s : Text} (h : IsBlock b) (h' : IsBlock b') (hb : b <+: s)
    (hb' : b' <+: s) : b = b' := by
  obtain ⟨t, rfl, ht⟩ := isBlock_iff.1 h
  obtain ⟨t', rfl, ht'⟩ := isBlock_iff.1 h'
  obtain ⟨rest, rfl⟩ := hb
  rw [ht.unique ht' (List.prefix_append t rest) (List.cons_prefix_cons.1 hb').2]

theorem IsBlock.exists_scan {b : Text} (h : IsBlock b) : ∃ found, ReferenceScan 0 b found := by
  obtain ⟨t, rfl, ht⟩ := isBlock_iff.1 h
  obtain ⟨found, hscan⟩ := ht.exists_scan (0 + '{'.utf8Size)
  exact ⟨found, .brace (.inl rfl) hscan⟩

namespace Code

/-- The references of a block are what a scan of its text finds, and each fits. -/
theorem scan_of_read {s : Text} {code : Code} (h : read s = .ok code) (position : Position) :
    ReferenceScan 0 code.text ((code.references position).map Reference.outline) ∧
      ∀ r ∈ code.references position, r.target.Fits := by
  obtain ⟨more, after, rfl, -, hchain⟩ := read_eq_ok_iff.1 h
  obtain ⟨hscan, hfits⟩ := hchain.scan (position.after ['{']) (0 + '{'.utf8Size)
  exact ⟨.brace (.inl rfl) hscan, hfits⟩

/-- **What is read is a block** at the start of the text, with numbers that fit. -/
theorem isBlock_of_read {s : Text} {code : Code} (h : read s = .ok code) :
    code.text <+: s ∧ IsBlock code.text ∧ IndicesFit code.text := by
  obtain ⟨hscan, hfits⟩ := scan_of_read h ⟨1, 1⟩
  obtain ⟨more, after, rfl, rfl, hchain⟩ := read_eq_ok_iff.1 h
  refine ⟨List.prefix_append _ _, isBlock_iff.2 ⟨text more, rfl, hchain.closes⟩, _, hscan, ?_⟩
  intro o ho
  obtain ⟨r, hr, rfl⟩ := List.mem_map.1 ho
  exact hfits r hr

/-- **A block with numbers that fit is read**, as the same pieces whatever follows it. -/
theorem exists_read {b : Text} (h : IsBlock b) (hfits : IndicesFit b) :
    ∃ code : Code, code.text = b ∧ ∀ after, read (b ++ after) = .ok code := by
  obtain ⟨t, rfl, ht⟩ := isBlock_iff.1 h
  obtain ⟨found, hscan, hfound⟩ := hfits
  have hscan := hscan.of_other (by decide) (Piece.not_commentOpening_cons t (by decide))
    (noPlaceholder_cons t (by decide) (by decide))
  obtain ⟨more, rfl, hchain⟩ := exists_chain hscan hfound ht
  exact ⟨.opening :: more, rfl, fun after =>
    read_eq_ok_iff.2 ⟨more, after, rfl, rfl, hchain.change after⟩⟩

end Code

/-! ## 6. Cursors -/

namespace Cursor

@[simp] theorem index_bump (c : Cursor) :
    c.bump.index = c.index + Text.byteSize (c.rest.take 1) := by
  unfold bump
  split
  case h_1 h => simp [h]
  case h_2 h =>
    dsimp only
    split <;> simp [h]

/-- The byte offset moves by the size of what is passed. -/
theorem index_skip (c : Cursor) (n : Nat) :
    (c.skip n).index = c.index + Text.byteSize (c.rest.take n) := by
  induction n generalizing c with
  | zero => simp
  | succ n ih =>
    have htake : c.rest.take (n + 1) = c.rest.take 1 ++ (c.rest.drop 1).take n := by
      rw [Nat.add_comm, List.take_add]
    rw [skip, ih, index_bump, rest_bump, htake, Text.byteSize_append, Nat.add_assoc]

/-- The first of some forms reads if it starts, and else the others are tried. -/
theorem lexFirst_cons (c : Cursor) (form : Form) (forms : List Form) :
    c.lexFirst (form :: forms) =
      if form.startsHere c.rest = true then c.conclude form (form.read c.rest)
      else c.lexFirst forms := by
  unfold lexFirst
  rw [Form.lexFirst?, List.findSome?_cons, Form.lex?]
  by_cases hstarts : form.startsHere c.rest = true
  · rw [if_pos hstarts, if_pos hstarts]
    rfl
  · rw [if_neg hstarts, if_neg hstarts]
    rfl

end Cursor

/-! ## 7. Asking for a block -/

theorem Form.lex?_eq_some_iff {form : Form} {s : Text} {reading : Except Fault (Taken Lexeme)} :
    form.lex? s = some reading ↔ form.startsHere s = true ∧ form.read s = reading := by
  unfold lex?
  split <;> simp_all

/-- A block that can be read is lexed from its opening brace to its closing one. -/
theorem Form.lex?_userCode {s : Text} {code : Code} (h : Code.read s = .ok code) :
    Form.userCode.lex? s = some (.ok ⟨.code code, code.text.length⟩) := by
  obtain ⟨more, after, rfl, hs, -⟩ := Code.read_eq_ok_iff.1 h
  refine lex?_eq_some_iff.2 ⟨?_, ?_⟩
  · rw [hs]
    rfl
  · rw [read, h]
    rfl

namespace Operation

/-- Where the form starts, both ways to ask for it come to the same. -/
theorem AsksFor.run_eq {form : Form} {op : Operation} (hop : op.AsksFor form) {c : Cursor}
    {reading : Except Fault (Taken Lexeme)} (h : form.lex? c.rest = some reading) :
    op.run c = (c.conclude form reading).map .outcome id := by
  obtain ⟨hstarts, rfl⟩ := Form.lex?_eq_some_iff.1 h
  rcases hop with rfl | rfl
  · rw [run, Cursor.lexFirst_cons, if_pos hstarts]
  · rfl

theorem run_of_read {op : Operation} (hop : op.AsksFor .userCode) {c : Cursor} {code : Code}
    (h : Code.read c.rest = .ok code) :
    op.run c = (.outcome (.lexed .userCode (.code code) c.position), c.skip code.text.length) :=
  hop.run_eq (Form.lex?_userCode h)

theorem exists_read_of_run {op : Operation} (hop : op.AsksFor .userCode) {c : Cursor} {form : Form}
    {value : Lexeme} {position : Position}
    (h : (op.run c).1 = .outcome (.lexed form value position)) :
    ∃ code, Code.read c.rest = .ok code := by
  have hlexed : (c.conclude .userCode (Form.userCode.read c.rest)).1 =
      .lexed form value position := by
    rcases hop with rfl | rfl
    · rw [run, Cursor.lexFirst_cons] at h
      split at h
      · exact Answer.outcome.inj h
      · cases h
    · exact Answer.outcome.inj h
  cases hread : Code.read c.rest with
  | ok code => exact ⟨code, rfl⟩
  | error fault =>
    rw [Form.read, hread] at hlexed
    cases hlexed

/-- **Action code is lexed exactly where a block stands** whose numbers fit. There is one block at
most, it is taken whole and nothing more, and what is found in it is found whatever follows it. -/
theorem lexes_code_iff_block {op : Operation} (hop : op.AsksFor .userCode) (c : Cursor) :
    ((∃ form value position, (op.run c).1 = .outcome (.lexed form value position)) ↔
      ∃ b, b <+: c.rest ∧ IsBlock b ∧ IndicesFit b) ∧
    (∀ b b', b <+: c.rest → b' <+: c.rest → IsBlock b → IsBlock b' → b = b') ∧
    ∀ b, IsBlock b → ∃ found, ReferenceScan 0 b found ∧
      (∀ found', ReferenceScan 0 b found' → found' = found) ∧
      (IndicesFit b → ∃ code : Code, code.text = b ∧
        ∀ d : Cursor, b <+: d.rest →
          d.peek = some '{' ∧
          op.run d = (.outcome (.lexed .userCode (.code code) d.position), d.skip b.length) ∧
          d.rest = b ++ (d.skip b.length).rest ∧
          (d.skip b.length).index = d.index + b.byteSize ∧
          ∃ t, (Lexeme.code code).token? d.position = some t ∧ t.kind = .userCode ∧
            t.value = .text b ∧ t.position = d.position ∧
            t.references.map Reference.outline = found) := by
  refine ⟨⟨?_, ?_⟩, fun b b' hb hb' h h' => h.unique h' hb hb', ?_⟩
  · intro ⟨form, value, position, h⟩
    obtain ⟨code, hcode⟩ := exists_read_of_run hop h
    exact ⟨code.text, Code.isBlock_of_read hcode⟩
  · intro ⟨b, ⟨after, hafter⟩, hblock, hfits⟩
    obtain ⟨code, -, hread⟩ := Code.exists_read hblock hfits
    have hread := hread after
    rw [hafter] at hread
    exact ⟨_, _, _, congrArg Prod.fst (run_of_read hop hread)⟩
  · intro b hblock
    obtain ⟨found, hscan⟩ := hblock.exists_scan
    refine ⟨found, hscan, fun found' hscan' => hscan'.unique hscan, fun hfits => ?_⟩
    obtain ⟨code, hcode, hread⟩ := Code.exists_read hblock hfits
    refine ⟨code, hcode, ?_⟩
    intro d ⟨after, hafter⟩
    subst hcode
    have hread := hafter ▸ hread after
    refine ⟨?_, run_of_read hop hread, ?_, ?_, _, rfl, rfl, rfl, rfl, ?_⟩
    · obtain ⟨inner, hinner, -⟩ := hblock
      rw [Cursor.peek, ← hafter, hinner]
      rfl
    · rw [Cursor.rest_skip, ← hafter, List.drop_left]
    · rw [Cursor.index_skip, ← hafter, List.take_left]
    · exact (Code.scan_of_read hread d.position).1.unique hscan

/-- A closing brace between quotes does not close the block: the next one does. -/
theorem block_with_quoted_brace :
    AsksFor .userCode (.read .userCode) ∧
      run (.start "\x7b'\x7d'\x7dx".toList 1) (.read .userCode) =
        (.outcome (.lexed .userCode (.code [.opening, .quoted '\'' ['}'], .closing]) ⟨1, 1⟩),
          (Cursor.start "\x7b'\x7d'\x7dx".toList 1).skip 5) ∧
      ∃ b, b <+: "\x7b'\x7d'\x7dx".toList ∧ IsBlock b ∧ IndicesFit b := by
  have hchain : Code.Chain 0 [.quoted '\'' ['}'], .closing] ['x'] :=
    .step (.quoted rfl (by decide)) rfl .last
  have hread := Code.read_eq_ok_iff.2 ⟨_, ['x'], rfl, rfl, hchain⟩
  have hop : AsksFor .userCode (.read .userCode) := .inr rfl
  have hrun := run_of_read hop (c := Cursor.start "\x7b'\x7d'\x7dx".toList 1) hread
  exact ⟨hop, hrun, (lexes_code_iff_block hop _).1.1 ⟨_, _, _, congrArg Prod.fst hrun⟩⟩

end Operation

end GrammarLexer
