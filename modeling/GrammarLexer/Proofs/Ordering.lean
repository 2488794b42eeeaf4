import GrammarLexer.Proofs.Moves
import GrammarLexer.Proofs.Partition

/-!
# Positions in order

Line and column tell which of two places of a text comes first, just as the bytes before them do. So
the tokens of a scan stand in the order in which they are listed, and each has its tags between
itself and the next one.

* `Position.Before` -- the order of positions;
* `Position.after_before_iff` -- **positions are ordered as the texts before them are**;
* `Token.places`, `Reads.exists_place` -- where a token stands and its tags do, and that these are
  places of the text;
* `Reads.pairwise_places` -- **the places of tokens come one after another**;
* `Dealt.sublist_lines` -- the declarations are on earlier lines than the rules;
* `positions_in_order` -- **the order of positions**, of cursors, of a scan and of a file.
-/

namespace GrammarLexer

open Decomposition (tokensFrom)

/-! ## 1. Positions and bytes -/

namespace Position

/-- The position `p` comes before `q`. -/
def Before (p q : Position) : Prop := compare p q = .lt

variable {p q : Position}

theorem before_iff : p.Before q ↔ p.line < q.line ∨ p.line = q.line ∧ p.column < q.column :=
  compare_eq_lt_iff

theorem Before.asymm (h : p.Before q) : ¬ q.Before p := by
  rw [before_iff] at h ⊢
  omega

theorem before_after {s : Text} (h : s ≠ []) : p.Before (p.after s) := compare_after h

theorem after_before_of_lt {a b s : Text} (ha : a <+: s) (hb : b <+: s)
    (h : a.byteSize < b.byteSize) : (p.after a).Before (p.after b) := by
  rcases List.prefix_or_prefix_of_prefix ha hb with ⟨w, rfl⟩ | ⟨w, rfl⟩
  · rw [after_append]
    refine before_after ?_
    rintro rfl
    simp at h
  · rw [Text.byteSize_append] at h
    omega

/-- **Positions are ordered as the texts before them are**: of two beginnings of a text, the one
with fewer bytes leads to the earlier position. -/
theorem after_before_iff {a b s : Text} (ha : a <+: s) (hb : b <+: s) :
    (p.after a).Before (p.after b) ↔ a.byteSize < b.byteSize := by
  constructor
  · intro h
    rcases Nat.lt_trichotomy a.byteSize b.byteSize with hlt | heq | hgt
    · exact hlt
    · -- then both are the same beginning
      obtain ⟨u, rfl⟩ := ha
      obtain ⟨v, hv⟩ := hb
      obtain ⟨rfl, -⟩ := Text.eq_of_byteSize_eq hv heq.symm
      exact absurd h h.asymm
    · exact absurd (after_before_of_lt hb ha hgt) h.asymm
  · exact after_before_of_lt ha hb

end Position

namespace Cursor

/-- **Cursors are ordered by their offsets**, and so are their positions. -/
theorem Reached.before_iff {text : Text} {line : Nat} {c c' : Cursor} (h : Reached text line c)
    (h' : Reached text line c') : c.position.Before c'.position ↔ c.index < c'.index := by
  obtain ⟨passed, hpassed⟩ := h.passed
  obtain ⟨passed', hpassed'⟩ := h'.passed
  rw [hpassed.position_eq, hpassed'.position_eq, hpassed.index_eq, hpassed'.index_eq]
  exact Position.after_before_iff ⟨_, hpassed.split⟩ ⟨_, hpassed'.split⟩

/-- A cursor can be brought to every character boundary. -/
theorem exists_reached {text p q : Text} {i : Nat} (line : Nat)
    (h : text.splitAt? i = some (p, q)) : ∃ c, Reached text line c ∧ c.index = i := by
  obtain ⟨rfl, rfl⟩ := Text.splitAt?_eq_some h
  refine ⟨_, Reached.start.ask (.advance p.byteSize), ?_⟩
  have hcovering := Text.covering_byteSize p q
  rw [Operation.run, advance, index_skip]
  dsimp only [start]
  rw [hcovering, List.take_left, Nat.zero_add]

end Cursor

/-! ## 2. Places of a token -/

/-- The tags in a token, in order. -/
def Token.tags (t : Token) : List Tag := t.references.filterMap Reference.tag

/-- Where a token stands, and then where its tags do. -/
def Token.places (t : Token) : List Position := t.position :: t.tags.map Tag.position

theorem ReferenceForm.utf8Size_sigil (form : ReferenceForm) : form.sigil.utf8Size = 1 := by
  cases form <;> decide

/-- The tags of a block come one after another, since the placeholders do. -/
theorem Code.pairwise_tags {s : Text} {code : Code} (h : Code.read s = .ok code) (p : Position) :
    ((code.references p).filterMap Reference.tag).Pairwise
      fun tag tag' => tag.position.Before tag'.position := by
  have hscan := (scan_of_read h p).1
  rw [List.pairwise_filterMap]
  refine (List.pairwise_map.1 hscan.pairwise_span).imp_of_mem ?_
  intro r r' hr hr' hspans tag htag tag' htag'
  have hspan := hscan.start_lt_stop (List.mem_map_of_mem hr)
  obtain ⟨before, after, htext, hstart, hposition⟩ := exists_tag hr htag
  obtain ⟨before', after', htext', hstart', hposition'⟩ := exists_tag hr' htag'
  have hprefix : before ++ [r.form.sigil] <+: text code := ⟨tag.raw ++ after, by simp [htext]⟩
  have hprefix' : before' ++ [r'.form.sigil] <+: text code := ⟨tag'.raw ++ after', by simp [htext']⟩
  rw [hposition, hposition']
  refine Position.after_before_of_lt hprefix hprefix' ?_
  simp only [Reference.outline] at hspan hspans
  simp only [Text.byteSize_append, Text.byteSize_cons, Text.byteSize_nil,
    ReferenceForm.utf8Size_sigil]
  omega

section

variable {value : Lexeme} {word rest : Text} {p x : Position} {t : Token}

/-- A tag stands inside the text of its token. -/
theorem Lexes.exists_tag {tag : Tag} (h : Lexes value word rest) (ht : value.token? p = some t)
    (htag : tag ∈ t.tags) :
    ∃ before after, word = before ++ after ∧ before ≠ [] ∧ after ≠ [] ∧
      tag.position = p.after before := by
  obtain ⟨r, hr, htag⟩ := List.mem_filterMap.1 htag
  obtain ⟨block, hread, rfl, -, hr⟩ := h.exists_code ht hr
  have htagged := Code.isTag_of_mem_references hread hr htag
  obtain ⟨before, after, htext, -, hposition⟩ := Code.exists_tag hr htag
  refine ⟨before ++ [r.form.sigil], tag.raw ++ after, ?_, by simp, by simp [htagged.ne_nil],
    hposition⟩
  rw [htext, List.append_assoc, List.singleton_append]

/-- A token and its tags stand at places of the token's text. -/
theorem Lexes.exists_place (h : Lexes value word rest) (ht : value.token? p = some t)
    (hx : x ∈ t.places) :
    ∃ before after, word = before ++ after ∧ after ≠ [] ∧ x = p.after before := by
  rcases List.mem_cons.1 hx with rfl | hx
  · exact ⟨[], word, rfl, h.ne_nil, (h.begins ht).1⟩
  · obtain ⟨tag, htag, rfl⟩ := List.mem_map.1 hx
    obtain ⟨before, after, hword, -, hafter, hposition⟩ := h.exists_tag ht htag
    exact ⟨before, after, hword, hafter, hposition⟩

/-- The places of one token come one after another. -/
theorem Lexes.pairwise_places (h : Lexes value word rest) (ht : value.token? p = some t) :
    t.places.Pairwise Position.Before := by
  refine .cons (fun x hx => ?_) (List.pairwise_map.2 ?_)
  · obtain ⟨tag, htag, rfl⟩ := List.mem_map.1 hx
    obtain ⟨before, -, -, hbefore, -, hposition⟩ := h.exists_tag ht htag
    rw [(h.begins ht).1, hposition]
    exact Position.before_after hbefore
  · cases h with
    | code _ hread =>
      cases ht
      exact Code.pairwise_tags hread p
    | emptyRule | comment => cases ht
    | _ =>
      cases ht
      exact .nil

end

/-! ## 3. Places of a scan -/

section

variable {items : List Item} {s : Text} {p x : Position} {t : Token}

/-- **The places of tokens are places of the text**, before its end. -/
theorem Reads.exists_place (h : Reads items s) (ht : t ∈ tokensFrom p items) (hx : x ∈ t.places) :
    ∃ pre rest, s = pre ++ rest ∧ rest ≠ [] ∧ x = p.after pre := by
  obtain ⟨pre, value, word, rest, rfl, hlexes, htoken⟩ := h.exists_lexeme ht
  obtain ⟨before, after, rfl, hafter, rfl⟩ := hlexes.exists_place htoken hx
  refine ⟨pre ++ before, after ++ rest, by simp only [List.append_assoc], by simp [hafter], ?_⟩
  rw [Position.after_append]

/-- **The places of tokens come one after another.** -/
theorem Reads.pairwise_places (h : Reads items s) (p : Position) :
    ((tokensFrom p items).flatMap Token.places).Pairwise Position.Before := by
  induction h generalizing p with
  | done => exact .nil
  | @blank ch _ _ _ _ ih => exact ih (p.next ch)
  | @lexeme value items word rest hlexes hrest ih =>
    rw [tokensFrom, Item.token?, Item.text]
    cases ht : value.token? p with
    | none => exact ih (p.after word)
    | some t =>
      rw [Option.toList_some, List.singleton_append, List.flatMap_cons]
      refine List.pairwise_append.2 ⟨hlexes.pairwise_places ht, ih (p.after word), ?_⟩
      intro x hx y hmem
      -- whatever comes later stands after the whole text of this token
      obtain ⟨t', ht', hy⟩ := List.mem_flatMap.1 hmem
      obtain ⟨before, after, rfl, hafter, rfl⟩ := hlexes.exists_place ht hx
      obtain ⟨pre, -, -, -, rfl⟩ := hrest.exists_place ht' hy
      rw [Position.after_append, ← Position.after_append _ after]
      exact Position.before_after (List.append_ne_nil_of_left_ne_nil hafter pre)

end

/-- Tokens that stand in order: each before all later ones, and its tags after it, one after
another and before the later tokens. -/
structure Token.InOrder (tokens : List Token) : Prop where
  positions : tokens.Pairwise fun t t' => t.position.Before t'.position
  tags : ∀ t ∈ tokens, t.tags.Pairwise fun tag tag' => tag.position.Before tag'.position
  tags_after : ∀ t ∈ tokens, ∀ tag ∈ t.tags, t.position.Before tag.position
  tags_before : tokens.Pairwise fun t t' => ∀ tag ∈ t.tags, tag.position.Before t'.position

theorem Token.mem_places_of_mem_tags {t : Token} {tag : Tag} (h : tag ∈ t.tags) :
    tag.position ∈ t.places :=
  List.mem_cons_of_mem _ (List.mem_map_of_mem h)

theorem Token.inOrder_of_pairwise {tokens : List Token}
    (h : (tokens.flatMap Token.places).Pairwise Position.Before) : InOrder tokens := by
  obtain ⟨hown, hcross⟩ := List.pairwise_flatMap.1 h
  refine ⟨hcross.imp fun hplaces => ?_, fun t ht => ?_, fun t ht tag htag => ?_,
    hcross.imp fun hplaces tag htag => ?_⟩
  · exact hplaces _ List.mem_cons_self _ List.mem_cons_self
  · exact List.pairwise_map.1 (List.pairwise_cons.1 (hown t ht)).2
  · exact (List.pairwise_cons.1 (hown t ht)).1 _ (List.mem_map_of_mem htag)
  · exact hplaces _ (mem_places_of_mem_tags htag) _ List.mem_cons_self

/-- The tokens of a scan stand in order. -/
theorem inOrder_of_scanLines {lines : List Line} {tokens : List Token}
    (h : (scanLines lines).result = .ok tokens) : Token.InOrder tokens := by
  obtain ⟨items, hitems, rfl⟩ := (scanLines_result_iff _ _).1 h
  exact Token.inOrder_of_pairwise ((decompose_eq_iff.1 hitems).pairwise_places _)

/-! ## 4. Places of a file -/

/-- The declarations are earlier lines of the file than the rules. -/
theorem Dealt.sublist_lines {done : List Line} {layout : Layout} (h : Dealt done layout) :
    (layout.sections.declarations ++ layout.sections.rules).Sublist done := by
  induction h with
  | initial | prologue => exact List.nil_sublist _
  | declarations =>
    rw [List.append_nil]
    exact (List.sublist_cons_self _ _).trans (List.sublist_append_right _ _)
  | rules hdone _ _ _ =>
    exact hdone.infix_declarations.sublist.append (List.sublist_cons_self _ _)
  | epilogue _ _ ih => exact ih.trans (List.sublist_append_left _ _)

theorem Dealt.number_lt {text : Text} {layout : Layout} (h : Dealt text.numberedLines layout) :
    ∀ line ∈ layout.sections.declarations, ∀ line' ∈ layout.sections.rules,
      line.number < line'.number := by
  have hnumbers := h.sublist_lines.map Line.number
  rw [(consecutive_numberedLines text).numbers, List.map_append] at hnumbers
  have hordered := List.Pairwise.sublist hnumbers List.pairwise_lt_range'
  intro line hline line' hline'
  exact (List.pairwise_append.1 hordered).2.2 _ (List.mem_map_of_mem hline) _
    (List.mem_map_of_mem hline')

/-- The places of a section's tokens are on lines of the section. -/
theorem exists_line_of_scanLines {text : Text} {lines : List Line} {tokens : List Token}
    {t : Token} {x : Position} (hpart : lines <:+: text.numberedLines)
    (h : (scanLines lines).result = .ok tokens) (ht : t ∈ tokens) (hx : x ∈ t.places) :
    ∃ line ∈ lines, line.number = x.line := by
  obtain ⟨items, hitems, rfl⟩ := (scanLines_result_iff _ _).1 h
  obtain ⟨pre, rest, htext, hrest, rfl⟩ := (decompose_eq_iff.1 hitems).exists_place ht hx
  obtain ⟨line, hline, hnumber, -⟩ := (locates_in_file hpart htext hrest).1.line
  exact ⟨line, hline, hnumber⟩

/-- **The declarations of a file come before its rules**, with all their tags. -/
theorem GrammarFile.declarations_before_rules {text : Text} {file : GrammarFile}
    (h : lex text = .ok file) {t t' : Token} (ht : t ∈ file.declarationTokens)
    (ht' : t' ∈ file.ruleTokens) {x y : Position} (hx : x ∈ t.places) (hy : y ∈ t'.places) :
    x.Before y := by
  obtain ⟨layout, hlayout, hsections, hdeclarations, hrules⟩ := lex_eq_ok_iff.1 h
  obtain ⟨layout', hlayout', hdealt⟩ := exists_layOut text
  rw [hlayout] at hlayout'
  cases hlayout'
  rw [hsections] at hdeclarations hrules
  obtain ⟨line, hline, hnumber⟩ :=
    exists_line_of_scanLines hdealt.infix_declarations hdeclarations ht hx
  obtain ⟨line', hline', hnumber'⟩ :=
    exists_line_of_scanLines hdealt.infix_rules hrules ht' hy
  have hlt := hdealt.number_lt line hline line' hline'
  rw [hnumber, hnumber'] at hlt
  exact Position.before_iff.2 (.inl hlt)

/-- **Positions are in order.** Of two cursors over a text, which can stand at every character
boundary, the one with the smaller offset has the earlier position, and the other way round. So the
tokens of a scan and their tags stand in the order in which they are listed, and in a file every
token of the declarations stands before every token of the rules. -/
theorem positions_in_order :
    (∀ (text : Text) (line : Nat),
      (∀ i, text.splitAt? i ≠ none → ∃ c, Cursor.Reached text line c ∧ c.index = i) ∧
      ∀ c c', Cursor.Reached text line c → Cursor.Reached text line c' →
        (c.index < c'.index ↔ compare c.position c'.position = .lt)) ∧
    (∀ lines tokens, (scanLines lines).result = .ok tokens → Token.InOrder tokens) ∧
    ∀ text file, GrammarFile.lex text = .ok file →
      Token.InOrder file.declarationTokens ∧ Token.InOrder file.ruleTokens ∧
      ∀ t ∈ file.declarationTokens, ∀ t' ∈ file.ruleTokens, t.position.Before t'.position := by
  refine ⟨fun text line => ⟨fun i hi => ?_, fun c c' hc hc' => (hc.before_iff hc').symm⟩,
    fun lines tokens => inOrder_of_scanLines, fun text file hlex => ?_⟩
  · obtain ⟨⟨p, q⟩, hsplit⟩ := Option.ne_none_iff_exists'.1 hi
    exact Cursor.exists_reached line hsplit
  · obtain ⟨-, -, -, hdeclarations, hrules⟩ := GrammarFile.lex_eq_ok_iff.1 hlex
    refine ⟨inOrder_of_scanLines hdeclarations, inOrder_of_scanLines hrules, fun t ht t' ht' => ?_⟩
    exact GrammarFile.declarations_before_rules hlex ht ht' List.mem_cons_self List.mem_cons_self

/-- A name among the declarations; then two tags of one action, on two lines, with a letter of two
bytes before the first and a name right after the action. -/
theorem positions_in_order_across_lines :
    compare (Cursor.start "é\nb".toList 4).position
        ((Cursor.start "é\nb".toList 4).advance 3).position = .lt ∧
      ∃ file, GrammarFile.lex "%\x7b\n%\x7d\na\n%%\n\x7bé$<t>1\n$<u>2\x7db".toList = .ok file ∧
        file.declarationTokens.flatMap Token.places = [⟨3, 1⟩] ∧
        file.ruleTokens.flatMap Token.places = [⟨5, 1⟩, ⟨5, 4⟩, ⟨6, 2⟩, ⟨6, 7⟩] ∧
        Token.InOrder file.ruleTokens ∧
        ∀ t ∈ file.declarationTokens, ∀ t' ∈ file.ruleTokens, t.position.Before t'.position := by
  have hchain : Code.Chain 0 [.plain 'é', .placeholder ⟨.value, some "<t>".toList, some ['1']⟩,
      .plain '\n', .placeholder ⟨.value, some "<u>".toList, some ['2']⟩, .closing] [] :=
    .step (.of_read rfl rfl) rfl (.step (.of_read rfl rfl) rfl (.step (.of_read rfl rfl) rfl
      (.step (.of_read rfl rfl) rfl .last)))
  have hread := Code.read_eq_ok_iff.2 ⟨_, [], rfl, rfl, hchain⟩
  have hcode : Lexes (.code _) "\x7bé$<t>1\n$<u>2\x7d".toList ['b'] :=
    .code (Code.isBlock_of_read hread).2.1 hread
  have hb : Lexes (.identifier ['b'] false) ['b'] [] :=
    .name ⟨'b', [], rfl, rfl, by simp⟩ rfl (by decide)
  have ha : Lexes (.identifier ['a'] false) ['a'] ['\n'] :=
    .name ⟨'a', [], rfl, rfl, by simp⟩ rfl (by decide)
  have hfirst : Reads _ "a\n".toList := .lexeme ha (.blank rfl .done)
  have hsecond : Reads _ "\x7bé$<t>1\n$<u>2\x7db".toList := .lexeme hcode (.lexeme hb .done)
  have hdeclarations := (scanLines_result_iff [⟨"a\n".toList, 3⟩] _).2
    ⟨_, decompose_eq_iff.2 hfirst, rfl⟩
  have hrules := (scanLines_result_iff
    [⟨"\x7bé$<t>1\n".toList, 5⟩, ⟨"$<u>2\x7db".toList, 6⟩] _).2
    ⟨_, decompose_eq_iff.2 hsecond, rfl⟩
  have hlex : GrammarFile.lex "%\x7b\n%\x7d\na\n%%\n\x7bé$<t>1\n$<u>2\x7db".toList = .ok
      ⟨⟨[⟨[], 1⟩, ⟨[], 2⟩], [⟨"a\n".toList, 3⟩],
        [⟨"\x7bé$<t>1\n".toList, 5⟩, ⟨"$<u>2\x7db".toList, 6⟩], []⟩, _, _⟩ :=
    GrammarFile.lex_eq_ok_iff.2 ⟨_, rfl, rfl, hdeclarations, hrules⟩
  obtain ⟨hcursors, -, hfiles⟩ := positions_in_order
  obtain ⟨-, horder, hbefore⟩ := hfiles _ _ hlex
  exact ⟨((hcursors _ _).2 _ _ .start (.ask (.advance 3) .start)).1 (by decide),
    _, hlex, rfl, rfl, horder, hbefore⟩

end GrammarLexer
