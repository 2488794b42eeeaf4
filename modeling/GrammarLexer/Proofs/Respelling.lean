import GrammarLexer.Proofs.Locations
import GrammarLexer.Proofs.Separation

/-!
# Tokens written out again

The tokens of a text can be written down again, one after another, with a single blank between them.
The text that this gives is another one: blanks and comments are gone, and so are leading zeros and
whatever stood between a name and its colon. Scanning it gives the same tokens.

* `Token.spelling`, `respell` -- a token as it is written, and tokens with blanks between them;
* `Token.content` -- what a token is, apart from where it stands;
* `Lexes.spelling` -- **a spelling is read as the lexeme that the token came from**;
* `ReadsAs` -- a text whose tokens are these, apart from where they stand;
* `scanFrom_respell` -- **scanning what was written out again gives the same contents.**
-/

namespace GrammarLexer

open Decomposition (tokensFrom)

/-! ## 1. Spellings and contents -/

/-- A token as it is written: a number in decimal digits, a name that has a colon with the colon,
and every other token by its text. -/
def Token.spelling (t : Token) : Text :=
  match t.kind, t.value with
  | _, .number n => Text.ofNat n
  | .identColon, .text name => name ++ [':']
  | _, .text s => s

/-- The spellings of tokens, with one character between each and the next: `between i` after the
token of index `i`. -/
def respell (between : Nat → Char) : List Token → Text
  | [] => []
  | [t] => t.spelling
  | t :: next :: more =>
    t.spelling ++ between 0 :: respell (fun i => between (i + 1)) (next :: more)

/-- Kind and value of a token, and its references without the places of their tags. -/
def Token.content (t : Token) : (TokenKind × TokenValue) × List Outline :=
  (t.reading, t.references.map Reference.outline)

/-! ## 2. A spelling is a lexeme -/

theorem Text.decimal_ofNat (n : Nat) : (ofNat n).decimal = n := Nat.ofDigitChars_ten_toDigits

theorem Text.isRun_ofNat (n : Nat) : IsRun Char.isDigit (ofNat n) :=
  ⟨Nat.toDigits_ne_nil, fun _ => Nat.isDigit_of_mem_toDigits (by decide) (by decide)⟩

/-- **A spelling is read as the lexeme that the token came from**, where it stands alone. -/
theorem Lexes.spelling {value : Lexeme} {word rest : Text} {p : Position} {t : Token}
    (h : Lexes value word rest) (ht : value.token? p = some t) : Lexes value t.spelling [] := by
  have halone := h.change (Text.Apart.nil.endsLike rest)
  cases h with
  | number _ hfits _ =>
    cases ht
    -- leading zeros are gone, so that the digits may be others
    have hdecimal := Text.decimal_ofNat word.decimal
    have hnumber : Lexes (.number (Text.ofNat word.decimal).decimal) (Text.ofNat word.decimal) [] :=
      .number (Text.isRun_ofNat word.decimal) (by rwa [hdecimal]) rfl
    rwa [hdecimal] at hnumber
  | @label name _ _ hname _ =>
    cases ht
    have hlabel : Lexes (.identifier name true) (name ++ [] ++ [':']) [] :=
      .label hname fun _ hch => by cases hch
    rwa [List.append_nil] at hlabel
  | emptyRule | comment => cases ht
  | _ =>
    cases ht
    exact halone

/-- What the token of a lexeme is does not depend on where it stands. -/
theorem Lexes.exists_token {value : Lexeme} {word rest : Text} {p : Position} {t : Token}
    (h : Lexes value word rest) (ht : value.token? p = some t) (q : Position) :
    ∃ t', value.token? q = some t' ∧ t'.content = t.content := by
  cases h with
  | code _ hread =>
    cases ht
    have hrefs := (Code.scan_of_read hread q).1.unique (Code.scan_of_read hread p).1
    exact ⟨_, rfl, congrArg (Prod.mk _) hrefs⟩
  | emptyRule | comment => cases ht
  | _ =>
    cases ht
    exact ⟨_, rfl, rfl⟩

/-! ## 3. Spellings in a row -/

/-- The text can be read, and wherever it stands its tokens have the contents of these. -/
def ReadsAs (s : Text) (tokens : List Token) : Prop :=
  ∃ items, Reads items s ∧
    ∀ p, (tokensFrom p items).map Token.content = tokens.map Token.content

/-- The spelling of a token that was read is read as that token. -/
theorem Reads.readsAs_spelling {items : List Item} {s : Text} {p : Position} {t : Token}
    (h : Reads items s) (ht : t ∈ tokensFrom p items) : ReadsAs t.spelling [t] := by
  obtain ⟨pre, value, word, rest, -, hlexes, htoken⟩ := h.exists_lexeme ht
  have hspelling := hlexes.spelling htoken
  have hreads : Reads [.lexeme value t.spelling] (t.spelling ++ []) := .lexeme hspelling .done
  rw [List.append_nil] at hreads
  refine ⟨_, hreads, fun q => ?_⟩
  obtain ⟨t', htoken', hcontent⟩ := hspelling.exists_token htoken q
  simp [tokensFrom, Item.token?, htoken', hcontent]

namespace ReadsAs

theorem append_blank {a b : Text} {as bs : List Token} {ch : Char} (ha : ReadsAs a as)
    (hb : ReadsAs b bs) (hch : isBlank ch = true) : ReadsAs (a ++ ch :: b) (as ++ bs) := by
  obtain ⟨itemsA, hreadsA, hcontentA⟩ := ha
  obtain ⟨itemsB, hreadsB, hcontentB⟩ := hb
  have hreads := hreadsA.append_blanks (w := [ch]) hreadsB (by simp) (by simpa using hch)
  refine ⟨_, hreads, fun p => ?_⟩
  rw [tokensFrom_append, tokensFrom_blanks, List.map_append, hcontentA, hcontentB, List.map_append]

/-- **Spellings with blanks between them are read one by one.** -/
theorem respell {tokens : List Token} (h : ∀ t ∈ tokens, ReadsAs t.spelling [t])
    {between : Nat → Char} (hbetween : ∀ i, isBlank (between i) = true) :
    ReadsAs (respell between tokens) tokens := by
  fun_induction GrammarLexer.respell between tokens with
  | case1 => exact ⟨[], .done, fun _ => rfl⟩
  | case2 between t => exact h t List.mem_cons_self
  | case3 between t next more ih =>
    have hmore := ih (fun t' ht' => h t' (List.mem_cons_of_mem t ht')) fun i => hbetween (i + 1)
    exact (h t List.mem_cons_self).append_blank hmore (hbetween 0)

end ReadsAs

/-- **Scanning what was written out again gives the same contents**: as many tokens as before, each
with the kind, the value and the references that it had. -/
theorem scanFrom_respell {n : Nat} {s : Text} {tokens : List Token} (h : scanFrom n s = .ok tokens)
    {between : Nat → Char} (hbetween : ∀ i, isBlank (between i) = true) (m : Nat) :
    ∃ tokens', scanFrom m (respell between tokens) = .ok tokens' ∧
      tokens'.map Token.content = tokens.map Token.content := by
  obtain ⟨items, hreads, rfl⟩ := scanFrom_eq_ok_iff.1 h
  obtain ⟨items', hreads', hcontent⟩ :=
    ReadsAs.respell (fun _ => hreads.readsAs_spelling) hbetween
  exact ⟨_, scanFrom_eq_ok_iff.2 ⟨items', hreads', rfl⟩, hcontent _⟩

/-- A blank before a colon and leading zeros go, and a lone backslash does not become the escape of
the quote after it. -/
theorem scanFrom_respell_label_and_quotes :
    scanFrom 3 "x :007'\\' 'y'\x7b$<t>1\x7d".toList = .ok [.ofText .identColon ['x'] ⟨3, 1⟩,
        ⟨.number, .number 7, ⟨3, 4⟩, []⟩, .ofText .char "'\\'".toList ⟨3, 7⟩,
        .ofText .char "'y'".toList ⟨3, 11⟩, ⟨.userCode, .text "\x7b$<t>1\x7d".toList, ⟨3, 14⟩,
          [⟨.value, .index 1, some ⟨"<t>".toList, ⟨3, 16⟩⟩, ⟨1, 6⟩⟩]⟩] ∧
      (∀ i : Nat, isBlank (if i = 2 then '\n' else ' ') = true) ∧
      ∃ tokens, scanFrom 5 "x: 7 '\\'\n'y' \x7b$<t>1\x7d".toList = .ok tokens ∧
        tokens.map Token.content = [((.identColon, .text ['x']), []), ((.number, .number 7), []),
          ((.char, .text "'\\'".toList), []), ((.char, .text "'y'".toList), []),
          ((.userCode, .text "\x7b$<t>1\x7d".toList),
            [⟨.value, .index 1, some "<t>".toList, ⟨1, 6⟩⟩])] := by
  have hlabel : Lexes (.identifier ['x'] true) (['x'] ++ [' '] ++ [':'])
      "007'\\' 'y'\x7b$<t>1\x7d".toList :=
    .label ⟨'x', [], rfl, rfl, by simp⟩ (List.all_eq_true.1 rfl)
  have hnumber : Lexes (.number (Text.decimal "007".toList)) "007".toList
      "'\\' 'y'\x7b$<t>1\x7d".toList :=
    .number ⟨by decide, List.all_eq_true.1 rfl⟩ (by decide) rfl
  have hbackslash : Lexes (.character "'\\'".toList) "'\\'".toList " 'y'\x7b$<t>1\x7d".toList :=
    .character (.plain (by decide)) (by decide)
  have hletter : Lexes (.character "'y'".toList) "'y'".toList "\x7b$<t>1\x7d".toList :=
    .character (.plain (by decide)) (by decide)
  have hchain : Code.Chain 0
      [.placeholder ⟨.value, some "<t>".toList, some ['1']⟩, .closing] [] :=
    .step (.of_read rfl rfl) rfl .last
  have hread := Code.read_eq_ok_iff.2 ⟨_, [], rfl, rfl, hchain⟩
  have hcode : Lexes (.code _) "\x7b$<t>1\x7d".toList [] :=
    .code (Code.isBlock_of_read hread).2.1 hread
  have hreads : Reads _ "x :007'\\' 'y'\x7b$<t>1\x7d".toList :=
    .lexeme hlabel (.lexeme hnumber (.lexeme hbackslash
      (.blank rfl (.lexeme hletter (.lexeme hcode .done)))))
  have hscan : scanFrom 3 "x :007'\\' 'y'\x7b$<t>1\x7d".toList = .ok _ :=
    scanFrom_eq_ok_iff.2 ⟨_, hreads, rfl⟩
  have hbetween : ∀ i : Nat, isBlank (if i = 2 then '\n' else ' ') = true := by
    intro i
    split <;> rfl
  exact ⟨hscan, hbetween, scanFrom_respell hscan hbetween 5⟩

end GrammarLexer
