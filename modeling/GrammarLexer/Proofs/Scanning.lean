import GrammarLexer.GrammarFile
import GrammarLexer.Proofs.Lexemes
import GrammarLexer.Proofs.Lines

/-!
# Scanning is decomposing into lexemes

A text can be scanned if it is a sequence of blanks and lexemes, each of which stands before the
rest of the text. There is one such sequence at most, and its tokens are what scanning gives.

* `Reads items s` -- the text is the sequence of these items;
* `decompose_eq_iff` -- decomposing finds it, if there is one;
* `Item.reading?`, `Reads.reading_tokensFrom` -- kind and value of a token are told by the text that
  it was read from;
* `scanLines_eq_ok_iff` -- **what scanning gives** for the lines of a section.
-/

namespace GrammarLexer

open Decomposition (tokensFrom)

/-! ## 1. Sequences of items -/

/-- `Reads items s`: the text is made up of these blanks and lexemes, in order. -/
inductive Reads : List Item → Text → Prop where
  | done : Reads [] []
  | blank {ch : Char} {items : List Item} {rest : Text} : isBlank ch = true → Reads items rest →
      Reads (.blank ch :: items) (ch :: rest)
  | lexeme {value : Lexeme} {items : List Item} {word rest : Text} : Lexes value word rest →
      Reads items rest → Reads (.lexeme value word :: items) (word ++ rest)

/-- Nothing is lost and nothing is added. -/
theorem Reads.text_eq {items : List Item} {s : Text} (h : Reads items s) :
    items.flatMap Item.text = s := by
  induction h with
  | done => rfl
  | blank _ _ ih => rw [List.flatMap_cons, ih, Item.text, List.singleton_append]
  | lexeme _ _ ih => rw [List.flatMap_cons, ih, Item.text]

/-! ## 2. Decomposing -/

theorem decompose_blank {ch : Char} (h : isBlank ch = true) (rest : Text) :
    decompose (ch :: rest) = (decompose rest).cons (.blank ch) := by
  rw [decompose, if_pos h]

/-- One step past a lexeme. -/
theorem Lexes.decompose {value : Lexeme} {word rest : Text} (h : Lexes value word rest) :
    decompose (word ++ rest) = (decompose rest).cons (.lexeme value word) := by
  have hfirst := Form.lexFirst?_all_iff.2 h.lex?
  obtain ⟨ch, hhead, hopened⟩ := Option.bind_eq_some_iff.1
    (Form.openedBy_of_startsHere (Form.lex?_eq_some_iff.1 h.lex?).1)
  have hblank := Form.not_isBlank_of_openedBy hopened
  obtain ⟨t, ht⟩ := List.head?_eq_some_iff.1 hhead
  rw [ht] at hfirst ⊢
  rw [GrammarLexer.decompose, if_neg (by rw [hblank]; decide)]
  split
  case h_1 hnone => rw [hfirst] at hnone; cases hnone
  case h_2 herror => rw [hfirst] at herror; cases herror
  case h_3 hok =>
    rw [hfirst] at hok
    cases hok
    rw [← ht]
    dsimp only
    rw [List.drop_left, List.take_left]

/-- A sequence of items is found. -/
theorem Reads.decompose {items : List Item} {s : Text} (h : Reads items s) :
    decompose s = ⟨items, none⟩ := by
  induction h with
  | done => rw [GrammarLexer.decompose]
  | blank hblank _ ih => rw [decompose_blank hblank, ih]; rfl
  | lexeme hlexes _ ih => rw [hlexes.decompose, ih]; rfl

/-- What is found without a fault is a sequence of items. -/
theorem reads_decompose {s : Text} (h : (decompose s).fault = none) :
    Reads (decompose s).items s := by
  fun_induction decompose s with
  | case1 => exact .done
  | case2 ch rest hblank ih => exact .blank hblank (ih h)
  | case3 => cases h
  | case4 => cases h
  | case5 ch rest _ form taken hfirst ih =>
    obtain ⟨word, rest', hs, hwidth, hlexes⟩ :=
      Form.isLexeme_of_lex? (Form.lex?_of_lexFirst? hfirst)
    rw [hs, hwidth] at h ih ⊢
    rw [List.drop_left] at h ih
    rw [List.drop_left, List.take_left]
    exact .lexeme hlexes (ih h)

/-- **Decomposing finds the sequence of items**, and only that. -/
theorem decompose_eq_iff {items : List Item} {s : Text} :
    decompose s = ⟨items, none⟩ ↔ Reads items s := by
  constructor
  · intro h
    have hreads := reads_decompose (s := s) (by rw [h])
    rw [h] at hreads
    exact hreads
  · exact Reads.decompose

theorem Reads.unique {items items' : List Item} {s : Text} (h : Reads items s)
    (h' : Reads items' s) : items = items' := by
  have heq := h.decompose
  rw [h'.decompose] at heq
  cases heq
  rfl

/-! ## 3. Kinds and values -/

/-- Kind and value of the token that an item gives, if any. The value is the text of the item; of a
number it is what the digits spell, and of a name with its colon the name alone. -/
def Item.reading? : Item → Option (TokenKind × TokenValue)
  | blank _ => none
  | lexeme .semicolon word => some (.semicolon, .text word)
  | lexeme .bar word => some (.bar, .text word)
  | lexeme (.number _) word => some (.number, .number word.decimal)
  | lexeme (.tag _) word => some (.tag, .text word)
  | lexeme (.identifier _ false) word => some (.ident, .text word)
  | lexeme (.identifier _ true) word => some (.identColon, .text (word.takeWhile isNameChar))
  | lexeme (.directive d) word => some (.directive d, .text word)
  | lexeme .emptyRule _ => none
  | lexeme (.extended _) word => some (.ident, .text word)
  | lexeme (.code _) word => some (.userCode, .text word)
  | lexeme (.string _) word => some (.string, .text word)
  | lexeme (.comment _) _ => none
  | lexeme (.character _) word => some (.char, .text word)

/-- Kind and value of a token. -/
def Token.reading (t : Token) : TokenKind × TokenValue := (t.kind, t.value)

/-- In a label the name ends where its blanks or its colon begin. -/
theorem takeWhile_label {name blanks : Text} (hname : IsName name)
    (hblanks : ∀ ch ∈ blanks, isBlank ch = true) (rest : Text) :
    (name ++ blanks ++ ':' :: rest).takeWhile isNameChar = name := by
  rw [List.append_assoc]
  refine Text.takeWhile_append_of_stops hname.isNameChar ?_
  exact stops_label hblanks rest

theorem Lexes.reading {value : Lexeme} {word rest : Text} (h : Lexes value word rest)
    (position : Position) :
    (value.token? position).map Token.reading = (Item.lexeme value word).reading? := by
  cases h with
  | label hname hblanks => rw [Item.reading?, takeWhile_label hname hblanks]; rfl
  | _ => rfl

/-- **The tokens of items are what the items' texts tell**, in order. -/
theorem Reads.reading_tokensFrom {items : List Item} {s : Text} (h : Reads items s)
    (position : Position) :
    (tokensFrom position items).map Token.reading = items.filterMap Item.reading? := by
  induction h generalizing position with
  | done => rfl
  | blank _ _ ih => rw [tokensFrom, List.map_append, ih]; rfl
  | @lexeme value _ word _ hlexes _ ih =>
    rw [tokensFrom, List.map_append, ih, List.filterMap_cons, ← hlexes.reading position]
    cases hvalue : value.token? position <;> simp [Item.token?, hvalue]

/-! ## 4. Scanning -/

theorem Cursor.position_start (text : Text) (line : Nat) :
    (Cursor.start text line).position = ⟨line, 1⟩ := by
  simp [position, passedOfLine, start, Text.slice?, Text.splitAt?]

/-- Scanning succeeds where decomposing finds no fault, and gives the tokens of what it finds. -/
theorem scanLines_result_iff (lines : List Line) (tokens : List Token) :
    (scanLines lines).result = .ok tokens ↔
      ∃ items, decompose (lines.flatMap Line.text) = ⟨items, none⟩ ∧
        tokens = tokensFrom (startOf lines) items := by
  cases lines with
  | nil =>
    have hnil : decompose [] = ⟨[], none⟩ := by rw [decompose]
    constructor
    · intro h
      cases h
      exact ⟨[], hnil, rfl⟩
    · intro h
      obtain ⟨items, hitems, rfl⟩ := h
      rw [List.flatMap_nil, hnil] at hitems
      cases hitems
      rfl
  | cons first more =>
    have hstart : startOf (first :: more) = ⟨first.number, 1⟩ := rfl
    rw [scanLines, scanText, Scan.result, hstart]
    dsimp only
    generalize decompose ((first :: more).flatMap Line.text) = parts
    obtain ⟨items, fault⟩ := parts
    cases fault with
    | none => simp [Decomposition.tokens, Cursor.position_start, eq_comm]
    | some fault => simp

/-- **Scanning gives tokens exactly where the text is a sequence of blanks and lexemes.** There is
one such sequence at most, and the tokens are its lexemes', in order, with the kinds and the values
that their texts tell. -/
theorem scanLines_eq_ok_iff (lines : List Line) :
    (∀ tokens, (scanLines lines).result = .ok tokens ↔
      ∃ items, Reads items (lines.flatMap Line.text) ∧
        tokens = tokensFrom (startOf lines) items) ∧
    (∀ items items', Reads items (lines.flatMap Line.text) →
      Reads items' (lines.flatMap Line.text) → items = items') ∧
    ∀ items, Reads items (lines.flatMap Line.text) →
      items.flatMap Item.text = lines.flatMap Line.text ∧
      (tokensFrom (startOf lines) items).map Token.reading = items.filterMap Item.reading? := by
  refine ⟨fun tokens => ?_, fun items items' h h' => h.unique h', fun items h => ?_⟩
  · rw [scanLines_result_iff]
    simp only [decompose_eq_iff]
  · exact ⟨h.text_eq, h.reading_tokensFrom _⟩

/-- A colon on the line after its name, an escaped quote, and the word for an empty rule. -/
theorem scanLines_label_and_quote :
    (scanLines [⟨"a\n".toList, 7⟩, ⟨": '\\''%empty".toList, 8⟩]).result =
        .ok [.ofText .identColon ['a'] ⟨7, 1⟩, .ofText .char "'\\''".toList ⟨8, 3⟩] ∧
      ∀ items, Reads items "a\n: '\\''%empty".toList → items.filterMap Item.reading? =
        [(.identColon, .text ['a']), (.char, .text "'\\''".toList)] := by
  have hreads : Reads [.lexeme (.identifier ['a'] true) (['a'] ++ ['\n'] ++ [':']), .blank ' ',
      .lexeme (.character "'\\''".toList) "'\\''".toList, .lexeme .emptyRule emptyWord]
      "a\n: '\\''%empty".toList :=
    .lexeme (.label ⟨'a', [], rfl, rfl, by simp⟩ (List.all_eq_true.1 rfl))
      (.blank rfl (.lexeme (.character (.escaped (by decide)) (by decide))
        (.lexeme (.emptyRule rfl) .done)))
  obtain ⟨hscan, hunique, hreading⟩ :=
    scanLines_eq_ok_iff [⟨"a\n".toList, 7⟩, ⟨": '\\''%empty".toList, 8⟩]
  refine ⟨(hscan _).2 ⟨_, hreads, rfl⟩, fun items hitems => ?_⟩
  rw [← (hreading items hitems).2, hunique items _ hitems hreads]
  rfl

end GrammarLexer
