import Mathlib.Data.List.TakeWhile
import GrammarLexer.Proofs.LongestMatch
import GrammarLexer.Proofs.Respelling

/-!
# Labels

A name that a colon follows is a label, whatever blanks come between. To find out, the blanks after
a name are looked through ahead of the cursor; they are passed if a colon ends them, and else they
stay.

* `Operation.AsksFor.label`, `Operation.AsksFor.name` -- a name with its colon, and one without;
* `Item.content?`, `Reads.content_tokensFrom` -- what tokens are does not depend on where their
  lexemes stand;
* `Reads.respace` -- a text is read as before when the blanks in a label are others;
* `labels_and_names` -- **the colon decides, the blanks before it do not**: at a cursor, and for the
  tokens of a whole text.
-/

namespace GrammarLexer

open Decomposition (tokensFrom)
open Text (Stops)

/-! ## 1. Cursors at a name -/

/-- The first character that is no blank is the colon of a label. -/
theorem find?_colon_iff {after : Text} :
    List.find? (fun ch => !isBlank ch) after = some ':' ↔
      ∃ blanks rest, after = blanks ++ ':' :: rest ∧ ∀ ch ∈ blanks, isBlank ch = true := by
  rw [List.find?_not_eq_head?_dropWhile]
  constructor
  · intro hcolon
    obtain ⟨rest, hrest⟩ := List.head?_eq_some_iff.1 hcolon
    refine ⟨after.takeWhile isBlank, rest, ?_, fun _ => Text.of_mem_takeWhile⟩
    rw [← hrest, List.takeWhile_append_dropWhile]
  · rintro ⟨blanks, rest, rfl, hblanks⟩
    rw [List.dropWhile_append_of_pos hblanks, List.dropWhile_cons_of_neg (by decide)]
    rfl

namespace Operation.AsksFor

variable {op : Operation} {c : Cursor} {own : Text}

/-- A name and its colon are passed, with the blanks between them. -/
theorem label (hop : op.AsksFor .identifier) {blanks rest : Text}
    (hrest : c.rest = own ++ (blanks ++ ':' :: rest)) (hname : IsName own)
    (hblanks : ∀ ch ∈ blanks, isBlank ch = true) :
    ∃ c', op.run c = (.outcome (.lexed .identifier (.identifier own true) c.position), c') ∧
      c.Passes (own ++ blanks ++ [':']) c' := by
  have hlex : Lexes (.identifier own true) (own ++ blanks ++ [':']) rest := .label hname hblanks
  exact hop.run_ok (by simpa using hrest) hlex.lex?

/-- A name without a colon is passed alone. -/
theorem name (hop : op.AsksFor .identifier) {after : Text} (hrest : c.rest = own ++ after)
    (hname : IsName own) (hstops : Stops isNameChar after)
    (hcolon : List.find? (fun ch => !isBlank ch) after ≠ some ':') :
    ∃ c', op.run c = (.outcome (.lexed .identifier (.identifier own false) c.position), c') ∧
      c.Passes own c' := by
  rw [List.find?_not_eq_head?_dropWhile] at hcolon
  exact hop.run_ok hrest (Lexes.name hname hstops hcolon).lex?

end Operation.AsksFor

/-! ## 2. Other blanks -/

/-- What the token of a lexeme is does not depend on where it stands. -/
theorem Lexes.content_token? {value : Lexeme} {word rest : Text} (h : Lexes value word rest)
    (p q : Position) : (value.token? p).map Token.content = (value.token? q).map Token.content := by
  cases hp : value.token? p with
  | some t =>
    obtain ⟨t', hq, hcontent⟩ := h.exists_token hp q
    rw [hq, Option.map_some, Option.map_some, hcontent]
  | none =>
    cases hq : value.token? q with
    | none => rfl
    | some t =>
      obtain ⟨t', hp', -⟩ := h.exists_token hq p
      rw [hp] at hp'
      cases hp'

/-- What the token of an item is, if there is one: the text of the item does not matter, nor does
where it stands. -/
def Item.content? (item : Item) : Option ((TokenKind × TokenValue) × List Outline) :=
  (item.token? ⟨1, 1⟩).map Token.content

theorem Reads.content_tokensFrom {items : List Item} {s : Text} (h : Reads items s)
    (p : Position) : (tokensFrom p items).map Token.content = items.filterMap Item.content? := by
  induction h generalizing p with
  | done => rfl
  | blank _ _ ih => exact ih _
  | @lexeme value items word rest hlexes _ ih =>
    have hfirst : (value.token? p).map Token.content = (Item.lexeme value word).content? :=
      hlexes.content_token? p ⟨1, 1⟩
    rw [tokensFrom, List.map_append, ih, List.filterMap_cons, ← hfirst, Item.token?]
    cases value.token? p with
    | none => rfl
    | some t => rfl

/-- What ends before a text that is read ends before another one that begins alike. -/
theorem Reads.endsLike {items : List Item} {s s' : Text} (h : Reads items s')
    (hhead : s'.head? = s.head?) : s.EndsLike s' where
  stops _ hs := by rwa [Stops, hhead]
  no_colon _ := h.no_colon

/-- **A text is read as before when the blanks in a label are others.** -/
theorem Reads.respace {before more : List Item} {name word s blanks : Text}
    (h : Reads (before ++ .lexeme (.identifier name true) word :: more) s)
    (hblanks : ∀ ch ∈ blanks, isBlank ch = true) :
    ∃ s', Reads (before ++ .lexeme (.identifier name true) (name ++ blanks ++ [':']) :: more) s' ∧
      s'.head? = s.head? := by
  -- the follower of each item before the label begins as before, and with no colon
  induction before generalizing s with
  | nil =>
    cases h with
    | lexeme hlexes hmore =>
      cases hlexes with
      | label hname _ =>
        refine ⟨_, .lexeme (.label hname hblanks) hmore, ?_⟩
        obtain ⟨ch, own, rfl, -, -⟩ := hname
        rfl
  | cons item before ih =>
    cases h with
    | blank hblank hrest =>
      obtain ⟨s', hreads, -⟩ := ih hrest
      exact ⟨_, .blank hblank hreads, rfl⟩
    | lexeme hlexes hrest =>
      obtain ⟨s', hreads, hhead⟩ := ih hrest
      obtain ⟨ch, own, rfl⟩ := List.exists_cons_of_ne_nil hlexes.ne_nil
      exact ⟨_, .lexeme (hlexes.change (hreads.endsLike hhead)) hreads, rfl⟩

theorem Lexes.label_of_kind {value : Lexeme} {word rest : Text} {p : Position} {t : Token}
    (h : Lexes value word rest) (ht : value.token? p = some t) (hkind : t.kind = .identColon) :
    ∃ name blanks, value = .identifier name true ∧ word = name ++ blanks ++ [':'] ∧ IsName name ∧
      (∀ ch ∈ blanks, isBlank ch = true) ∧ t.value = .text name ∧ t.position = p := by
  cases h with
  | @label name blanks _ hname hblanks =>
    cases ht
    exact ⟨name, blanks, rfl, rfl, hname, hblanks, rfl, rfl⟩
  | emptyRule | comment => cases ht
  | _ =>
    cases ht
    cases hkind

/-! ## 3. The colon decides -/

/-- **A label is told by its colon alone.** Where a name starts, the longest one is taken. If the
first character after it that is no blank is a colon, however many blanks and lines come between,
then the cursor stands right after that colon; else it stands right after the name. So in a text
that can be scanned, the blanks between a name and its colon can be any others, or none: there are
as many tokens as before, each with the kind, the value and the references that it had. -/
theorem labels_and_names :
    (∀ c : Cursor, Form.identifier.startsHere c.rest = true →
      ∃ name after, c.rest = name ++ after ∧ Longest IsName name c.rest ∧
        ∀ op : Operation, op.AsksFor .identifier → ∃ colon c',
          op.run c = (.outcome (.lexed .identifier (.identifier name colon) c.position), c') ∧
          (colon = true ↔ List.find? (fun ch => !isBlank ch) after = some ':') ∧
          (colon = true → ∃ blanks, (∀ ch ∈ blanks, isBlank ch = true) ∧
            c.Passes (name ++ blanks ++ [':']) c') ∧
          (colon = false → c.Passes name c')) ∧
    ∀ (n : Nat) (s : Text) (tokens : List Token), scanFrom n s = .ok tokens →
      ∀ t ∈ tokens, t.kind = .identColon →
        ∃ pre name blanks rest, s = pre ++ (name ++ blanks ++ ':' :: rest) ∧ IsName name ∧
          (∀ ch ∈ blanks, isBlank ch = true) ∧ t.value = .text name ∧
          t.position = Position.after ⟨n, 1⟩ pre ∧
          ∀ blanks', (∀ ch ∈ blanks', isBlank ch = true) →
            ∀ m, ∃ tokens', scanFrom m (pre ++ (name ++ blanks' ++ ':' :: rest)) = .ok tokens' ∧
              tokens'.map Token.content = tokens.map Token.content := by
  constructor
  · intro c hstarts
    obtain ⟨m, hm⟩ := Option.isSome_iff_exists.1 hstarts
    obtain ⟨name, after, hrest, hname, hstops, -⟩ := Pattern.match?_name_iff.1 hm
    refine ⟨name, after, hrest, goesOnWith_isName.longest_iff_stops.2 ⟨hname, after, hrest, hstops⟩,
      fun op hop => ?_⟩
    by_cases hcolon : List.find? (fun ch => !isBlank ch) after = some ':'
    · obtain ⟨blanks, rest, rfl, hblanks⟩ := find?_colon_iff.1 hcolon
      obtain ⟨c', hrun, hpasses⟩ := hop.label hrest hname hblanks
      exact ⟨true, c', hrun, by simp [hcolon], fun _ => ⟨blanks, hblanks, hpasses⟩,
        fun h => (nomatch h)⟩
    · obtain ⟨c', hrun, hpasses⟩ := hop.name hrest hname hstops hcolon
      exact ⟨false, c', hrun, by simp [hcolon], fun h => (nomatch h), fun _ => hpasses⟩
  · intro n s tokens hscan t ht hkind
    obtain ⟨items, hreads, rfl⟩ := scanFrom_eq_ok_iff.1 hscan
    obtain ⟨before, value, word, more, rest, rfl, hbefore, hlexes, htoken⟩ :=
      hreads.readsTo.exists_lexeme ht
    obtain ⟨name, blanks, rfl, rfl, hname, hblanks, hvalue, hposition⟩ :=
      hlexes.label_of_kind htoken hkind
    have htext : s = before.flatMap Item.text ++ (name ++ blanks ++ ':' :: rest) := by
      simpa using hbefore.text_eq
    have hmore : more.flatMap Item.text = rest := by
      have hall := hreads.text_eq
      rw [htext] at hall
      simpa [Item.text] using hall
    refine ⟨_, name, blanks, rest, htext, hname, hblanks, hvalue, hposition,
      fun blanks' hblanks' m => ?_⟩
    obtain ⟨s', hreads', -⟩ := hreads.respace hblanks'
    have htext' : s' = before.flatMap Item.text ++ (name ++ blanks' ++ ':' :: rest) := by
      rw [← hreads'.text_eq, ← hmore]
      simp [Item.text]
    rw [← htext']
    refine ⟨_, scanFrom_eq_ok_iff.2 ⟨_, hreads', rfl⟩, ?_⟩
    rw [hreads'.content_tokensFrom, hreads.content_tokensFrom, List.filterMap_append,
      List.filterMap_append]
    rfl

/-- A name whose colon comes two lines later, and a label before a character literal whose colon is
on the line after its name. -/
theorem labels_and_names_moved_colon :
    (∃ name after, "a-1 \n\n:b".toList = name ++ after ∧ Longest IsName name "a-1 \n\n:b".toList ∧
      ∀ op : Operation, op.AsksFor .identifier → ∃ colon c',
        op.run (.start "a-1 \n\n:b".toList 1) =
          (.outcome (.lexed .identifier (.identifier name colon) ⟨1, 1⟩), c') ∧
        (colon = true ↔ List.find? (fun ch => !isBlank ch) after = some ':') ∧
        (colon = true → ∃ blanks, (∀ ch ∈ blanks, isBlank ch = true) ∧
          (Cursor.start "a-1 \n\n:b".toList 1).Passes (name ++ blanks ++ [':']) c') ∧
        (colon = false → (Cursor.start "a-1 \n\n:b".toList 1).Passes name c')) ∧
    scanFrom 7 "x\n:'y'".toList =
      .ok [.ofText .identColon ['x'] ⟨7, 1⟩, .ofText .char "'y'".toList ⟨8, 2⟩] ∧
    ∃ pre name blanks rest, "x\n:'y'".toList = pre ++ (name ++ blanks ++ ':' :: rest) ∧
      IsName name ∧ (∀ ch ∈ blanks, isBlank ch = true) ∧ TokenValue.text ['x'] = .text name ∧
      (⟨7, 1⟩ : Position) = Position.after ⟨7, 1⟩ pre ∧
      ∀ blanks', (∀ ch ∈ blanks', isBlank ch = true) →
        ∀ m, ∃ tokens', scanFrom m (pre ++ (name ++ blanks' ++ ':' :: rest)) = .ok tokens' ∧
          tokens'.map Token.content =
            [((.identColon, .text ['x']), []), ((.char, .text "'y'".toList), [])] := by
  have hlabel : Lexes (.identifier ['x'] true) (['x'] ++ ['\n'] ++ [':']) "'y'".toList :=
    .label ⟨'x', [], rfl, rfl, by simp⟩ (List.all_eq_true.1 rfl)
  have hquoted : Lexes (.character "'y'".toList) "'y'".toList [] :=
    .character (.plain (by decide)) (by decide)
  have hreads : Reads _ "x\n:'y'".toList := .lexeme hlabel (.lexeme hquoted .done)
  have hscan : scanFrom 7 "x\n:'y'".toList =
      .ok [.ofText .identColon ['x'] ⟨7, 1⟩, .ofText .char "'y'".toList ⟨8, 2⟩] :=
    scanFrom_eq_ok_iff.2 ⟨_, hreads, rfl⟩
  exact ⟨labels_and_names.1 (.start "a-1 \n\n:b".toList 1) rfl, hscan,
    labels_and_names.2 7 _ _ hscan _ List.mem_cons_self rfl⟩

end GrammarLexer
