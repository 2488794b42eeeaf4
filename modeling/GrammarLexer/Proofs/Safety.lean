import GrammarLexer.Proofs.GuardedCode

/-!
# Lexing never breaks off

The guarded lexer and the lexer agree on every file. So no cut of the guarded one is out of range or
inside a character, no count goes below zero, and every loop gets on until it ends.

* `Guarded.performs_read` -- **each form is taken** as it is read;
* `Guarded.Round` -- one round of a scan: a step, after which less is left, or an error;
* `Guarded.leads_scan` -- **a whole text is scanned**, by induction on what is left of it;
* `GrammarFile.report?_eq` -- **lexing never breaks off.**
-/

namespace GrammarLexer

/-! ## 1. Forms -/

namespace Guarded

variable {c : Cursor} {ch : Char} {ahead : Text}

theorem performs_takeWord (h : c.Placed) (kind : TokenKind) (p : Pattern) :
    Performs (takeWord kind p) c c (readPattern p c.rest)
      fun raw => some (.ofText kind raw c.position) := by
  unfold takeWord readPattern
  refine .bind (leads_position h) ?_
  cases hmatch : p.match? c.rest with
  | none => exact .bind (leads_takeMatch_none h hmatch) (Leads.fail h.unknownToken?)
  | some m => exact .bind (leads_takeMatch_some h hmatch) (.bind (.ask rfl) (Leads.pure _ _))

theorem performs_takePunctuator (h : c.Placed) :
    Performs takePunctuator c c (readPunctuator c.rest) fun value => value.token? c.position := by
  unfold takePunctuator
  refine .bind (leads_position h) ?_
  cases hrest : c.rest with
  | nil => exact .bind (leads_take_nil h hrest) (Leads.fail h.unknownToken?)
  | cons ch ahead =>
    refine .bind (leads_take h hrest) ?_
    rw [readPunctuator]
    dsimp only
    split
    · exact Leads.pure _ _
    · split
      · exact Leads.pure _ _
      · exact Leads.fail (h.skip 1).unknownToken?

theorem performs_takeNumber (h : c.Placed) :
    Performs takeNumber c c (readNumber c.rest) fun value => value.token? c.position := by
  have hdigits : (c.takeWhile Char.isDigit).1.getD [] = c.rest.takeWhile Char.isDigit := by
    dsimp only [Cursor.takeWhile]
    split
    case isTrue hnil => rw [hnil]; rfl
    case isFalse => rfl
  have hnumber := leads_numberOf h (c.rest.takeWhile Char.isDigit) (c.takeWhile Char.isDigit).2
  unfold takeNumber readNumber
  refine .bind (leads_position h) (.bind (.get c) (.bind (leads_takeWhile h Char.isDigit) ?_))
  rw [hdigits]
  dsimp only
  cases hvalue : Text.wordValue? (c.rest.takeWhile Char.isDigit) with
  | some n =>
    rw [hvalue] at hnumber
    exact .bind hnumber (Leads.pure _ _)
  | none =>
    rw [hvalue] at hnumber
    exact Leads.bind_error hnumber

theorem performs_takeIdentifier (h : c.Placed) :
    Performs takeIdentifier c c (readIdentifier c.rest) fun value => value.token? c.position := by
  unfold takeIdentifier readIdentifier readPattern
  refine .bind (leads_position h) ?_
  cases hmatch : Pattern.name.match? c.rest with
  | none => exact .bind (leads_takeMatch_none h hmatch) (Leads.fail h.unknownToken?)
  | some m =>
    have hname := h.skip m.width
    generalize hahead : ((c.skip m.width).skipWhile isBlank).rest = ahead
    have hblanks : ((c.skip m.width).skipWhile isBlank).Placed := hname.skip _
    have hafter : (c.rest.drop m.width).drop ((c.rest.drop m.width).takeWhile isBlank).length =
        ahead := by
      rw [← hahead, Cursor.skipWhile, Cursor.rest_skip, Cursor.rest_skip]
    refine .bind (leads_takeMatch_some h hmatch) (.bind (.ask rfl) (.bind (.get _)
      (.bind (leads_takeWhile hname isBlank) (.bind (leads_peek hblanks hahead) ?_))))
    dsimp only [Except.map]
    rw [hafter]
    split
    case isTrue hcolon =>
      obtain ⟨more, rfl⟩ := List.head?_eq_some_iff.1 hcolon
      have hcursor : c.skip (m.width + ((c.rest.drop m.width).takeWhile isBlank).length + 1) =
          ((c.skip m.width).skipWhile isBlank).skip 1 := by
        rw [Cursor.skip_add, Cursor.skip_add, Cursor.skipWhile, Cursor.rest_skip]
      refine .bind (leads_take hblanks hahead) ?_
      unfold Performs
      dsimp only
      rw [hcursor]
      exact Leads.pure _ _
    case isFalse =>
      -- the blanks are given back
      exact .bind (.set _ (c.skip m.width)) (Leads.pure _ _)

theorem performs_takePercentWord (h : c.Placed) :
    Performs takePercentWord c c (readPercentWord c.rest) fun value => value.token? c.position := by
  unfold takePercentWord readPercentWord readPattern
  refine .bind (.get c) (.bind (leads_position h) ?_)
  cases hmatch : Pattern.percentWord.match? c.rest with
  | none => exact .bind (leads_takeMatch_none h hmatch) (Leads.fail h.unknownToken?)
  | some m =>
    refine .bind (leads_takeMatch_some h hmatch) (.bind (.ask rfl) ?_)
    dsimp only
    split
    · exact Leads.pure _ _
    · cases Directive.ofKeyword? (c.rest.take m.width) with
      | some d => exact Leads.pure _ _
      | none =>
        dsimp only
        split
        · exact Leads.pure _ _
        · exact Leads.fail h.unknownToken?

theorem performs_takeCode (h : c.Placed) :
    Performs takeCode c c (Form.userCode.read c.rest) fun value => value.token? c.position := by
  rw [takeCode, Form.read]
  refine .bind (leads_position h) ?_
  cases hrest : c.rest with
  | nil => exact .bind (leads_take_nil h hrest) (Leads.fail h.unknownToken?)
  | cons ch ahead =>
    refine .bind (leads_take h hrest) ?_
    rw [Code.read]
    dsimp only
    split
    case isFalse => exact Leads.fail (h.skip 1).unknownToken?
    case isTrue hbrace =>
      subst hbrace
      have hblock := leads_takeBlock h (Cursor.rest_skip_one hrest) 0 ['{'] []
      have hposition : (c.skip 1).position = c.position.after ['{'] := by
        rw [h.position_skip, hrest]
        rfl
      cases hread : Code.readFrom 1 0 ahead with
      | error fault =>
        rw [hread] at hblock
        exact Leads.bind_error hblock
      | ok pieces =>
        have hlength : 1 + (Code.text pieces).length =
            (Code.text (.opening :: pieces)).length := Nat.add_comm _ _
        rw [hread] at hblock
        dsimp only at hblock
        rw [hposition, hlength] at hblock
        exact Leads.bind hblock (.pure _ _)

/-- **Each form is taken** as it is read. -/
theorem performs_read (h : c.Placed) (form : Form) :
    Performs (read form) c c (form.read c.rest) fun value => value.token? c.position := by
  cases form with
  | punctuator => exact performs_takePunctuator h
  | number => exact performs_takeNumber h
  | tag => exact .map Lexeme.tag (performs_takeWord h .tag .tag)
  | identifier => exact performs_takeIdentifier h
  | percentWord => exact performs_takePercentWord h
  | userCode => exact performs_takeCode h
  | stringLiteral =>
    have hquoted := leads_takeQuoted h '"'
    unfold Cursor.takeQuoted at hquoted
    rw [read, Form.read]
    refine .bind (leads_position h) ?_
    cases hread : readQuoted '"' c.rest with
    | error fault =>
      rw [hread] at hquoted
      exact Leads.bind_error hquoted
    | ok inner =>
      have hlength : (quotedRun '"' inner).length = inner.length + 2 := by simp [quotedRun]
      rw [hread] at hquoted
      dsimp only at hquoted
      rw [hlength] at hquoted
      exact Leads.bind hquoted (.pure _ _)
  | comment =>
    have hcomment := performs_takeComment h
    rw [read, Form.read]
    cases hread : readComment c.rest with
    | error fault =>
      rw [hread] at hcomment
      exact Leads.bind_error hcomment
    | ok inner =>
      rw [hread] at hcomment
      exact Leads.bind hcomment (.pure _ _)
  | charLiteral => exact .map Lexeme.character (performs_takeWord h .char .character)

/-- **The first form that starts here is taken.** -/
theorem performs_readFirst (h : c.Placed) (forms : List Form) :
    match Form.lexFirst? forms c.rest with
    | some (_, reading) =>
      Performs (readFirst forms) c c reading fun value => some (value.token? c.position)
    | none => Leads (readFirst forms) c (.ok none) c := by
  induction forms with
  | nil => exact .pure _ _
  | cons form forms ih =>
    rw [readFirst, Form.lexFirst?, List.findSome?_cons, Form.lex?]
    by_cases hstarts : form.startsHere c.rest = true
    · have hread := performs_read h form
      rw [if_pos hstarts]
      dsimp only [Option.map_some]
      refine .bind (leads_rest h rfl) ?_
      rw [if_pos hstarts]
      cases hreading : form.read c.rest with
      | ok taken =>
        rw [hreading] at hread
        exact Leads.bind hread (.pure _ _)
      | error fault =>
        rw [hreading] at hread
        exact Leads.bind_error hread
    · rw [if_neg hstarts]
      dsimp only [Option.map_none]
      rw [← Form.lexFirst?]
      cases hfirst : Form.lexFirst? forms c.rest with
      | none =>
        rw [hfirst] at ih
        refine .bind (leads_rest h rfl) ?_
        rwa [if_neg hstarts]
      | some found =>
        rw [hfirst] at ih
        refine .bind (leads_rest h rfl) ?_
        rwa [if_neg hstarts]

theorem leads_round_blank (h : c.Placed) (hrest : c.rest = ch :: ahead)
    (hblank : isBlank ch = true) : Leads round c (.ok none) (c.skipWhile isBlank) := by
  have hblanks := leads_takeWhile h isBlank
  unfold Cursor.takeWhile at hblanks
  rw [hrest, List.takeWhile_cons_of_pos hblank] at hblanks
  exact .bind hblanks (.pure _ _)

theorem performs_round (h : c.Placed) (hrest : c.rest = ch :: ahead)
    (hblank : ¬ isBlank ch = true) :
    match Form.lexFirst? Form.all c.rest with
    | some (_, reading) => Performs round c c reading fun value => value.token? c.position
    | none => Leads round c (.error c.unknownToken) c := by
  have hblanks := leads_takeWhile h isBlank
  have hfirst := performs_readFirst h Form.all
  unfold Cursor.takeWhile Cursor.skipWhile at hblanks
  rw [hrest, List.takeWhile_cons_of_neg hblank] at hblanks
  unfold round
  cases hlex : Form.lexFirst? Form.all c.rest with
  | none =>
    rw [hlex] at hfirst
    exact .bind hblanks (.bind hfirst (.fail h.unknownToken?))
  | some found =>
    rw [hlex] at hfirst
    refine .bind hblanks ?_
    dsimp only at hfirst ⊢
    cases hreading : found.2 with
    | ok taken =>
      rw [hreading] at hfirst
      exact Leads.bind hfirst (.pure _ _)
    | error fault =>
      rw [hreading] at hfirst
      exact Leads.bind_error hfirst

end Guarded

/-! ## 2. Texts -/

/-- What does not begin with a blank begins with a lexeme, or stops there. -/
theorem decompose_of_not_blank {ch : Char} (hblank : ¬ isBlank ch = true) (ahead : Text) :
    decompose (ch :: ahead) =
      match Form.lexFirst? Form.all (ch :: ahead) with
      | none => ⟨[], some (.unknownAt 0)⟩
      | some (_, .error fault) => ⟨[], some fault⟩
      | some (_, .ok taken) =>
        (decompose ((ch :: ahead).drop taken.width)).cons
          (.lexeme taken.value ((ch :: ahead).take taken.width)) := by
  rw [decompose, if_neg hblank]
  split
  case h_1 hnone => rw [hnone]
  case h_2 herror => rw [herror]
  case h_3 hok => rw [hok]

namespace Cursor

variable {c : Cursor}

/-- The scan of what is ahead of a cursor. -/
def scan (c : Cursor) : Scan :=
  { tokens := (decompose c.rest).tokens c.position
    error := (decompose c.rest).fault.map fun fault =>
      fault.error (c.skip (decompose c.rest).text.length) }

/-- One item, and the scan of what is after it. -/
theorem scan_eq_of_cons (h : c.Placed) {item : Item} {after : Text}
    (hrest : c.rest = item.text ++ after) (hitem : decompose c.rest = (decompose after).cons item) :
    c.scan = ⟨(item.token? c.position).toList ++ (c.skip item.text.length).scan.tokens,
      (c.skip item.text.length).scan.error⟩ := by
  have hafter : (c.skip item.text.length).rest = after := by
    rw [rest_skip, hrest, List.drop_left]
  have hposition : (c.skip item.text.length).position = c.position.after item.text := by
    rw [h.position_skip, hrest, List.take_left]
  have hend : c.skip (item.text ++ (decompose after).text).length =
      (c.skip item.text.length).skip (decompose after).text.length := by
    rw [List.length_append, skip_add]
  unfold scan
  rw [hafter, hposition, hitem, ← hend]
  rfl

/-- Nothing is scanned where reading stops at once. -/
theorem scan_eq_of_fault {fault : Fault} (h : decompose c.rest = ⟨[], some fault⟩) :
    c.scan = ⟨[], some (fault.error c)⟩ := by
  unfold scan
  rw [h]
  rfl

/-- A lexeme, and the scan of what is after it. -/
theorem scan_eq_of_lexFirst? (h : c.Placed) {form : Form} {taken : Taken Lexeme}
    (hfirst : Form.lexFirst? Form.all c.rest = some (form, .ok taken))
    (hitems : decompose c.rest = (decompose (c.rest.drop taken.width)).cons
      (.lexeme taken.value (c.rest.take taken.width))) :
    c.scan = ⟨(taken.value.token? c.position).toList ++ (c.skip taken.width).scan.tokens,
      (c.skip taken.width).scan.error⟩ := by
  obtain ⟨word, after, hrest, hwidth, -⟩ := Form.isLexeme_of_lex? (Form.lex?_of_lexFirst? hfirst)
  have htake : c.rest.take taken.width = word := by rw [hrest, hwidth, List.take_left]
  have hdrop : c.rest.drop taken.width = after := by rw [hrest, hwidth, List.drop_left]
  rw [htake, hdrop] at hitems
  rw [hwidth]
  exact scan_eq_of_cons h hrest hitems

/-- Blanks leave nothing in a scan. -/
theorem scan_skipWhile (h : c.Placed) : (c.skipWhile isBlank).scan = c.scan := by
  unfold skipWhile
  generalize hrest : c.rest = ahead
  induction ahead generalizing c with
  | nil => rfl
  | cons ch ahead ih =>
    by_cases hblank : isBlank ch = true
    · have hnext := ih (h.skip 1) (rest_skip_one hrest)
      have hitem : decompose c.rest = (decompose ahead).cons (.blank ch) := by
        rw [hrest, decompose_blank hblank]
      have hscan := scan_eq_of_cons h hrest hitem
      rw [← skip_add] at hnext
      rw [List.takeWhile_cons_of_pos hblank, List.length_cons, Nat.add_comm, hnext, hscan]
      rfl
    · rw [List.takeWhile_cons_of_neg hblank]
      rfl

end Cursor

namespace Guarded

variable {c : Cursor} {ch : Char} {ahead : Text}

/-- What one round of a scan comes to: a token or none, after which less is left, or an error. -/
inductive Round (c : Cursor) : Prop where
  | step {token : Option Token} {c' : Cursor} : Leads round c (.ok token) c' → c'.Placed →
      c'.bytes.left < c.bytes.left →
      c.scan = ⟨token.toList ++ c'.scan.tokens, c'.scan.error⟩ → Round c
  | stop {e : LexError} {c' : Cursor} : Leads round c (.error e) c' →
      c.scan = ⟨[], some e⟩ → Round c

/-- **One round**, where something is ahead. -/
theorem round_of_rest (h : c.Placed) (hrest : c.rest = ch :: ahead) : Round c := by
  have hne : c.rest ≠ [] := hrest ▸ List.cons_ne_nil _ _
  by_cases hblank : isBlank ch = true
  · have hpos : 0 < (c.rest.takeWhile isBlank).length := by
      rw [hrest, List.takeWhile_cons_of_pos hblank]
      exact Nat.succ_pos _
    exact .step (leads_round_blank h hrest hblank) (h.skip _) (h.left_skip_lt hne hpos)
      (Cursor.scan_skipWhile h).symm
  · have hround := performs_round h hrest hblank
    have hitems := decompose_of_not_blank hblank ahead
    rw [← hrest] at hitems
    cases hfirst : Form.lexFirst? Form.all c.rest with
    | none =>
      rw [hfirst] at hround hitems
      exact .stop hround (Cursor.scan_eq_of_fault hitems)
    | some found =>
      obtain ⟨form, reading⟩ := found
      rw [hfirst] at hround hitems
      cases reading with
      | error fault => exact .stop hround (Cursor.scan_eq_of_fault hitems)
      | ok taken =>
        exact .step hround (h.skip _) (h.left_skip_lt hne (Form.width_pos_of_lexFirst? hfirst))
          (Cursor.scan_eq_of_lexFirst? h hfirst hitems)

theorem leads_scanStep_end (h : c.Placed) (hrest : c.rest = []) (done : List Token) :
    Leads (scanStep done) c (.ok (.done ⟨done, none⟩)) c := by
  refine .bind (.get c) ?_
  rw [if_neg fun hlt => h.index_lt_iff.1 hlt hrest]
  exact .pure _ _

theorem leads_scanStep (h : c.Placed) (hrest : c.rest ≠ []) {r : Except LexError (Option Token)}
    {c' : Cursor} (hround : Leads round c r c') (done : List Token) :
    Leads (scanStep done) c
      (match r with
        | .ok token => .ok (.again (done ++ token.toList))
        | .error e => .ok (.done ⟨done, some e⟩)) c' := by
  refine .bind (.get c) ?_
  rw [if_pos (h.index_lt_iff.2 hrest)]
  refine .bind (.attempt hround) ?_
  cases r with
  | ok token => exact .pure _ _
  | error e => exact .pure _ _

/-- **A whole text is scanned.** The induction is on how much of it is left. -/
theorem leads_scan (h : c.Placed) (done : List Token) :
    ∃ c', Leads (scan done) c (.ok ⟨done ++ c.scan.tokens, c.scan.error⟩) c' := by
  generalize hleft : c.bytes.left = n
  induction n using Nat.strongRecOn generalizing c done with
  | ind n ih =>
    cases hrest : c.rest with
    | nil =>
      have hscan : c.scan = ⟨[], none⟩ := by
        rw [Cursor.scan, hrest, decompose]
        rfl
      rw [hscan, List.append_nil]
      exact ⟨c, .done (leads_scanStep_end h hrest done)⟩
    | cons ch ahead =>
      have hne : c.rest ≠ [] := hrest ▸ List.cons_ne_nil _ _
      cases round_of_rest h hrest with
      | @step token c₁ hround hplaced hless hscan =>
        obtain ⟨c', hnext⟩ := ih _ (hleft ▸ hless) hplaced (done ++ token.toList) rfl
        rw [hscan, ← List.append_assoc]
        exact ⟨c', .again (leads_scanStep h hne hround done) hless hnext⟩
      | @stop e c' hround hscan =>
        rw [hscan, List.append_nil]
        exact ⟨c', .done (leads_scanStep h hne hround done)⟩

end Guarded

/-! ## 3. Files -/

/-- **The lines of a section are scanned** without breaking off. -/
theorem scanLines?_eq (lines : List Line) : scanLines? lines = some (scanLines lines) := by
  cases lines with
  | nil => rfl
  | cons first more =>
    obtain ⟨c, hscan⟩ := Guarded.leads_scan
      (Cursor.Placed.start ((first :: more).flatMap Line.text) first.number) []
    have hrun : Guarded.scan [] ⟨(first :: more).flatMap Line.text, 0, first.number, 0⟩ =
      some (.ok (scanLines (first :: more)), c.bytes) := hscan
    rw [scanLines?, hrun]

theorem reportScan?_eq (debug : Bool) (lines : List Line) :
    reportScan? debug lines = some (reportScan debug lines) := by
  rw [reportScan?, scanLines?_eq]
  rfl

theorem Report.andThen?_some {α β : Type} (first : Report α) (second : α → Report β) :
    (first.andThen? fun a => some (second a)) = some (first.andThen second) := by
  unfold andThen? andThen
  cases first.result with
  | error e => rfl
  | ok a => rfl

namespace GrammarFile

/-- **Lexing never breaks off.** Whatever the file is, and whether tokens are shown or not, the
guarded lexer gives what the lexer gives. In a file that was lexed, the size of each reference and
the offset of its last byte can be counted too. -/
theorem report?_eq (debug : Bool) (text : Text) :
    report? debug text = some (report debug text) ∧
      ∀ file, lex text = .ok file → ∀ which, ∀ t ∈ file.tokens which, ∀ r ∈ t.references,
        ∃ size last, r.span.size? = some size ∧ r.last? = some last ∧
          r.span.start + size = last + 1 := by
  constructor
  · simp only [report?, reportScan?_eq, Option.bind_eq_bind, Option.bind_some,
      Report.andThen?_some]
    rfl
  · intro file hlex which t ht r hr
    obtain ⟨-, hscan⟩ := section_of_lex hlex ht
    obtain ⟨items, hdecompose, htokens⟩ := (scanLines_result_iff _ _).1 hscan
    rw [htokens] at ht
    obtain ⟨pre, value, word, rest, -, hlexes, htoken⟩ :=
      (decompose_eq_iff.1 hdecompose).exists_lexeme ht
    obtain ⟨block, hread, -, -, hr⟩ := hlexes.exists_code htoken hr
    have hlt : r.span.start < r.span.stop :=
      (Code.scan_of_read hread _).1.start_lt_stop (List.mem_map_of_mem hr)
    exact ⟨_, _, if_pos (Nat.le_of_lt hlt), if_pos (by omega), by omega⟩

/-- A placeholder after a character of two bytes. -/
theorem report?_placeholder_after_accent :
    report? true "%\x7b\n%\x7d\n%%\n\x7bé$1\x7d".toList =
        some (report true "%\x7b\n%\x7d\n%%\n\x7bé$1\x7d".toList) ∧
      ∃ file, lex "%\x7b\n%\x7d\n%%\n\x7bé$1\x7d".toList = .ok file ∧
        ∃ t ∈ file.tokens .rules, ∃ r ∈ t.references, r.span = ⟨3, 5⟩ ∧
          ∃ size last, r.span.size? = some size ∧ r.last? = some last ∧ 3 + size = last + 1 := by
  have hchain : Code.Chain 0 [.plain 'é', .placeholder ⟨.value, none, some ['1']⟩, .closing] [] :=
    .step (.of_read rfl rfl) rfl (.step (.of_read rfl rfl) rfl .last)
  have hread := Code.read_eq_ok_iff.2 ⟨_, [], rfl, rfl, hchain⟩
  have hcode : Lexes (.code _) "\x7bé$1\x7d".toList [] :=
    .code (Code.isBlock_of_read hread).2.1 hread
  have hreads : Reads _ "\x7bé$1\x7d".toList := .lexeme hcode .done
  have hrules := (scanLines_result_iff [⟨"\x7bé$1\x7d".toList, 4⟩] _).2
    ⟨_, decompose_eq_iff.2 hreads, rfl⟩
  have hlex : lex "%\x7b\n%\x7d\n%%\n\x7bé$1\x7d".toList = .ok ⟨⟨[⟨[], 1⟩, ⟨[], 2⟩], [],
      [⟨"\x7bé$1\x7d".toList, 4⟩], []⟩, [], _⟩ :=
    lex_eq_ok_iff.2 ⟨_, rfl, rfl, rfl, hrules⟩
  obtain ⟨hreport, hreferences⟩ := report?_eq true "%\x7b\n%\x7d\n%%\n\x7bé$1\x7d".toList
  exact ⟨hreport, _, hlex, _, .head _, _, .head _, rfl,
    hreferences _ hlex .rules _ (.head _) _ (.head _)⟩

end GrammarFile

end GrammarLexer
