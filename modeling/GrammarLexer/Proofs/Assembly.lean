import GrammarLexer.Proofs.Locations
import GrammarLexer.Proofs.Partition
import GrammarLexer.Proofs.Relocation

/-!
# Files put together from parts

A file with all its delimiters is put together from the lines before the prologue, the lines of the
first three sections, and the text of the epilogue. Lexing takes it apart again, and the tokens come
from the declarations and the rules alone.

* `FileParts`, `FileParts.text` -- the parts, and the file that they make up;
* `FileParts.lines_text`, `FileParts.layOut_text` -- its lines, and its layout;
* `GrammarFile.lexTokens`, `GrammarFile.moveDown` -- what lexing a file comes to, without its
  sections, and the same further down;
* `FileParts.lex_text` -- **lexing takes a file apart**, and two files with the same declarations
  and the same rules have the same tokens, or the same error, some lines apart.
-/

namespace GrammarLexer

/-! ## 1. Whole lines -/

/-- A line with the newline that ends it. -/
def IsLine (line : Text) : Prop := ∃ body, line = body ++ ['\n'] ∧ '\n' ∉ body

theorem Text.lines_append_of_isLine {line : Text} (h : IsLine line) (rest : Text) :
    (line ++ rest).lines = line :: rest.lines := by
  obtain ⟨body, rfl, hbody⟩ := h
  induction body with
  | nil => simp [lines]
  | cons ch body ih =>
    simp only [List.mem_cons, not_or] at hbody
    rw [List.cons_append, List.cons_append, lines, if_neg (Ne.symm hbody.1), ih hbody.2]

/-- The lines of whole lines put together are these lines, and then those of what follows. -/
theorem Text.lines_flatten_append {texts : List Text} (h : ∀ line ∈ texts, IsLine line)
    (rest : Text) : lines (texts.flatten ++ rest) = texts ++ rest.lines := by
  induction texts with
  | nil => rfl
  | cons line texts ih =>
    rw [List.flatten_cons, List.append_assoc, lines_append_of_isLine (h line List.mem_cons_self),
      ih fun l hl => h l (List.mem_cons_of_mem _ hl), List.cons_append]

theorem text_mem_of_mem_numberFrom {n : Nat} {texts : List Text} {line : Line}
    (h : line ∈ numberFrom n texts) : line.text ∈ texts := by
  obtain ⟨⟨text, number⟩, hentry, rfl⟩ := List.mem_map.1 h
  exact (List.mem_zipIdx hentry).2.2 ▸ List.getElem_mem _

/-- Numbered lines are cut where their texts are. -/
theorem cut_numberFrom {mark : Text} {before : List Text} (h : ∀ line ∈ before, line ≠ mark)
    (after : List Text) {n m : Nat} (hm : m = n + before.length) :
    Cut mark (numberFrom n (before ++ mark :: after)) (numberFrom n before) (some ⟨mark, m⟩)
      (numberFrom (m + 1) after) := by
  subst hm
  rw [numberFrom_append]
  exact .found (fun line hline => h _ (text_mem_of_mem_numberFrom hline)) rfl

/-! ## 2. Parts -/

/-- The parts of a file that has all its delimiters: whole lines before the prologue and in each
section, none of which is the delimiter that ends them, and any text as the epilogue. -/
structure FileParts where
  junk : List Text
  prologue : List Text
  declarations : List Text
  rules : List Text
  epilogue : Text
  junk_lines : ∀ line ∈ junk, IsLine line ∧ line ≠ "%\x7b\n".toList
  prologue_lines : ∀ line ∈ prologue, IsLine line ∧ line ≠ "%\x7d\n".toList
  declarations_lines : ∀ line ∈ declarations, IsLine line ∧ line ≠ "%%\n".toList
  rules_lines : ∀ line ∈ rules, IsLine line ∧ line ≠ "%%\n".toList

namespace FileParts

/-- The file that the parts make up. -/
def text (parts : FileParts) : Text :=
  parts.junk.flatten ++ "%\x7b\n".toList ++ parts.prologue.flatten ++ "%\x7d\n".toList ++
    parts.declarations.flatten ++ "%%\n".toList ++ parts.rules.flatten ++ "%%\n".toList ++
    parts.epilogue

/-- The text of a section. -/
def sectionText (parts : FileParts) : Section → Text
  | .prologue => parts.prologue.flatten
  | .declarations => parts.declarations.flatten
  | .rules => parts.rules.flatten
  | .epilogue => parts.epilogue

/-- How many lines come before the declarations, apart from delimiters. -/
def offset (parts : FileParts) : Nat := parts.junk.length + parts.prologue.length

theorem lines_text (parts : FileParts) :
    parts.text.lines = parts.junk ++ "%\x7b\n".toList :: (parts.prologue ++ "%\x7d\n".toList ::
      (parts.declarations ++ "%%\n".toList :: (parts.rules ++ "%%\n".toList ::
        parts.epilogue.lines))) := by
  have hopening : IsLine "%\x7b\n".toList := ⟨['%', '{'], rfl, by decide⟩
  have hclosing : IsLine "%\x7d\n".toList := ⟨['%', '}'], rfl, by decide⟩
  have hbreak : IsLine "%%\n".toList := ⟨['%', '%'], rfl, by decide⟩
  simp only [text, List.append_assoc]
  rw [Text.lines_flatten_append fun line h => (parts.junk_lines line h).1,
    Text.lines_append_of_isLine hopening,
    Text.lines_flatten_append fun line h => (parts.prologue_lines line h).1,
    Text.lines_append_of_isLine hclosing,
    Text.lines_flatten_append fun line h => (parts.declarations_lines line h).1,
    Text.lines_append_of_isLine hbreak,
    Text.lines_flatten_append fun line h => (parts.rules_lines line h).1,
    Text.lines_append_of_isLine hbreak]

/-- The sections of the file. -/
def sections (parts : FileParts) : Sections where
  prologue := ⟨[], parts.junk.length + 1⟩ :: numberFrom (parts.junk.length + 2) parts.prologue ++
    [⟨[], parts.offset + 2⟩]
  declarations := numberFrom (parts.offset + 3) parts.declarations
  rules := numberFrom (parts.offset + parts.declarations.length + 4) parts.rules
  epilogue := numberFrom (parts.offset + parts.declarations.length + parts.rules.length + 5)
    parts.epilogue.lines

/-- **The layout of the file has the parts as its sections.** -/
theorem layOut_text (parts : FileParts) :
    ∃ layout, layOut parts.text = .ok layout ∧ layout.sections = parts.sections := by
  obtain ⟨layout, hlayout, hdealt⟩ := exists_layOut parts.text
  refine ⟨layout, hlayout, ?_⟩
  obtain ⟨dropped, opening, inside, inner, closing, outside, firstBreak, body, secondBreak, hopening,
    hclosing, hfirst, hsecond, hprologue⟩ := hdealt.cuts
  rw [Text.numberedLines, lines_text] at hopening
  obtain ⟨-, rfl, rfl⟩ := hopening.unique
    (cut_numberFrom (m := parts.junk.length + 1) (fun line h => (parts.junk_lines line h).2) _
      (by omega))
  obtain ⟨rfl, rfl, rfl⟩ := hclosing.unique
    (cut_numberFrom (m := parts.offset + 2) (fun line h => (parts.prologue_lines line h).2) _
      (by unfold offset; omega))
  obtain ⟨hdeclarations, -, rfl⟩ := hfirst.unique
    (cut_numberFrom (m := parts.offset + parts.declarations.length + 3)
      (fun line h => (parts.declarations_lines line h).2) _ (by omega))
  obtain ⟨hrules, -, hepilogue⟩ := hsecond.unique
    (cut_numberFrom (m := parts.offset + parts.declarations.length + parts.rules.length + 4)
      (fun line h => (parts.rules_lines line h).2) _ (by omega))
  obtain ⟨stage, prologue, declarations, rules, epilogue⟩ := layout
  dsimp only at hdeclarations hrules hepilogue hprologue
  subst hdeclarations hrules hepilogue hprologue
  rfl

theorem flatMap_sections (parts : FileParts) (which : Section) :
    (parts.sections.get which).flatMap Line.text = parts.sectionText which := by
  cases which with
  | prologue =>
    simp [sections, Sections.get, sectionText, List.flatMap_append, flatMap_numberFrom]
  | declarations => exact flatMap_numberFrom _ _
  | rules => exact flatMap_numberFrom _ _
  | epilogue => exact (flatMap_numberFrom _ _).trans (Text.flatten_lines _)

end FileParts

/-! ## 3. Lexing -/

theorem Report.result_andThen {α β : Type} (first : Report α) (second : α → Report β) :
    (first.andThen second).result = first.result.bind fun a => (second a).result := by
  unfold andThen
  cases first.result <;> rfl

namespace GrammarFile

/-- Lexing a file scans the declarations of its layout, and then the rules. -/
theorem lex_of_layOut {text : Text} {layout : Layout} (h : layOut text = .ok layout) :
    lex text = (scanLines layout.sections.declarations).result.bind fun declarationTokens =>
      (scanLines layout.sections.rules).result.map fun ruleTokens =>
        ⟨layout.sections, declarationTokens, ruleTokens⟩ := by
  simp only [lex, report, Report.result_within, Report.result_andThen, reportLayout_result, h,
    reportScan, Report.pure]
  rfl

/-- The tokens of a file, those of its declarations and those of its rules, or the error. -/
def lexTokens (text : Text) : Except LexError (List Token × List Token) :=
  (lex text).map fun file => (file.declarationTokens, file.ruleTokens)

/-- The same tokens, or the same error, `k` lines further down. -/
def moveDown (k : Nat) (result : Except LexError (List Token × List Token)) :
    Except LexError (List Token × List Token) :=
  (result.map fun (declarationTokens, ruleTokens) =>
    (declarationTokens.map (Token.relocate (Position.down k)),
      ruleTokens.map (Token.relocate (Position.down k)))).mapError
    (LexError.relocate (Position.down k))

end GrammarFile

open GrammarFile (lex lexTokens moveDown)

namespace FileParts

/-- **The tokens come from the declarations and the rules**, each scanned from its first line on. -/
theorem lexTokens_text (parts : FileParts) :
    lexTokens parts.text =
      (scanFrom (parts.offset + 3) parts.declarations.flatten).bind fun declarationTokens =>
        (scanFrom (parts.offset + parts.declarations.length + 4) parts.rules.flatten).map
          fun ruleTokens => (declarationTokens, ruleTokens) := by
  obtain ⟨layout, hlayout, hsections⟩ := parts.layOut_text
  have hwhole : ∀ {texts : List Text}, (∀ line ∈ texts, IsLine line) →
      Text.lines texts.flatten = texts := by
    intro texts h
    have hlines := Text.lines_flatten_append h []
    rwa [List.append_nil, Text.lines, List.append_nil] at hlines
  have hdeclarations := hwhole fun line h => (parts.declarations_lines line h).1
  have hrules := hwhole fun line h => (parts.rules_lines line h).1
  rw [lexTokens, GrammarFile.lex_of_layOut hlayout, hsections, scanFrom, scanFrom, hdeclarations,
    hrules, sections]
  dsimp only
  cases (scanLines (numberFrom (parts.offset + 3) parts.declarations)).result with
  | error e => rfl
  | ok declarationTokens =>
    cases (scanLines (numberFrom _ parts.rules)).result <;> rfl

/-- The sections of a file that was lexed have the texts of the parts. -/
theorem sectionText_of_lex {parts : FileParts} {file : GrammarFile}
    (h : lex parts.text = .ok file) (which : Section) :
    file.sectionText which = parts.sectionText which := by
  obtain ⟨layout, hlayout, hsections⟩ := parts.layOut_text
  obtain ⟨layout', hlayout', hfile, -⟩ := GrammarFile.lex_eq_ok_iff.1 h
  rw [hlayout] at hlayout'
  cases hlayout'
  rw [GrammarFile.sectionText, hfile, hsections, flatMap_sections]

theorem lexTokens_text_eq_ok_iff {parts : FileParts} {declarationTokens ruleTokens : List Token} :
    lexTokens parts.text = .ok (declarationTokens, ruleTokens) ↔
      scanFrom (parts.offset + 3) parts.declarations.flatten = .ok declarationTokens ∧
      scanFrom (parts.offset + parts.declarations.length + 4) parts.rules.flatten =
        .ok ruleTokens := by
  rw [lexTokens_text]
  cases scanFrom (parts.offset + 3) parts.declarations.flatten with
  | error e => simp [Except.bind]
  | ok tokens =>
    cases scanFrom (parts.offset + parts.declarations.length + 4) parts.rules.flatten <;>
      simp [Except.bind, Except.map]

theorem lexTokens_text_eq_error_iff {parts : FileParts} {e : LexError} :
    lexTokens parts.text = .error e ↔
      scanFrom (parts.offset + 3) parts.declarations.flatten = .error e ∨
        ∃ declarationTokens,
          scanFrom (parts.offset + 3) parts.declarations.flatten = .ok declarationTokens ∧
          scanFrom (parts.offset + parts.declarations.length + 4) parts.rules.flatten =
            .error e := by
  rw [lexTokens_text]
  cases scanFrom (parts.offset + 3) parts.declarations.flatten with
  | error e => simp [Except.bind]
  | ok tokens =>
    cases scanFrom (parts.offset + parts.declarations.length + 4) parts.rules.flatten <;>
      simp [Except.bind, Except.map]

/-- Lines added before the declarations move every token, or the error, down by their number. -/
theorem lexTokens_text_down {parts other : FileParts} {k : Nat}
    (hdeclarations : other.declarations = parts.declarations) (hrules : other.rules = parts.rules)
    (hoffset : other.offset = parts.offset + k) :
    lexTokens other.text = moveDown k (lexTokens parts.text) := by
  have hdeclarationsLine : parts.offset + k + 3 = parts.offset + 3 + k := by omega
  have hrulesLine : parts.offset + k + parts.declarations.length + 4 =
      parts.offset + parts.declarations.length + 4 + k := by omega
  rw [lexTokens_text, lexTokens_text, hdeclarations, hrules, hoffset, hdeclarationsLine,
    hrulesLine, scanFrom_add (parts.offset + 3),
    scanFrom_add (parts.offset + parts.declarations.length + 4)]
  cases scanFrom (parts.offset + 3) parts.declarations.flatten with
  | error e => rfl
  | ok tokens =>
    cases scanFrom (parts.offset + parts.declarations.length + 4) parts.rules.flatten <;> rfl

/-- **Lexing takes a file apart.** The texts of its sections are those of the parts. Its tokens are
those of the declarations and of the rules, each scanned from its first line on, and its error is
that of the declarations, or that of the rules if the declarations have none. What stands before the
declarations and after the rules changes nothing but the numbers of the lines, all by the same. -/
theorem lex_text (parts : FileParts) :
    (∃ layout, layOut parts.text = .ok layout ∧
      ∀ which, (layout.sections.get which).flatMap Line.text = parts.sectionText which) ∧
    (∀ file, lex parts.text = .ok file →
      ∀ which, file.sectionText which = parts.sectionText which) ∧
    (∀ declarationTokens ruleTokens,
      lexTokens parts.text = .ok (declarationTokens, ruleTokens) ↔
        scanFrom (parts.offset + 3) parts.declarations.flatten = .ok declarationTokens ∧
        scanFrom (parts.offset + parts.declarations.length + 4) parts.rules.flatten =
          .ok ruleTokens) ∧
    (∀ e, lexTokens parts.text = .error e ↔
      scanFrom (parts.offset + 3) parts.declarations.flatten = .error e ∨
        ∃ declarationTokens,
          scanFrom (parts.offset + 3) parts.declarations.flatten = .ok declarationTokens ∧
          scanFrom (parts.offset + parts.declarations.length + 4) parts.rules.flatten =
            .error e) ∧
    ∀ other : FileParts, other.declarations = parts.declarations → other.rules = parts.rules →
      ∃ k, other.offset = parts.offset + k ∧
            lexTokens other.text = moveDown k (lexTokens parts.text) ∨
          parts.offset = other.offset + k ∧
            lexTokens parts.text = moveDown k (lexTokens other.text) := by
  obtain ⟨layout, hlayout, hsections⟩ := parts.layOut_text
  refine ⟨⟨layout, hlayout, fun which => ?_⟩, fun file hfile which => sectionText_of_lex hfile which,
    fun _ _ => lexTokens_text_eq_ok_iff, fun _ => lexTokens_text_eq_error_iff, ?_⟩
  · rw [hsections, flatMap_sections]
  · intro other hdeclarations hrules
    -- the declarations of one of the two files do not come before those of the other
    rcases Nat.le_total parts.offset other.offset with hle | hle
    · obtain ⟨k, hk⟩ := Nat.exists_eq_add_of_le hle
      exact ⟨k, .inl ⟨hk, lexTokens_text_down hdeclarations hrules hk⟩⟩
    · obtain ⟨k, hk⟩ := Nat.exists_eq_add_of_le hle
      exact ⟨k, .inr ⟨hk, lexTokens_text_down hdeclarations.symm hrules.symm hk⟩⟩

/-- Two files with the same declarations and rules, with nothing around them and with other lines,
delimiters of later sections among them. -/
theorem lex_text_between_other_lines :
    lexTokens "%\x7b\n%\x7d\n%left\n%%\na:;\n%%\n".toList =
        .ok ([.ofText (.directive .left) "%left".toList ⟨3, 1⟩],
          [.ofText .identColon ['a'] ⟨5, 1⟩, .ofText .semicolon [';'] ⟨5, 3⟩]) ∧
      lexTokens "%%\n%\x7b\n%%\n%\x7d\n%left\n%%\na:;\n%%\n%%".toList =
        .ok ([.ofText (.directive .left) "%left".toList ⟨5, 1⟩],
          [.ofText .identColon ['a'] ⟨7, 1⟩, .ofText .semicolon [';'] ⟨7, 3⟩]) := by
  have hdeclarations : ∀ line ∈ ["%left\n".toList], IsLine line ∧ line ≠ "%%\n".toList := by
    intro line hline
    rw [List.mem_singleton.1 hline]
    exact ⟨⟨"%left".toList, rfl, by decide⟩, by decide⟩
  have hrules : ∀ line ∈ ["a:;\n".toList], IsLine line ∧ line ≠ "%%\n".toList := by
    intro line hline
    rw [List.mem_singleton.1 hline]
    exact ⟨⟨"a:;".toList, rfl, by decide⟩, by decide⟩
  have hother : ∀ {mark : Text}, "%%\n".toList ≠ mark →
      ∀ line ∈ ["%%\n".toList], IsLine line ∧ line ≠ mark := by
    intro mark hmark line hline
    rw [List.mem_singleton.1 hline]
    exact ⟨⟨"%%".toList, rfl, by decide⟩, hmark⟩
  let parts : FileParts := ⟨[], [], ["%left\n".toList], ["a:;\n".toList], [],
    fun _ h => absurd h List.not_mem_nil, fun _ h => absurd h List.not_mem_nil, hdeclarations, hrules⟩
  let other : FileParts := ⟨["%%\n".toList], ["%%\n".toList], ["%left\n".toList],
    ["a:;\n".toList], "%%".toList, hother (by decide), hother (by decide), hdeclarations, hrules⟩
  have hleft : Reads [.lexeme (.directive .left) "%left".toList, .blank '\n'] "%left\n".toList :=
    .lexeme (.directive (by decide)) (.blank rfl .done)
  have hrule : Reads [.lexeme (.identifier ['a'] true) (['a'] ++ [] ++ [':']),
      .lexeme .semicolon [';'], .blank '\n'] "a:;\n".toList :=
    .lexeme (.label ⟨'a', [], rfl, rfl, by simp⟩ (by simp)) (.lexeme .semicolon (.blank rfl .done))
  obtain ⟨-, -, hok, -, hsame⟩ := lex_text parts
  have hlex := (hok _ _).2
    ⟨scanFrom_eq_ok_iff.2 ⟨_, hleft, rfl⟩, scanFrom_eq_ok_iff.2 ⟨_, hrule, rfl⟩⟩
  have hparts : parts.offset = 0 := rfl
  have hotherOffset : other.offset = 2 := rfl
  obtain ⟨k, ⟨hk, hlexOther⟩ | ⟨hk, -⟩⟩ := hsame other rfl rfl
  · obtain rfl : k = 2 := by omega
    rw [hlex] at hlexOther
    exact ⟨hlex, hlexOther⟩
  · omega

end FileParts

end GrammarLexer
