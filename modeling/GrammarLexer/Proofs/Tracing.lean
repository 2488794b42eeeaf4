import GrammarLexer.Proofs.Assembly
import GrammarLexer.Proofs.Diagnosis
import GrammarLexer.Proofs.Separation

/-!
# What a log tells of a run

Showing each token changes nothing but the log, and there it only adds entries. The log is that of
phases inside phases, each of them closed also if it failed, and the tokens that are shown are the
ones that were read, up to the end of a section or to the place where reading it got stuck.

* `Phase.entries`, `Nested` -- the entries of a phase, and logs in which every phase is closed in
  turn; `Nested.within`, `Nested.andThen` -- what is reported as a phase, and one run after another,
  have such logs;
* `Report.Quiets` -- two runs come to the same, and the log of one is that of the other without the
  tokens; `Report.Quiets.within`, `Report.Quiets.andThen` -- the same of runs made up of such runs;
* `ReadsTo.alone` -- **what comes before the place where reading is stuck can be read alone**;
* `Scanned` -- the tokens that a scan reads, whether it succeeds or not;
* `GrammarFile.report_transparent` -- **showing the tokens is transparent, and they are shown in the
  phase that read them.**
-/

namespace GrammarLexer

/-! ## 1. Phases inside phases -/

/-- The entries of a phase, with those of its contents. -/
def Phase.entries (phase : Phase) (contents : List Entry) : List Entry :=
  .announced phase :: .entered :: (contents ++ [.done phase, .left])

/-- Does the entry tell something that happened in a phase, and not where one begins or ends? -/
def Entry.isEvent : Entry → Bool
  | announced _ | entered | left | done _ => false
  | laidOut _ _ _ _ _ | lexed _ => true

/-- `Nested log`: the log is made up of events and of phases, and so is what each phase contains. -/
inductive Nested : List Entry → Prop where
  | nil : Nested []
  | event {entry : Entry} {more : List Entry} (hevent : entry.isEvent = true)
      (hmore : Nested more) : Nested (entry :: more)
  | phase (phase : Phase) {contents more : List Entry} (hcontents : Nested contents)
      (hmore : Nested more) : Nested (phase.entries contents ++ more)

namespace Report

variable {α β : Type}

theorem log_within (phase : Phase) (run : Report α) :
    (run.within phase).log = phase.entries run.log := rfl

/-- The log of a second run comes after that of the first one, if there is a second run. -/
theorem log_andThen (first : Report α) (second : α → Report β) :
    (first.andThen second).log = first.log ++
      match first.result with
      | .ok a => (second a).log
      | .error _ => [] := by
  unfold andThen
  cases first.result with
  | ok a => rfl
  | error e => exact (List.append_nil _).symm

end Report

namespace Nested

variable {α β : Type}

theorem append {a b : List Entry} (ha : Nested a) (hb : Nested b) : Nested (a ++ b) := by
  induction ha with
  | nil => exact hb
  | event hevent _ ih => exact .event hevent ih
  | phase p hcontents _ _ ih =>
    rw [List.append_assoc]
    exact .phase p hcontents ih

theorem of_events {log : List Entry} (h : ∀ entry ∈ log, entry.isEvent = true) : Nested log := by
  induction log with
  | nil => exact .nil
  | cons entry more ih =>
    exact .event (h entry List.mem_cons_self) (ih fun e he => h e (List.mem_cons_of_mem _ he))

/-- **A phase is closed**, whatever the run in it came to. -/
theorem within {run : Report α} (h : Nested run.log) (p : Phase) : Nested (run.within p).log := by
  have hphase := Nested.phase p h .nil
  rwa [List.append_nil] at hphase

/-- One run after another, whether or not there is a second one. -/
theorem andThen {first : Report α} {second : α → Report β} (hfirst : Nested first.log)
    (hsecond : ∀ a, Nested (second a).log) : Nested (first.andThen second).log := by
  rw [Report.log_andThen]
  cases first.result with
  | ok a => exact hfirst.append (hsecond a)
  | error e => exact hfirst.append .nil

end Nested

theorem nested_reportLayout (text : Text) : Nested (reportLayout text).log := by
  unfold reportLayout
  split
  · exact .event rfl .nil
  · exact .nil

theorem nested_reportScan (debug : Bool) (lines : List Line) :
    Nested (reportScan debug lines).log := by
  cases debug with
  | false => exact .nil
  | true =>
    refine .of_events fun entry hentry => ?_
    obtain ⟨t, -, rfl⟩ := List.mem_map.1 hentry
    rfl

/-! ## 2. Logs without the tokens -/

/-- The log without its traces. -/
def Entry.untraced (log : List Entry) : List Entry := log.filter fun e => e.level? ≠ some .trace

/-- What the entry shows of a token, if it is a trace. -/
def Entry.trace? : Entry → Option Text
  | lexed t => some t.display
  | announced _ | entered | left | done _ | laidOut _ _ _ _ _ => none

theorem Entry.filterMap_trace?_entries (phase : Phase) (contents : List Entry) :
    (phase.entries contents).filterMap trace? = contents.filterMap trace? := by
  simp [Phase.entries, List.filterMap_cons, trace?]

theorem Entry.filterMap_trace?_lexed (tokens : List Token) :
    (tokens.map lexed).filterMap trace? = tokens.map Token.display := by
  simp [List.filterMap_map, Function.comp_def, trace?]

namespace Report

variable {α β : Type}

/-- `loud.Quiets quiet`: the two runs come to the same, and without its traces the log of the first
is that of the second. -/
structure Quiets (loud quiet : Report α) : Prop where
  result : loud.result = quiet.result
  log : Entry.untraced loud.log = quiet.log

namespace Quiets

variable {loud quiet : Report α}

theorem within (h : loud.Quiets quiet) (p : Phase) : (loud.within p).Quiets (quiet.within p) where
  result := h.result
  log := by
    simp only [log_within, Phase.entries, ← h.log]
    simp [Entry.untraced, Entry.level?]

theorem andThen {more more' : α → Report β} (h : loud.Quiets quiet)
    (hmore : ∀ a, (more a).Quiets (more' a)) :
    (loud.andThen more).Quiets (quiet.andThen more') := by
  -- both runs stop here, or both go on with the same
  obtain ⟨log, result⟩ := loud
  obtain ⟨log', result'⟩ := quiet
  obtain ⟨hresult, hlog⟩ := h
  cases hresult
  cases hlog
  cases result with
  | error e => exact ⟨rfl, rfl⟩
  | ok a => exact ⟨(hmore a).result, (List.filter_append ..).trans (congrArg _ (hmore a).log)⟩

end Quiets

end Report

theorem quiets_reportLayout (text : Text) : (reportLayout text).Quiets (reportLayout text) := by
  unfold reportLayout
  split
  · exact ⟨rfl, rfl⟩
  · exact ⟨rfl, rfl⟩

theorem quiets_reportScan (lines : List Line) :
    (reportScan true lines).Quiets (reportScan false lines) where
  result := rfl
  log := by simp [reportScan, Entry.untraced, Entry.level?]

/-! ## 3. Tokens before the place where a scan is stuck -/

/-- Whatever ends before a text ends before a beginning of it. -/
theorem Text.endsLike_of_append (a b : Text) : EndsLike (a ++ b) a where
  stops hcls h := by
    cases a with
    | nil => rfl
    | cons ch a => exact h
  no_colon h := by
    rw [List.dropWhile_append] at h
    cases hdrop : a.dropWhile isBlank with
    | nil => simp
    | cons ch left =>
      rw [hdrop] at h
      exact h

/-- **What comes before some rest of a text can be read alone**, and is read as it was. -/
theorem ReadsTo.alone {items : List Item} {s rest : Text} (h : ReadsTo items s rest) :
    Reads items (items.flatMap Item.text) := by
  induction h with
  | done => exact .done
  | blank hblank _ ih => exact .blank hblank ih
  | lexeme hlexes hmore ih =>
    rw [hmore.text_eq] at hlexes
    exact .lexeme (hlexes.change (Text.endsLike_of_append _ _)) ih

/-- `Scanned lines tokens`: these are the tokens that the scan of these lines reads. -/
inductive Scanned (lines : List Line) (tokens : List Token) : Prop where
  /-- The scan succeeds, and gives them. -/
  | all (hok : (scanLines lines).result = .ok tokens)
  /-- The scan fails at a lexeme that cannot be read. The text before it can be scanned alone, and
  that gives them. -/
  | before {items : List Item} {rest : Text} {fault : Fault}
      (hreads : ReadsTo items (lines.flatMap Line.text) rest) (hstuck : Stuck rest fault)
      (herror : (scanLines lines).result = .error (fault.error
        ((Cursor.start (lines.flatMap Line.text) (startOf lines).line).skip
          (items.flatMap Item.text).length)))
      (hbefore : scanFrom (startOf lines).line (items.flatMap Item.text) = .ok tokens)

theorem scanLines_eq_scanText (lines : List Line) :
    scanLines lines = scanText (lines.flatMap Line.text) (startOf lines).line := by
  cases lines with
  | nil =>
    rw [List.flatMap_nil, scanText, decompose]
    rfl
  | cons first more => rfl

/-- **The tokens of a scan are those that it read**, also if it fails. -/
theorem scanned_tokens (lines : List Line) : Scanned lines (scanLines lines).tokens := by
  cases hfault : (decompose (lines.flatMap Line.text)).fault with
  | none =>
    refine .all ?_
    rw [scanLines_eq_scanText, scanText, hfault]
    rfl
  | some fault =>
    obtain ⟨rest, hreads, hstuck⟩ := exists_stuck_of_decompose hfault
    refine .before hreads hstuck ?_ ?_
    · rw [scanLines_eq_scanText, scanText, hfault]
      rfl
    · exact scanFrom_eq_ok_iff.2 ⟨_, hreads.alone, tokens_scanLines lines⟩

/-! ## 4. Files -/

namespace GrammarFile

theorem nested_report (debug : Bool) (text : Text) : Nested (report debug text).log :=
  .within (.andThen ((nested_reportLayout text).within .split) fun _ =>
    .andThen ((nested_reportScan debug _).within .declarations) fun _ =>
    .andThen ((nested_reportScan debug _).within .rules) fun _ => .nil) .lex

theorem quiets_report (text : Text) : (report true text).Quiets (report false text) :=
  .within (.andThen ((quiets_reportLayout text).within .split) fun _ =>
    .andThen ((quiets_reportScan _).within .declarations) fun _ =>
    .andThen ((quiets_reportScan _).within .rules) fun _ => ⟨rfl, rfl⟩) .lex

/-- The log of a file, phase by phase: the rules are scanned only if the declarations could be. -/
theorem log_report {text : Text} {layout : Layout} (h : layOut text = .ok layout) (debug : Bool) :
    (report debug text).log = Phase.lex.entries (
      Phase.split.entries [.ofLayout layout] ++
      (Phase.declarations.entries (reportScan debug layout.sections.declarations).log ++
        match (scanLines layout.sections.declarations).result with
        | .ok _ => Phase.rules.entries (reportScan debug layout.sections.rules).log
        | .error _ => [])) := by
  have hlayout : reportLayout text = ⟨[.ofLayout layout], .ok layout⟩ := by
    rw [reportLayout, h]
  have hresult : (reportScan debug layout.sections.declarations).result =
      (scanLines layout.sections.declarations).result := rfl
  simp only [report, Report.log_within, Report.log_andThen, Report.result_within, hlayout, hresult]
  cases (scanLines layout.sections.declarations).result with
  | error e => rfl
  | ok declarationTokens =>
    -- nothing is reported after the rules
    cases (reportScan debug layout.sections.rules).result with
    | error e => simp
    | ok ruleTokens => simp [Report.pure]

/-- What is shown in the log of a file: the tokens that the two scans read. -/
theorem traces_report {text : Text} {layout : Layout} (h : layOut text = .ok layout) :
    (report true text).log.filterMap Entry.trace? =
      (scanLines layout.sections.declarations).tokens.map Token.display ++
        match (scanLines layout.sections.declarations).result with
        | .ok _ => (scanLines layout.sections.rules).tokens.map Token.display
        | .error _ => [] := by
  have hsplit : [Entry.ofLayout layout].filterMap Entry.trace? = [] := rfl
  have hscan : ∀ lines, (reportScan true lines).log.filterMap Entry.trace? =
      (scanLines lines).tokens.map Token.display := fun _ => Entry.filterMap_trace?_lexed _
  rw [log_report h]
  cases (scanLines layout.sections.declarations).result with
  | ok declarationTokens =>
    simp only [Entry.filterMap_trace?_entries, List.filterMap_append, hsplit, hscan,
      List.nil_append]
  | error e =>
    simp only [Entry.filterMap_trace?_entries, List.filterMap_append, hsplit, hscan,
      List.nil_append, List.filterMap_nil]

/-- **Showing the tokens is transparent, and the log tells the run.** With tokens shown, lexing
comes to the same, and its log without the traces is the log without tokens. The phases are nested:
all of it contains the dealing into sections, the declarations and, only if they could be scanned,
the rules. The tokens shown in a phase are those that it read, all of them or those before the
lexeme that it failed at, and the counts are those of the lines in each section. -/
theorem report_transparent (text : Text) :
    (report true text).result = (report false text).result ∧
    Entry.untraced (report true text).log = (report false text).log ∧
    (∀ debug, Nested (report debug text).log) ∧
    ∃ layout declarations rules, layOut text = .ok layout ∧
      Scanned layout.sections.declarations declarations ∧ Scanned layout.sections.rules rules ∧
      (report false text).result =
        ((scanLines layout.sections.declarations).result.bind fun declarationTokens =>
          (scanLines layout.sections.rules).result.map fun ruleTokens =>
            ⟨layout.sections, declarationTokens, ruleTokens⟩) ∧
      (∀ debug, (report debug text).log = Phase.lex.entries (
        Phase.split.entries [.laidOut layout.stage layout.sections.prologue.length
          layout.sections.declarations.length layout.sections.rules.length
          layout.sections.epilogue.length] ++
        (Phase.declarations.entries (if debug then declarations.map .lexed else []) ++
          match (scanLines layout.sections.declarations).result with
          | .ok _ => Phase.rules.entries (if debug then rules.map .lexed else [])
          | .error _ => []))) ∧
      (report true text).log.filterMap Entry.trace? = declarations.map Token.display ++
        match (scanLines layout.sections.declarations).result with
        | .ok _ => rules.map Token.display
        | .error _ => [] := by
  obtain ⟨hresult, hlog⟩ := quiets_report text
  obtain ⟨layout, hlayout, -⟩ := exists_layOut text
  refine ⟨hresult, hlog, fun debug => nested_report debug text, layout, _, _, hlayout,
    scanned_tokens _, scanned_tokens _, lex_of_layOut hlayout, log_report hlayout,
    traces_report hlayout⟩

end GrammarFile

end GrammarLexer
