import GrammarLexer.Layout
import GrammarLexer.Token

/-!
# Reports

A run is reported as a log. It runs in phases, which nest; each phase is announced, entered,
reported as done and left, whether it succeeded or not, and a phase after a failed one does not run.

* `Phase`, `Entry` -- the phases, and what a log holds;
* `Report` -- a log and what the run came to;
* `Report.within`, `Report.andThen` -- a run as a phase, and one run after another.

Neither changes what a run comes to.
-/

namespace GrammarLexer

/-- A phase of lexing a file. -/
inductive Phase where
  /-- All of it. -/
  | lex
  | split
  | declarations
  | rules
  deriving DecidableEq, Repr

/-- The name of a phase in the log. -/
def Phase.name : Phase → Text
  | lex => "lex".toList
  | split => "split".toList
  | declarations => "bison_declarations".toList
  | rules => "grammar_rules".toList

/-- How much an entry matters. -/
inductive Level where
  | info
  | debug
  | trace
  deriving DecidableEq, Repr

/-- An entry of a log. -/
inductive Entry where
  | announced (phase : Phase)
  | entered
  | left
  | done (phase : Phase)
  /-- The file was dealt into sections: the stage it ended in, and the number of lines in each. -/
  | laidOut (stage : Stage) (prologue declarations rules epilogue : Nat)
  /-- A token was read. -/
  | lexed (token : Token)
  deriving DecidableEq, Repr

namespace Entry

/-- How much an entry matters. Entering and leaving a phase has no level of its own. -/
def level? : Entry → Option Level
  | announced _ => some .info
  | entered | left => none
  | done _ | laidOut _ _ _ _ _ => some .debug
  | lexed _ => some .trace

/-- The words of an entry, if it is an event. -/
def message? : Entry → Option Text
  | announced _ | entered | left => none
  | done phase => some (phase.name ++ " done".toList)
  | laidOut _ _ _ _ _ => some "split sections".toList
  | lexed _ => some "lexed".toList

/-- The entry for a layout. -/
def ofLayout (layout : Layout) : Entry :=
  laidOut layout.stage layout.sections.prologue.length layout.sections.declarations.length
    layout.sections.rules.length layout.sections.epilogue.length

end Entry

/-- A log, and what the run came to. -/
structure Report (α : Type) where
  log : List Entry
  result : Except LexError α

namespace Report

variable {α β : Type}

/-- A run that does nothing. -/
def pure (a : α) : Report α := ⟨[], .ok a⟩

/-- One run after another. The second one runs only if the first succeeded. -/
def andThen (first : Report α) (second : α → Report β) : Report β :=
  match first.result with
  | .error e => ⟨first.log, .error e⟩
  | .ok a => ⟨first.log ++ (second a).log, (second a).result⟩

/-- A run as a phase. -/
def within (phase : Phase) (run : Report α) : Report α :=
  ⟨.announced phase :: .entered :: (run.log ++ [.done phase, .left]), run.result⟩

@[simp] theorem result_within (phase : Phase) (run : Report α) :
    (run.within phase).result = run.result := rfl

end Report

end GrammarLexer
