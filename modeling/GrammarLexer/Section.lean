import GrammarLexer.Text

/-!
# Sections and stages

* `Section` -- the four sections of a grammar file, in the order of the file;
* `Stage` -- where one is while dealing the lines of a file into its sections: before the first
  section, or in one of them.

Both compare in the order of the file.
-/

namespace GrammarLexer

/-- A section of a grammar file. -/
inductive Section where
  | prologue
  | declarations
  | rules
  | epilogue
  deriving DecidableEq, Repr, Ord

/-- Where one is while dealing lines into sections. A stage is left only for the next one. -/
inductive Stage where
  /-- Before the prologue: lines are dropped. -/
  | initial
  | prologue
  | declarations
  | rules
  /-- After the rules: the stage that takes every remaining line. -/
  | epilogue
  deriving DecidableEq, Repr, Ord

namespace Stage

/-- The name of a stage, as reports show it. -/
def name : Stage → Text
  | initial => "Initial".toList
  | prologue => "Prologue".toList
  | declarations => "BisonDeclarations".toList
  | rules => "GrammarRules".toList
  | epilogue => "Epilogue".toList

/-- The stage after this one, if it is not the last. -/
def next? : Stage → Option Stage
  | initial => some prologue
  | prologue => some declarations
  | declarations => some rules
  | rules => some epilogue
  | epilogue => none

/-- The section that the lines of a stage go to, if they are kept. -/
def section? : Stage → Option Section
  | initial => none
  | prologue => some .prologue
  | declarations => some .declarations
  | rules => some .rules
  | epilogue => some .epilogue

end Stage

end GrammarLexer
