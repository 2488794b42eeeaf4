import GrammarLexer.LexError

/-!
# Dealing lines into sections

A grammar file is dealt into its sections line by line. Each stage but the last waits for one
delimiter line, which is the delimiter and its newline and nothing else; a delimiter that lacks its
newline is a line like any other.

* `Sections` -- the lines of the four sections;
* `Stage.delimiter?` -- what ends a stage;
* `Layout`, `Layout.step` -- how far a file has been dealt, and what one more line does;
* `layOut` -- the layout of a whole file.

The two delimiters of the prologue are kept in it as empty lines, so that it tells where it began
and ended; the two that enclose the rules are not kept.
-/

namespace GrammarLexer

/-! ## 1. Sections -/

/-- The lines of the four sections of a file. -/
structure Sections where
  prologue : List Line
  declarations : List Line
  rules : List Line
  epilogue : List Line
  deriving DecidableEq, Repr

namespace Sections

/-- No lines at all. -/
def empty : Sections := ⟨[], [], [], []⟩

/-- The lines of a section. -/
def get (s : Sections) : Section → List Line
  | .prologue => s.prologue
  | .declarations => s.declarations
  | .rules => s.rules
  | .epilogue => s.epilogue

/-- One more line at the end of a section. -/
def record (s : Sections) (line : Line) : Section → Sections
  | .prologue => { s with prologue := s.prologue ++ [line] }
  | .declarations => { s with declarations := s.declarations ++ [line] }
  | .rules => { s with rules := s.rules ++ [line] }
  | .epilogue => { s with epilogue := s.epilogue ++ [line] }

end Sections

/-! ## 2. Delimiters -/

namespace Stage

/-- The delimiter that ends a stage. Nothing ends the last one. -/
def delimiter? : Stage → Option Text
  | initial => some ['%', '{']
  | prologue => some ['%', '}']
  | declarations | rules => some ['%', '%']
  | epilogue => none

/-- Is this line the delimiter that ends the stage? -/
def endsAt (stage : Stage) (line : Text) : Bool :=
  match stage.delimiter? with
  | some delimiter => line == delimiter ++ ['\n']
  | none => false

/-- Is the delimiter that ends this stage one of the prologue's two? -/
def bordersPrologue : Stage → Bool
  | initial | prologue => true
  | declarations | rules | epilogue => false

end Stage

/-! ## 3. Layouts -/

/-- How far a file has been dealt: the stage, and the lines of each section so far. -/
structure Layout where
  stage : Stage
  sections : Sections
  deriving DecidableEq, Repr

namespace Layout

/-- Nothing has been dealt. -/
def start : Layout := ⟨.initial, .empty⟩

/-- Deals one more line. -/
def step (layout : Layout) (line : Line) : Except LexError Layout :=
  if layout.stage.endsAt line.text then
    match layout.stage.advance with
    | .error e => .error e
    | .ok next =>
      if layout.stage.bordersPrologue then
        .ok ⟨next, layout.sections.record ⟨[], line.number⟩ .prologue⟩
      else
        .ok ⟨next, layout.sections⟩
  else
    match layout.stage.section? with
    | some into => .ok { layout with sections := layout.sections.record line into }
    | none => .ok layout

/-- Deals more lines, in order. -/
def deal (layout : Layout) : List Line → Except LexError Layout
  | [] => .ok layout
  | line :: more =>
    match layout.step line with
    | .error e => .error e
    | .ok next => next.deal more

end Layout

/-- The layout of a file. -/
def layOut (text : Text) : Except LexError Layout := Layout.start.deal text.numberedLines

end GrammarLexer
