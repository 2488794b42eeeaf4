import GrammarLexer.Literal

/-!
# References to the manual

The documentation of an item may refer to a node of the Bison manual. The reference is given by
parameters, the node and optionally a title, and is written out as lines of documentation.

* `ManualReference`, `ManualReference.ofParameters` -- a reference, and how it is read;
* `ManualReference.docs` -- its lines of documentation;
* `ItemSort`, `ItemSort.docs?` -- which items can be documented.
-/

namespace GrammarLexer

/-! ## 1. Reading a reference -/

/-- A node of the manual, and a title to show instead of its name. -/
structure ManualReference where
  node : Text
  title : Option Text
  deriving DecidableEq, Repr

/-- Why parameters are no reference. -/
inductive ManualError where
  | literal (e : LiteralError)
  | noNode
  | tooMany
  deriving DecidableEq, Repr

/-- The words for it. -/
def ManualError.message : ManualError → Text
  | literal e => e.message
  | noNode => "unexpected end of input, Expected the name of a manual node.".toList
  | tooMany => "unexpected end of input, Expected at most two parameters: node, title.".toList

/-- The texts of parameters, each of which must not be empty. -/
def parameterTexts : List Literal → Except LiteralError (List Text)
  | [] => .ok []
  | first :: more =>
    match first.nonEmpty with
    | .error e => .error e
    | .ok s => (parameterTexts more).map (s :: ·)

/-- Reads a reference off its parameters. They are looked at one by one before they are counted. A
comma may follow the last of them, but does not stand alone. -/
def ManualReference.ofParameters (parameters : List Literal) (trailingComma : Bool) :
    Except ManualError ManualReference :=
  if parameters.isEmpty && trailingComma then .error (.literal .notText)
  else
    match parameterTexts parameters with
    | .error e => .error (.literal e)
    | .ok [] => .error .noNode
    | .ok [node] => .ok ⟨node, none⟩
    | .ok [node, title] => .ok ⟨node, some title⟩
    | .ok _ => .error .tooMany

/-! ## 2. Writing it out -/

/-- Where the pages of the manual are. -/
def manualRoot : Text := "https://www.gnu.org/software/bison/manual/html_node".toList

namespace ManualReference

/-- The title to show: without one, the name of the node with spaces for its hyphens. -/
def shownTitle (r : ManualReference) : Text :=
  r.title.getD (r.node.map fun ch => if ch = '-' then ' ' else ch)

/-- The lines of documentation: a heading and a link, with empty lines around them. -/
def docs (r : ManualReference) : List Text :=
  [[], "### Bison Reference".toList,
   "See [".toList ++ r.shownTitle ++ "](".toList ++ manualRoot ++ ['/'] ++ r.node ++
     ".html) in the Bison manual.".toList,
   []]

end ManualReference

/-! ## 3. Items -/

/-- The sorts of items that a file can declare. -/
inductive ItemSort where
  | constant
  | enumeration
  | function
  | module
  | record
  | interface
  | typeAlias
  | globalVariable
  | importClause
  | implementation
  | union
  | externalPackage
  | expansion
  deriving DecidableEq, Repr

namespace ItemSort

/-- Can documentation be added to this sort of item? -/
def isDocumented : ItemSort → Bool
  | constant | enumeration | function | module | record | interface | typeAlias => true
  | globalVariable | importClause | implementation | union | externalPackage | expansion => false

/-- The lines of documentation that an item carries, if its sort can be documented. -/
def docs? (sort : ItemSort) (docs : List Text) : Option (List Text) :=
  if sort.isDocumented then some docs else none

end ItemSort

end GrammarLexer
