import GrammarLexer.Text

/-!
# Directives

The words of the declarations that begin with a percent sign.

* `Directive` -- the thirteen directives, in the order in which they compare;
* `Directive.keyword`, `Directive.ofKeyword?` -- the spelling of a directive, and the way back;
* `emptyWord`, `extendsKeyword` -- the word for an empty rule, and the longer words that begin like
  a keyword without being one.

No two directives are spelled alike (`ofKeyword?_keyword`).
-/

namespace GrammarLexer

/-- A directive of the declarations section. -/
inductive Directive where
  | expect
  | define
  | printer
  | lexParam
  | parseParam
  | initialAction
  | union
  | token
  | type
  | nonassoc
  | left
  | right
  | prec
  deriving DecidableEq, Repr, Ord

namespace Directive

/-- Every directive, in order. -/
def all : List Directive :=
  [expect, define, printer, lexParam, parseParam, initialAction, union, token, type, nonassoc, left,
   right, prec]

theorem mem_all (d : Directive) : d ∈ all := by cases d <;> decide

/-- The spelling of a directive. -/
def keyword : Directive → Text
  | expect => "%expect".toList
  | define => "%define".toList
  | printer => "%printer".toList
  | lexParam => "%lex-param".toList
  | parseParam => "%parse-param".toList
  | initialAction => "%initial-action".toList
  | union => "%union".toList
  | token => "%token".toList
  | type => "%type".toList
  | nonassoc => "%nonassoc".toList
  | left => "%left".toList
  | right => "%right".toList
  | prec => "%prec".toList

/-- The directive that a word spells, if any. -/
def ofKeyword? (word : Text) : Option Directive := all.find? fun d => d.keyword == word

/-- **Spelling a directive and looking it up gives it back**, so no two are spelled alike. -/
@[simp] theorem ofKeyword?_keyword (d : Directive) : ofKeyword? d.keyword = some d := by
  cases d <;> decide

theorem keyword_of_ofKeyword? {word : Text} {d : Directive} (h : ofKeyword? word = some d) :
    d.keyword = word := by
  simpa using List.find?_some h

end Directive

/-- The word that marks an empty rule. It is read, but it is no directive. -/
def emptyWord : Text := "%empty".toList

/-- Does a word begin with a directive's keyword, or with the word for an empty rule, and go on past
it? -/
def extendsKeyword (word : Text) : Bool :=
  (Directive.all.map Directive.keyword ++ [emptyWord]).any fun keyword =>
    keyword.length < word.length && keyword.isPrefixOf word

end GrammarLexer
