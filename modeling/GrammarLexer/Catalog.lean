import GrammarLexer.Literal

/-!
# Keyword catalogs

A catalog pairs the variants of an enumeration with keywords. It is written as attributes of the
variants, and this module reads it off them and checks it.

* `Declaration`, `Variant`, `Attribute` -- what is written;
* `Variant.keyword` -- the keyword of one variant;
* `Declaration.catalog` -- the catalog, in the order of the variants;
* `CatalogError` -- why there is none.

Of several faults the first variant's counts, and of one variant's the first in the order of the
checks. Only the first `keyword` attribute of a variant is looked at.
-/

namespace GrammarLexer

/-! ## 1. What is written -/

/-- An attribute: its name, and its parameters if it has a list of them. -/
structure Attribute where
  path : Text
  parameters : Option (List Literal)
  deriving DecidableEq, Repr

/-- What a variant carries. -/
inductive Fields where
  | unit
  | tuple
  | emptyTuple
  | named
  deriving DecidableEq, Repr

/-- A variant of an enumeration. -/
structure Variant where
  name : Text
  fields : Fields
  attributes : List Attribute
  deriving DecidableEq, Repr

/-- A type declaration. -/
inductive Declaration where
  | enumeration (variants : List Variant)
  | record
  | union
  deriving DecidableEq, Repr

/-! ## 2. What can be wrong with it -/

/-- Why a declaration has no catalog. -/
inductive CatalogError where
  | notEnumeration
  | carriesFields
  | missingKeyword
  /-- The attribute has no list of parameters. -/
  | noParameters
  /-- The list of parameters is empty. -/
  | noParameter
  | literal (e : LiteralError)
  | extraParameters
  | noPercentSign
  deriving DecidableEq, Repr

/-- The words for it. -/
def CatalogError.message : CatalogError → Text
  | notEnumeration => "Keywords can only be derived for enums.".toList
  | carriesFields => "Keyword variants cannot carry fields.".toList
  | missingKeyword => "Missing #[keyword(\"%...\")] attribute.".toList
  | noParameters => "expected attribute arguments in parentheses: #[keyword(...)]".toList
  | noParameter => "unexpected end of input, expected string literal".toList
  | literal e => e.message
  | extraParameters => "unexpected token".toList
  | noPercentSign => "Keywords start with `%`.".toList

/-! ## 3. The catalog -/

/-- The name of the attribute that gives a keyword. -/
def keywordPath : Text := "keyword".toList

/-- The text that an attribute takes: one literal and nothing more. -/
def Attribute.text (a : Attribute) : Except CatalogError Text :=
  match a.parameters with
  | none => .error .noParameters
  | some [] => .error .noParameter
  | some (first :: more) =>
    match first.nonEmpty with
    | .error e => .error (.literal e)
    | .ok s => if more = [] then .ok s else .error .extraParameters

/-- The keyword of a variant. -/
def Variant.keyword (v : Variant) : Except CatalogError Text :=
  if v.fields ≠ .unit then .error .carriesFields
  else
    match v.attributes.find? fun a => a.path == keywordPath with
    | none => .error .missingKeyword
    | some a =>
      match a.text with
      | .error e => .error e
      | .ok s => if s.head? = some '%' then .ok s else .error .noPercentSign

/-- The names and keywords of variants, up to the first that has none. -/
def catalogOf : List Variant → Except CatalogError (List (Text × Text))
  | [] => .ok []
  | v :: more =>
    match v.keyword with
    | .error e => .error e
    | .ok keyword => (catalogOf more).map ((v.name, keyword) :: ·)

/-- The catalog of a declaration. Only an enumeration has one. -/
def Declaration.catalog : Declaration → Except CatalogError (List (Text × Text))
  | enumeration variants => catalogOf variants
  | record | union => .error .notEnumeration

/-- The entry of a keyword in a catalog: the first that has it. -/
def lookUp (catalog : List (Text × Text)) (keyword : Text) : Option (Text × Text) :=
  catalog.find? fun entry => entry.2 == keyword

end GrammarLexer
