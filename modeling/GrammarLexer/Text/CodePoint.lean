/-!
# Sets of code points

A property of characters is a set of code points. The sets of this library come from version 17.0 of
the Unicode standard and are written as runs, which keeps the large ones short.

* `CodePointSet` -- a set of code points, run by run;
* `CodePointSet.has` -- is a character in the set?
-/

namespace GrammarLexer

/-- A set of code points, as runs in increasing order. Both ends of a run belong to the set. -/
structure CodePointSet where
  runs : List (Nat × Nat)

/-- Is a character in the set? -/
def CodePointSet.has (set : CodePointSet) (ch : Char) : Bool :=
  set.runs.any fun run => run.1 ≤ ch.toNat && ch.toNat ≤ run.2

theorem CodePointSet.has_iff {set : CodePointSet} {ch : Char} :
    set.has ch ↔ ∃ run ∈ set.runs, run.1 ≤ ch.toNat ∧ ch.toNat ≤ run.2 := by
  simp [has]

end GrammarLexer
