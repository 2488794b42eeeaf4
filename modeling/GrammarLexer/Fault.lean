import GrammarLexer.LexError

/-!
# Faults

Reading looks at nothing but the text ahead. So what goes wrong is first told without line and
column: a fault counts characters from where the reading began. Only a cursor that stands there
turns it into an error.

* `Taken` -- a value that was read, with the number of characters it took;
* `Fault` -- why a reading failed, where, and how far it had come;
* `Fault.shift` -- the same fault, told from an earlier beginning;
* `Fault.error` -- the error that a fault is, for the cursor at which the reading began.
-/

namespace GrammarLexer

/-- A value read from the start of a text, and how many characters of the text it took. -/
structure Taken (α : Type) where
  value : α
  width : Nat
  deriving DecidableEq, Repr

/-- A reading that gives `b` after a change gave some value before it. -/
theorem exists_of_map_eq_ok {ε α β : Type} {f : α → β} {x : Except ε α} {b : β}
    (h : x.map f = .ok b) : ∃ a, x = .ok a ∧ f a = b := by
  cases x with
  | error e => simp [Except.map] at h
  | ok a => exact ⟨a, rfl, by simpa [Except.map] using h⟩

/-- Why a reading failed. An opening that is never closed is told by the characters before it. -/
inductive Cause where
  /-- Nothing reads the word that stands there. -/
  | unknown
  /-- There is no digit, or the digits spell a number of more than 64 bits. -/
  | unreadable (digits : Text)
  | openBrace (opened : Nat)
  | openQuote (terminator : Char) (opened : Nat)
  | openComment (opened : Nat)
  deriving DecidableEq, Repr

/-- A failed reading. All counts are of characters from where the reading began. -/
structure Fault where
  cause : Cause
  /-- Where the fault is reported. -/
  place : Nat
  /-- How far the reading had come when it gave up. -/
  stop : Nat
  deriving DecidableEq, Repr

namespace Cause

/-- The same cause, `n` characters further on. -/
def shift (n : Nat) : Cause → Cause
  | unknown => unknown
  | unreadable digits => unreadable digits
  | openBrace opened => openBrace (n + opened)
  | openQuote terminator opened => openQuote terminator (n + opened)
  | openComment opened => openComment (n + opened)

end Cause

namespace Fault

/-- Nothing reads the word after `n` characters, and the reading came no further. -/
def unknownAt (n : Nat) : Fault := ⟨.unknown, n, n⟩

/-- The same fault, `n` characters further on. -/
def shift (n : Nat) (f : Fault) : Fault := ⟨f.cause.shift n, n + f.place, n + f.stop⟩

/-- The error that a fault is, for a reading that began at `c`. -/
def error (f : Fault) (c : Cursor) : LexError :=
  let found := c.skip f.place
  match f.cause with
  | .unknown => found.unknownToken
  | .unreadable digits => .unknownToken digits found.site
  | .openBrace opened => found.braceMismatch (c.skip opened).position
  | .openQuote terminator opened => found.quoteMismatch terminator (c.skip opened).position
  | .openComment opened => found.commentMismatch (c.skip opened).position

end Fault

end GrammarLexer
