/-!
# Text and its bytes

A text is a list of characters. Everything that reads a text reads characters; bytes occur only
where a place in a text is counted in them, which is the size of its UTF-8 form up to that place.

* `Text.byteSize` -- the size of a text in bytes;
* `Text.splitAt?` -- the division of a text at a byte offset, if the offset is a character boundary;
* `Text.slice?` -- the run of a text between two byte offsets, on the same condition;
* `Text.covering` -- how many leading characters it takes to cover a number of bytes;
* `Text.before?` -- the text before the first occurrence of a mark;
* `Text.decimal`, `Text.wordValue?` -- the number that a run of digits spells, and the same if it
  fits into 64 bits.

The lemmas say that a division loses nothing (`splitAt?_eq_some`) and that what stands before a
mark, with the mark, is a beginning of the text (`before?_append_prefix`).
-/

namespace GrammarLexer

/-- A text, character by character. -/
abbrev Text := List Char

namespace Text

/-! ## 1. Bytes -/

/-- The size of a text in bytes of its UTF-8 form. -/
def byteSize : Text → Nat
  | [] => 0
  | ch :: rest => ch.utf8Size + byteSize rest

@[simp] theorem byteSize_nil : byteSize [] = 0 := rfl

@[simp] theorem byteSize_cons (ch : Char) (s : Text) :
    byteSize (ch :: s) = ch.utf8Size + byteSize s := rfl

@[simp] theorem byteSize_append (s t : Text) : byteSize (s ++ t) = byteSize s + byteSize t := by
  induction s with
  | nil => simp
  | cons ch s ih => simp [ih, Nat.add_assoc]

/-- Divides a text at a byte offset. There is no division past the end or inside a character. -/
def splitAt? : Nat → Text → Option (Text × Text)
  | 0, s => some ([], s)
  | _ + 1, [] => none
  | n + 1, ch :: rest =>
    if ch.utf8Size ≤ n + 1 then
      (splitAt? (n + 1 - ch.utf8Size) rest).map fun parts => (ch :: parts.1, parts.2)
    else
      none

/-- **A division loses nothing and cuts at the offset**: the two parts make up the text, and the
first one has the asked-for size. -/
theorem splitAt?_eq_some {n : Nat} {s p q : Text} (h : splitAt? n s = some (p, q)) :
    p ++ q = s ∧ byteSize p = n := by
  induction s generalizing n p with
  | nil =>
    cases n with
    | zero => simp_all [splitAt?]
    | succ n => simp [splitAt?] at h
  | cons ch rest ih =>
    cases n with
    | zero => simp_all [splitAt?]
    | succ n =>
      simp only [splitAt?] at h
      split at h
      · obtain ⟨⟨a, b⟩, hab, he⟩ := Option.map_eq_some_iff.1 h
        simp only [Prod.mk.injEq] at he
        obtain ⟨rfl, rfl⟩ := he
        obtain ⟨rfl, hsize⟩ := ih hab
        exact ⟨rfl, by simp only [byteSize_cons, hsize]; omega⟩
      · simp at h

/-- **Every character boundary divides**: the size of a beginning is an offset that gives it
back. -/
theorem splitAt?_byteSize (p q : Text) : splitAt? (byteSize p) (p ++ q) = some (p, q) := by
  induction p with
  | nil => simp [splitAt?]
  | cons ch p ih =>
    obtain ⟨n, hn⟩ : ∃ n, byteSize (ch :: p) = n + 1 :=
      ⟨byteSize (ch :: p) - 1, by
        have := Char.utf8Size_pos ch
        simp only [byteSize_cons]
        omega⟩
    rw [hn, List.cons_append, splitAt?]
    simp only [byteSize_cons] at hn
    have hle : ch.utf8Size ≤ n + 1 := by omega
    have hsub : n + 1 - ch.utf8Size = byteSize p := by omega
    simp [hle, hsub, ih]

/-- The run of a text from one byte offset up to another, if both are character boundaries in
order. -/
def slice? (start stop : Nat) (s : Text) : Option Text :=
  (splitAt? stop s).bind fun parts => (splitAt? start parts.1).map Prod.snd

/-- How many leading characters it takes to cover `n` bytes: a number of bytes that ends inside a
character counts that character whole, and one past the end counts every character. -/
def covering : Nat → Text → Nat
  | 0, _ => 0
  | _ + 1, [] => 0
  | n + 1, ch :: rest => covering (n + 1 - ch.utf8Size) rest + 1

theorem covering_le_length (n : Nat) (s : Text) : covering n s ≤ s.length := by
  induction s generalizing n with
  | nil => cases n <;> simp [covering]
  | cons ch rest ih => cases n <;> simp [covering, ih]

/-! ## 2. Marks -/

/-- The text before the first occurrence of `mark`, if there is one. -/
def before? (mark : Text) : Text → Option Text
  | [] => if mark = [] then some [] else none
  | ch :: rest =>
    if mark.isPrefixOf (ch :: rest) then some [] else (before? mark rest).map (ch :: ·)

/-- What stands before the first mark is followed by the mark. -/
theorem before?_append_prefix {mark s p : Text} (h : before? mark s = some p) :
    p ++ mark <+: s := by
  induction s generalizing p with
  | nil => simp_all [before?]
  | cons ch rest ih =>
    simp only [before?] at h
    split at h
    case isTrue hp =>
      simp only [Option.some.injEq] at h
      subst h
      simpa using hp
    case isFalse =>
      obtain ⟨q, hq, rfl⟩ := Option.map_eq_some_iff.1 h
      simpa using ih hq

/-! ## 3. Numbers -/

/-- The number that a run of decimal digits spells; leading zeros count for nothing. -/
def decimal (digits : Text) : Nat :=
  digits.foldl (fun n ch => 10 * n + (ch.toNat - '0'.toNat)) 0

/-- One more than the largest number that a token or a reference holds, the 64th power of two. -/
def wordLimit : Nat := 0x10000000000000000

/-- The number that a run of digits spells, if there is a digit and the number fits into 64 bits.
The value decides and not the length of the run. -/
def wordValue? (digits : Text) : Option Nat :=
  if digits = [] then none
  else if decimal digits < wordLimit then some (decimal digits)
  else none

/-- The decimal digits of a number, most significant first. -/
def ofNat (n : Nat) : Text := Nat.toDigits 10 n

end Text

end GrammarLexer
