import Mathlib.Tactic.SplitIfs
import GrammarLexer.Token
import GrammarLexer.Proofs.Runs

/-!
# What a shown token tells

A token is shown as its kind, its value in brackets and its position. The value may be any text, and
so may hold quotes, brackets and what looks like a position. What is shown can be taken apart again
nevertheless: digits go up to the first character that is no digit, and between the quotes each
character is written in a way that tells where it ends and which one it is.

* `Text.digits_inj`, `Text.digits_cancel` -- digits tell the number, also with a text after them;
* `Escapes` -- the ways to write a character between quotes, and `Escapes.cancel` -- **a character
  that is written in one of them is told by what is written**, whatever comes after it;
* `Escaped` -- the same for a text, and `Escaped.cancel` -- its closing quote can be found;
* `Token.ShownAlike` -- two tokens agree in all that is shown of them;
* `Token.display_tells_token` -- **what is shown of a token tells its kind, its value, its line and
  its column.**
-/

namespace GrammarLexer

namespace Text

/-! ## 1. Digits -/

theorem digitChar_inj {d e : Nat} (hd : d < 16) (he : e < 16)
    (h : Nat.digitChar d = Nat.digitChar e) : d = e := by
  have hall : ∀ i j : Fin 16, Nat.digitChar i = Nat.digitChar j → i = j := by decide
  exact congrArg Fin.val (hall ⟨d, hd⟩ ⟨e, he⟩ h)

/-- **Digits tell the number**, in any base that has enough of them. -/
theorem digits_inj {b : Nat} (hb : 1 < b) (hle : b ≤ 16) {n m : Nat}
    (h : Nat.toDigits b n = Nat.toDigits b m) : n = m := by
  -- the last digit is the remainder, and the ones before it are the digits of the quotient
  induction n using Nat.strongRecOn generalizing m with
  | ind n ih =>
    rcases Nat.lt_or_ge n b with hn | hn <;> rcases Nat.lt_or_ge m b with hm | hm
    · rw [Nat.toDigits_of_lt_base hn, Nat.toDigits_of_lt_base hm] at h
      exact digitChar_inj (by omega) (by omega) (List.singleton_inj.1 h)
    · rw [Nat.toDigits_of_lt_base hn, Nat.toDigits_of_base_le hb hm] at h
      exact absurd (List.append_eq_singleton_iff.1 h.symm) (by simp [Nat.toDigits_ne_nil])
    · rw [Nat.toDigits_of_base_le hb hn, Nat.toDigits_of_lt_base hm] at h
      exact absurd (List.append_eq_singleton_iff.1 h) (by simp [Nat.toDigits_ne_nil])
    · rw [Nat.toDigits_of_base_le hb hn, Nat.toDigits_of_base_le hb hm] at h
      obtain ⟨hinit, hlast⟩ := List.append_inj' h rfl
      have hquot : n / b = m / b := ih (n / b) (Nat.div_lt_self (by omega) hb) hinit
      have hrem : n % b = m % b :=
        digitChar_inj (Nat.lt_of_lt_of_le (Nat.mod_lt n (by omega)) hle)
          (Nat.lt_of_lt_of_le (Nat.mod_lt m (by omega)) hle) (List.singleton_inj.1 hlast)
      rw [← Nat.div_add_mod n b, ← Nat.div_add_mod m b, hquot, hrem]

theorem exists_digitChar_of_mem_digits {b : Nat} (hb : 1 < b) {n : Nat} {ch : Char}
    (h : ch ∈ Nat.toDigits b n) : ∃ d, ch = Nat.digitChar d := by
  induction n using Nat.strongRecOn with
  | ind n ih =>
    rcases Nat.lt_or_ge n b with hn | hn
    · rw [Nat.toDigits_of_lt_base hn] at h
      exact ⟨n, List.mem_singleton.1 h⟩
    · rw [Nat.toDigits_of_base_le hb hn] at h
      rcases List.mem_append.1 h with h | h
      · exact ih (n / b) (Nat.div_lt_self (by omega) hb) h
      · exact ⟨n % b, List.mem_singleton.1 h⟩

/-- A text is divided by a character in one way only, if it does not occur before. -/
theorem cancel_at {mark : Char} {p q r t : Text} (hp : mark ∉ p) (hq : mark ∉ q)
    (h : p ++ mark :: r = q ++ mark :: t) : p = q ∧ r = t :=
  endsFirst_unique (List.cons_ne_nil mark []) (endsFirst_singleton.2 hp) (endsFirst_singleton.2 hq)
    (by rwa [List.append_assoc, List.append_assoc])

/-- **Digits with a text after them tell the number and the text**, if it begins with a character
that is no digit. -/
theorem digits_cancel {b : Nat} (hb : 1 < b) (hle : b ≤ 16) {mark : Char}
    (hmark : ∀ d, Nat.digitChar d ≠ mark) {n m : Nat} {r t : Text}
    (h : Nat.toDigits b n ++ mark :: r = Nat.toDigits b m ++ mark :: t) : n = m ∧ r = t := by
  have hfree : ∀ k, mark ∉ Nat.toDigits b k := fun k hmem => by
    obtain ⟨d, hd⟩ := exists_digitChar_of_mem_digits hb hmem
    exact hmark d hd.symm
  obtain ⟨hdigits, hrest⟩ := cancel_at (hfree n) (hfree m) h
  exact ⟨digits_inj hb hle hdigits, hrest⟩

end Text

/-! ## 2. One character between quotes -/

/-- The characters that are written as a backslash and a letter, with that letter. -/
def escapeLetters : List (Char × Char) :=
  [('\x00', '0'), ('\t', 't'), ('\r', 'r'), ('\n', 'n'), ('"', '"'), ('\\', '\\')]

/-- `Escapes ch w`: between quotes, the character may be written as `w`. -/
inductive Escapes : Char → Text → Prop where
  | letter {ch letter : Char} (h : (ch, letter) ∈ escapeLetters) : Escapes ch ['\\', letter]
  | code (ch : Char) : Escapes ch (['\\', 'u', '{'] ++ Nat.toDigits 16 ch.toNat ++ ['}'])
  | plain {ch : Char} (hquote : ch ≠ '"') (hslash : ch ≠ '\\') : Escapes ch [ch]

theorem escapeLetters_inj :
    ∀ p ∈ escapeLetters, ∀ q ∈ escapeLetters, p.2 = q.2 → p.1 = q.1 := by decide

theorem escapeLetters_ne_u : ∀ p ∈ escapeLetters, p.2 ≠ 'u' := by decide

namespace Escapes

variable {a c : Char} {u v r t : Text}

/-- What is written never begins with a quote. -/
theorem exists_cons (h : Escapes a u) : ∃ first more, u = first :: more ∧ first ≠ '"' := by
  cases h with
  | letter _ => exact ⟨'\\', _, rfl, by decide⟩
  | code => exact ⟨'\\', _, rfl, by decide⟩
  | plain hquote _ => exact ⟨a, [], rfl, hquote⟩

/-- **A character is told by what is written for it**, whatever comes after that. -/
theorem cancel (hu : Escapes a u) (hv : Escapes c v) (h : u ++ r = v ++ t) : a = c ∧ r = t := by
  cases hu with
  | letter hl =>
    cases hv with
    | letter hl' =>
      obtain ⟨hletter, hrest⟩ := List.cons.inj (List.cons.inj h).2
      exact ⟨escapeLetters_inj _ hl _ hl' hletter, hrest⟩
    | code => exact absurd (List.cons.inj (List.cons.inj h).2).1 (escapeLetters_ne_u _ hl)
    | plain _ hslash => exact absurd (List.cons.inj h).1.symm hslash
  | code =>
    cases hv with
    | letter hl' =>
      exact absurd (List.cons.inj (List.cons.inj h).2).1.symm (escapeLetters_ne_u _ hl')
    | code =>
      have hdigits : Nat.toDigits 16 a.toNat ++ '}' :: r = Nat.toDigits 16 c.toNat ++ '}' :: t := by
        simpa using h
      obtain ⟨hcode, hrest⟩ := Text.digits_cancel (by decide) (by decide)
        (fun _ => Nat.digitChar_ne '}' (by decide)) hdigits
      exact ⟨Char.toNat_inj.1 hcode, hrest⟩
    | plain _ hslash => exact absurd (List.cons.inj h).1.symm hslash
  | plain _ hslash =>
    cases hv with
    | letter _ | code => exact absurd (List.cons.inj h).1 hslash
    | plain _ _ => exact List.cons.inj h

end Escapes

/-! ## 3. A text between quotes -/

/-- `Escaped s w`: between quotes, the text may be written as `w`. -/
inductive Escaped : Text → Text → Prop where
  | nil : Escaped [] []
  | cons {ch : Char} {u s w : Text} (hfirst : Escapes ch u) (hmore : Escaped s w) :
      Escaped (ch :: s) (u ++ w)

/-- **A text is told by what is written for it and a quote**, whatever comes after that: no quote
in the text is taken for the closing one. -/
theorem Escaped.cancel {s s' w w' r t : Text} (h : Escaped s w) (h' : Escaped s' w')
    (heq : w ++ '"' :: r = w' ++ '"' :: t) : s = s' ∧ r = t := by
  induction h generalizing s' w' with
  | nil =>
    cases h' with
    | nil => exact ⟨rfl, (List.cons.inj heq).2⟩
    | cons hfirst _ =>
      obtain ⟨first, more, rfl, hne⟩ := hfirst.exists_cons
      exact absurd (List.cons.inj heq).1.symm hne
  | cons hfirst _ ih =>
    cases h' with
    | nil =>
      obtain ⟨first, more, rfl, hne⟩ := hfirst.exists_cons
      exact absurd (List.cons.inj heq).1 hne
    | cons hfirst' hmore' =>
      rw [List.append_assoc, List.append_assoc] at heq
      obtain ⟨rfl, hrest⟩ := hfirst.cancel hfirst' heq
      obtain ⟨rfl, hafter⟩ := ih hmore' hrest
      exact ⟨rfl, hafter⟩

theorem escapes_escapeWith (hidden : Char → Bool) (ch : Char) :
    Escapes ch (escapeWith hidden ch) := by
  unfold escapeWith
  split_ifs with hnul htab hreturn hnewline hquote hslash hhidden
  iterate 6 exact .letter (by simp [*, escapeLetters])
  · exact .code ch
  · exact .plain hquote hslash

theorem escaped_flatMap (hidden : Char → Bool) (s : Text) :
    Escaped s (s.flatMap (escapeWith hidden)) := by
  induction s with
  | nil => exact .nil
  | cons ch s ih => exact .cons (escapes_escapeWith hidden ch) ih

/-- **A quoted text is told by its quoted form**, whatever comes after that, and also if the two
sides do not take the same characters to be hidden. -/
theorem Text.quotedWith_cancel {hidden hidden' : Char → Bool} {s s' r t : Text}
    (h : quotedWith hidden s ++ r = quotedWith hidden' s' ++ t) : s = s' ∧ r = t :=
  (escaped_flatMap hidden s).cancel (escaped_flatMap hidden' s') (by simpa [quotedWith] using h)

/-! ## 4. Kinds, values and positions -/

/-- Every kind, in order. -/
def TokenKind.all : List TokenKind :=
  Directive.all.map directive ++
    [userCode, tag, number, identColon, ident, semicolon, bar, string, char]

theorem TokenKind.mem_all (k : TokenKind) : k ∈ all := by
  cases k with
  | directive d => exact List.mem_append_left _ (List.mem_map_of_mem d.mem_all)
  | _ => decide

theorem TokenKind.display_inj : ∀ k ∈ all, ∀ l ∈ all, k.display = l.display → k = l := by decide

theorem TokenKind.not_mem_display : ∀ k ∈ all, '(' ∉ k.display := by decide

/-- **A kind is told by its name and an opening bracket.** -/
theorem TokenKind.display_cancel {k l : TokenKind} {r t : Text}
    (h : k.display ++ '(' :: r = l.display ++ '(' :: t) : k = l ∧ r = t := by
  obtain ⟨hname, hrest⟩ :=
    Text.cancel_at (not_mem_display k k.mem_all) (not_mem_display l l.mem_all) h
  exact ⟨display_inj k k.mem_all l l.mem_all hname, hrest⟩

/-- The digits of a number do not begin with a quote. -/
theorem Text.ofNat_append_ne_quote (n : Nat) (r t : Text) : ofNat n ++ r ≠ '"' :: t := by
  intro h
  obtain ⟨first, more, hdigits⟩ :=
    List.exists_cons_of_ne_nil (Nat.toDigits_ne_nil (n := n) (b := 10))
  have hfirst : first ∈ Nat.toDigits 10 n := hdigits ▸ List.mem_cons_self
  obtain ⟨d, rfl⟩ := exists_digitChar_of_mem_digits (by decide) hfirst
  rw [ofNat, hdigits] at h
  exact Nat.digitChar_ne '"' (by decide) (List.cons.inj h).1

/-- **A value is told by what is shown of it and a closing bracket.** -/
theorem TokenValue.displayWith_cancel {hidden hidden' : Char → Bool} {v w : TokenValue}
    {r t : Text} (h : v.displayWith hidden ++ ')' :: r = w.displayWith hidden' ++ ')' :: t) :
    v = w ∧ r = t := by
  cases v with
  | number n =>
    cases w with
    | number m =>
      obtain ⟨rfl, hrest⟩ := Text.digits_cancel (by decide) (by decide)
        (fun _ => Nat.digitChar_ne ')' (by decide)) h
      exact ⟨rfl, hrest⟩
    | text s' => exact absurd h (Text.ofNat_append_ne_quote n _ _)
  | text s =>
    cases w with
    | number m => exact absurd h.symm (Text.ofNat_append_ne_quote m _ _)
    | text s' =>
      obtain ⟨rfl, hrest⟩ := Text.quotedWith_cancel h
      exact ⟨rfl, (List.cons.inj hrest).2⟩

/-- **A position is told by what is shown of it.** -/
theorem Position.display_inj {p q : Position} (h : p.display = q.display) :
    p.line = q.line ∧ p.column = q.column := by
  obtain ⟨hline, hcolumn⟩ := Text.digits_cancel (by decide) (by decide)
    (fun _ => Nat.digitChar_ne ':' (by decide)) h
  exact ⟨hline, Text.digits_inj (by decide) (by decide) hcolumn⟩

/-! ## 5. Tokens -/

namespace Token

/-- Two tokens agree in all that is shown of them. -/
structure ShownAlike (t u : Token) : Prop where
  kind : t.kind = u.kind
  value : t.value = u.value
  line : t.position.line = u.position.line
  column : t.position.column = u.position.column

/-- What is shown is taken apart from left to right: up to the opening bracket, up to the closing
one, and what is left is the position. -/
theorem shownAlike_of_displayWith_eq {hidden hidden' : Char → Bool} {t u : Token}
    (h : t.displayWith hidden = u.displayWith hidden') : ShownAlike t u := by
  simp only [displayWith, List.append_assoc, List.singleton_append] at h
  obtain ⟨hkind, h⟩ := TokenKind.display_cancel h
  obtain ⟨hvalue, h⟩ := TokenValue.displayWith_cancel h
  obtain ⟨hline, hcolumn⟩ := Position.display_inj (List.append_cancel_left h)
  exact ⟨hkind, hvalue, hline, hcolumn⟩

theorem ShownAlike.display_eq {t u : Token} (h : ShownAlike t u) : t.display = u.display := by
  have hposition : t.position = u.position := by
    cases hp : t.position
    cases hq : u.position
    simpa [hp, hq] using And.intro h.line h.column
  rw [display, display, displayWith, displayWith, h.kind, h.value, hposition]

/-- **What is shown of a token tells its kind, its value, its line and its column**, and nothing
else: it is the same for two tokens exactly if they agree in these. It does so whichever characters
are taken to be hidden, even if they are not the same for the two. -/
theorem display_tells_token (t u : Token) :
    (t.display = u.display ↔ ShownAlike t u) ∧
      ∀ hidden hidden' : Char → Bool,
        t.displayWith hidden = u.displayWith hidden' → ShownAlike t u := by
  refine ⟨⟨fun h => ?_, ShownAlike.display_eq⟩, fun _ _ => shownAlike_of_displayWith_eq⟩
  rw [display, display] at h
  exact shownAlike_of_displayWith_eq h

/-- Two tokens that differ in their references only, with a text that looks like the end of a shown
token, and a third token that ends in the same way. -/
theorem display_tells_token_nested :
    (⟨.userCode, .text "\") @ 1:1\n\\".toList, ⟨2, 7⟩, [⟨.value, .whole, none, ⟨1, 3⟩⟩]⟩ :
        Token).displayWith (fun _ => false) =
      (ofText .userCode "\") @ 1:1\n\\".toList ⟨2, 7⟩).displayWith (· == 'é') ∧
    ShownAlike ⟨.userCode, .text "\") @ 1:1\n\\".toList, ⟨2, 7⟩, [⟨.value, .whole, none, ⟨1, 3⟩⟩]⟩
      (ofText .userCode "\") @ 1:1\n\\".toList ⟨2, 7⟩) ∧
    (ofText .userCode "\") @ 1:1".toList ⟨1, 1⟩).display ≠
      (ofText .userCode [] ⟨1, 1⟩).display := by
  refine ⟨by decide, (display_tells_token _ _).2 (fun _ => false) (· == 'é') (by decide),
    fun h => ?_⟩
  exact absurd ((display_tells_token _ _).1.1 h).value (by decide)

end Token

end GrammarLexer
