import Mathlib.Data.List.Forall2
import GrammarLexer.Catalog
import GrammarLexer.Proofs.Faults

/-!
# What a catalog asks of a declaration

A declaration has a catalog if it is an enumeration and each of its variants gives a keyword. What a
variant must be for that is said here check by check, each check for itself; the first variant that
fails one, and the first check that it fails, tell the error.

* `FirstOf P xs x` -- the first element of a list with a property;
* `Variant.FirstKeyword`, `Variant.Gives` -- the attribute that counts, and the keyword in it;
* `Check`, `Check.Fails` -- the checks on a variant in their order, and when each fails;
* `Variant.keyword_eq_ok_iff`, `Variant.keyword_eq_error_iff` -- one variant;
* `catalogOf_eq_ok_iff`, `catalogOf_eq_error_iff` -- all of them, by induction on the list;
* `Declaration.catalog_exact` -- **when there is a catalog, what is in it, and else the error**;
* `Declaration.catalog_tagged` -- the checks look at one variant at a time, so two may share a
  keyword;
* `Declaration.lookUp_finds_first` -- **which variant a keyword leads back to**, the first of those
  that share it.
-/

namespace GrammarLexer

/-! ## 1. The first of a list -/

/-- `FirstOf P xs x`: the list has `x` in it, which has the property, and nothing before it has. -/
def FirstOf {α : Type} (P : α → Prop) (xs : List α) (x : α) : Prop :=
  ∃ before after, xs = before ++ x :: after ∧ P x ∧ ∀ y ∈ before, ¬ P y

section

variable {α : Type} {P : α → Prop} {x y : α} {xs : List α}

@[simp] theorem not_firstOf_nil : ¬ FirstOf P [] x := by
  rintro ⟨before, after, h, -⟩
  cases before <;> cases h

theorem firstOf_cons :
    FirstOf P (y :: xs) x ↔ P y ∧ x = y ∨ ¬ P y ∧ FirstOf P xs x := by
  constructor
  · rintro ⟨before, after, hsplit, hx, hbefore⟩
    cases before with
    | nil =>
      cases hsplit
      exact .inl ⟨hx, rfl⟩
    | cons z before =>
      cases hsplit
      exact .inr ⟨hbefore y List.mem_cons_self, before, after, rfl, hx,
        fun z hz => hbefore z (List.mem_cons_of_mem y hz)⟩
  · rintro (⟨hy, rfl⟩ | ⟨hy, before, after, rfl, hx, hbefore⟩)
    · exact ⟨[], xs, rfl, hy, fun _ hz => nomatch hz⟩
    · exact ⟨y :: before, after, rfl, hx, List.forall_mem_cons.2 ⟨hy, hbefore⟩⟩

theorem FirstOf.unique (h : FirstOf P xs x) (h' : FirstOf P xs y) : x = y := by
  induction xs with
  | nil => exact absurd h not_firstOf_nil
  | cons z xs ih =>
    rcases firstOf_cons.1 h with ⟨hz, rfl⟩ | ⟨hz, h⟩ <;>
      rcases firstOf_cons.1 h' with ⟨hz', rfl⟩ | ⟨hz', h'⟩
    · rfl
    · exact absurd hz hz'
    · exact absurd hz' hz
    · exact ih h h'

theorem find?_eq_some_iff_firstOf {p : α → Bool} :
    xs.find? p = some x ↔ FirstOf (fun y => p y = true) xs x := by
  rw [List.find?_eq_some_iff_append]
  constructor
  · rintro ⟨hx, before, after, rfl, hbefore⟩
    exact ⟨before, after, rfl, hx, by simpa using hbefore⟩
  · rintro ⟨before, after, rfl, hx, hbefore⟩
    exact ⟨hx, before, after, rfl, by simpa using hbefore⟩

end

/-! ## 2. Checks -/

/-- The attribute that counts: the first of those that are for keywords. -/
def Variant.FirstKeyword (v : Variant) (a : Attribute) : Prop :=
  FirstOf (fun a => a.path = keywordPath) v.attributes a

/-- The variant carries nothing, and the attribute that counts has the keyword as its one parameter,
which begins with a percent sign. -/
structure Variant.Gives (v : Variant) (keyword : Text) : Prop where
  unit : v.fields = .unit
  written : ∃ a, v.FirstKeyword a ∧ a.parameters = some [.text keyword]
  percent : keyword.head? = some '%'

/-- What a variant is checked for. -/
inductive Check where
  | carriesNothing
  | hasAttribute
  | hasList
  | hasParameter
  | isText
  | isNotEmpty
  | isAlone
  | hasPercentSign
  deriving DecidableEq, Repr

namespace Check

/-- Every check, in the order in which they are made. -/
def all : List Check :=
  [carriesNothing, hasAttribute, hasList, hasParameter, isText, isNotEmpty, isAlone, hasPercentSign]

/-- The error that a failed check gives. -/
def error : Check → CatalogError
  | carriesNothing => .carriesFields
  | hasAttribute => .missingKeyword
  | hasList => .noParameters
  | hasParameter => .noParameter
  | isText => .literal .notText
  | isNotEmpty => .literal .empty
  | isAlone => .extraParameters
  | hasPercentSign => .noPercentSign

/-- A check of the parameters fails, whatever the other checks say of them. -/
def FailsOn (parameters : Option (List Literal)) : Check → Prop
  | carriesNothing | hasAttribute => False
  | hasList => parameters = none
  | hasParameter => parameters = some []
  | isText => ∃ more, parameters = some (.number :: more)
  | isNotEmpty => ∃ more, parameters = some (.text [] :: more)
  | isAlone => ∃ first second more, parameters = some (first :: second :: more)
  | hasPercentSign => ∃ s more, parameters = some (.text s :: more) ∧ s.head? ≠ some '%'

/-- A check fails, whatever the other checks say. The last six are about the parameters of the
attribute that counts. -/
def Fails (v : Variant) : Check → Prop
  | carriesNothing => v.fields ≠ .unit
  | hasAttribute => ∀ a ∈ v.attributes, a.path ≠ keywordPath
  | check => ∃ a, v.FirstKeyword a ∧ check.FailsOn a.parameters

end Check

/-- The variant fails some check. -/
def Variant.Offends (v : Variant) : Prop := ∃ check : Check, check.Fails v

/-! ## 3. One variant -/

theorem Attribute.text_eq_ok_iff {a : Attribute} {s : Text} :
    a.text = .ok s ↔ a.parameters = some [.text s] ∧ s ≠ [] := by
  obtain ⟨path, parameters⟩ := a
  rcases parameters with _ | _ | ⟨⟨_ | ⟨ch, rest⟩⟩ | _, _ | ⟨second, more⟩⟩ <;>
    simp [text, Literal.nonEmpty]
  rintro rfl
  exact List.cons_ne_nil _ _

namespace Variant

variable {v : Variant} {a : Attribute} {e : CatalogError} {keyword : Text}

/-- The attribute that the reader looks at is the one that counts. -/
theorem find?_keyword_eq_some_iff :
    (v.attributes.find? fun a => a.path == keywordPath) = some a ↔ v.FirstKeyword a := by
  rw [find?_eq_some_iff_firstOf]
  simp only [beq_iff_eq, FirstKeyword]

theorem keyword_of_firstKeyword (hunit : v.fields = .unit) (h : v.FirstKeyword a) :
    v.keyword =
      match a.text with
      | .error e => .error e
      | .ok s => if s.head? = some '%' then .ok s else .error .noPercentSign := by
  rewrite [Variant.keyword, if_neg (not_not_intro hunit), find?_keyword_eq_some_iff.2 h]
  rfl

/-- Where an attribute counts, it alone decides the checks of its parameters. -/
theorem FirstKeyword.exists_iff (h : v.FirstKeyword a) {Q : Attribute → Prop} :
    (∃ b, v.FirstKeyword b ∧ Q b) ↔ Q a := by
  constructor
  · rintro ⟨b, hb, hQ⟩
    rwa [h.unique hb]
  · exact fun hQ => ⟨a, h, hQ⟩

theorem FirstKeyword.not_forall (h : v.FirstKeyword a) :
    ¬ ∀ b ∈ v.attributes, b.path ≠ keywordPath := by
  obtain ⟨before, after, hsplit, ha, -⟩ := h
  exact fun hnone => hnone a (by simp [hsplit]) ha

/-- **A variant has a keyword exactly if it gives it.** -/
theorem keyword_eq_ok_iff : v.keyword = .ok keyword ↔ v.Gives keyword := by
  constructor
  · intro h
    by_cases hunit : v.fields = .unit
    · cases hfind : v.attributes.find? fun a => a.path == keywordPath with
      | none =>
        rw [Variant.keyword, if_neg (not_not_intro hunit), hfind] at h
        cases h
      | some a =>
        have ha := find?_keyword_eq_some_iff.1 hfind
        rw [keyword_of_firstKeyword hunit ha] at h
        cases htext : a.text with
        | error e =>
          rw [htext] at h
          cases h
        | ok s =>
          rw [htext] at h
          dsimp only at h
          split at h
          case isFalse => cases h
          case isTrue hpercent =>
            cases h
            exact ⟨hunit, ⟨a, ha, (Attribute.text_eq_ok_iff.1 htext).1⟩, hpercent⟩
    · rw [Variant.keyword, if_pos hunit] at h
      cases h
  · rintro ⟨hunit, ⟨a, ha, hparameters⟩, hpercent⟩
    have hne : keyword ≠ [] := by
      rintro rfl
      cases hpercent
    rw [keyword_of_firstKeyword hunit ha, Attribute.text_eq_ok_iff.2 ⟨hparameters, hne⟩]
    exact if_pos hpercent

/-- Of the checks of the parameters, the first one that fails tells the error. -/
theorem exists_failsOn_of_error (hunit : v.fields = .unit) (h : v.FirstKeyword a)
    (herror : v.keyword = .error e) :
    ∃ check, FirstOf (Check.FailsOn a.parameters) Check.all check ∧ e = check.error := by
  rw [keyword_of_firstKeyword hunit h, Attribute.text] at herror
  cases hparameters : a.parameters with
  | none =>
    rw [hparameters] at herror
    exact ⟨.hasList, by simp [firstOf_cons, Check.all, Check.FailsOn], by cases herror; rfl⟩
  | some literals =>
    rw [hparameters] at herror
    cases literals with
    | nil =>
      exact ⟨.hasParameter, by simp [firstOf_cons, Check.all, Check.FailsOn], by cases herror; rfl⟩
    | cons first more =>
      cases first with
      | number =>
        exact ⟨.isText, by simp [firstOf_cons, Check.all, Check.FailsOn], by cases herror; rfl⟩
      | text s =>
        cases s with
        | nil =>
          exact ⟨.isNotEmpty, by simp [firstOf_cons, Check.all, Check.FailsOn],
            by cases herror; rfl⟩
        | cons ch rest =>
          cases more with
          | cons second more =>
            exact ⟨.isAlone, by simp [firstOf_cons, Check.all, Check.FailsOn],
              by cases herror; rfl⟩
          | nil =>
            simp only [Literal.nonEmpty, if_pos] at herror
            split at herror
            case isTrue => cases herror
            case isFalse hpercent =>
              refine ⟨.hasPercentSign, ?_, by cases herror; rfl⟩
              simpa [firstOf_cons, Check.all, Check.FailsOn] using hpercent

/-- Where the variant carries nothing and an attribute counts, all depends on its parameters. -/
theorem FirstKeyword.fails_iff (h : v.FirstKeyword a) (hunit : v.fields = .unit) (check : Check) :
    check.Fails v ↔ check.FailsOn a.parameters := by
  cases check with
  | carriesNothing => exact iff_of_false (not_not_intro hunit) id
  | hasAttribute => exact iff_of_false h.not_forall id
  | _ => exact h.exists_iff

/-- A variant that gives a keyword passes every check. -/
theorem Gives.not_offends (h : v.Gives keyword) : ¬ v.Offends := by
  rintro ⟨check, hfails⟩
  obtain ⟨a, ha, hparameters⟩ := h.written
  rw [ha.fails_iff h.unit, hparameters] at hfails
  cases check with
  | carriesNothing | hasAttribute => exact hfails
  | hasList | hasParameter => cases hfails
  | isText =>
    obtain ⟨more, hmore⟩ := hfails
    cases hmore
  | isNotEmpty =>
    obtain ⟨more, hmore⟩ := hfails
    cases hmore
    cases h.percent
  | isAlone =>
    obtain ⟨first, second, more, hmore⟩ := hfails
    cases hmore
  | hasPercentSign =>
    obtain ⟨s, more, hs, hno⟩ := hfails
    cases hs
    exact hno h.percent

theorem exists_firstOf_of_error (h : v.keyword = .error e) :
    ∃ check, FirstOf (Check.Fails v) Check.all check ∧ e = check.error := by
  by_cases hunit : v.fields = .unit
  · cases hfind : v.attributes.find? fun a => a.path == keywordPath with
    | none =>
      rw [Variant.keyword, if_neg (not_not_intro hunit), hfind] at h
      cases h
      refine ⟨.hasAttribute, firstOf_cons.2 (.inr ⟨not_not_intro hunit, firstOf_cons.2 (.inl ?_)⟩),
        rfl⟩
      refine ⟨fun a ha => ?_, rfl⟩
      simpa using List.find?_eq_none.1 hfind a ha
    | some a =>
      have ha := find?_keyword_eq_some_iff.1 hfind
      have hfails : Check.Fails v = Check.FailsOn a.parameters :=
        funext fun check => propext (ha.fails_iff hunit check)
      rw [hfails]
      exact exists_failsOn_of_error hunit ha h
  · rw [Variant.keyword, if_pos hunit] at h
    cases h
    exact ⟨.carriesNothing, firstOf_cons.2 (.inl ⟨hunit, rfl⟩), rfl⟩

/-- **A variant is refused for the first check that it fails.** -/
theorem keyword_eq_error_iff :
    v.keyword = .error e ↔ ∃ check, FirstOf (Check.Fails v) Check.all check ∧ e = check.error := by
  constructor
  · exact exists_firstOf_of_error
  · rintro ⟨check, hfirst, rfl⟩
    cases hkeyword : v.keyword with
    | ok keyword =>
      obtain ⟨-, -, -, hfails, -⟩ := hfirst
      exact absurd ⟨check, hfails⟩ (keyword_eq_ok_iff.1 hkeyword).not_offends
    | error e =>
      obtain ⟨check', hfirst', rfl⟩ := exists_firstOf_of_error hkeyword
      rw [hfirst.unique hfirst']

theorem offends_of_error (h : v.keyword = .error e) : v.Offends := by
  obtain ⟨check, ⟨-, -, -, hfails, -⟩, -⟩ := exists_firstOf_of_error h
  exact ⟨check, hfails⟩

/-- Two variants that agree in their names, in what they carry and in the attribute that counts, if
there is one. -/
structure LooksLike (v v' : Variant) : Prop where
  name : v.name = v'.name
  fields : v.fields = v'.fields
  keyword : ∀ a, v.FirstKeyword a ↔ v'.FirstKeyword a

/-- **No other attribute counts.** -/
theorem LooksLike.keyword_eq {v' : Variant} (h : v.LooksLike v') : v.keyword = v'.keyword := by
  have hfind : (v.attributes.find? fun a => a.path == keywordPath) =
      v'.attributes.find? fun a => a.path == keywordPath := by
    refine Option.ext fun a => ?_
    rw [find?_keyword_eq_some_iff, find?_keyword_eq_some_iff, h.keyword]
  rw [Variant.keyword, Variant.keyword, h.fields, hfind]

end Variant

/-! ## 4. All variants -/

/-- **The catalog lists what the variants give**, in their order. -/
theorem catalogOf_eq_ok_iff {variants : List Variant} {catalog : List (Text × Text)} :
    catalogOf variants = .ok catalog ↔
      List.Forall₂ (fun v entry => entry.1 = v.name ∧ v.Gives entry.2) variants catalog := by
  induction variants generalizing catalog with
  | nil =>
    rw [catalogOf, List.forall₂_nil_left_iff, Except.ok.injEq, eq_comm]
  | cons v more ih =>
    rw [List.forall₂_cons_left_iff, catalogOf]
    constructor
    · intro h
      cases hkeyword : v.keyword with
      | error e =>
        rw [hkeyword] at h
        cases h
      | ok keyword =>
        rw [hkeyword] at h
        obtain ⟨catalog, hmore, rfl⟩ := exists_of_map_eq_ok h
        exact ⟨_, catalog, ⟨rfl, Variant.keyword_eq_ok_iff.1 hkeyword⟩, ih.1 hmore, rfl⟩
    · rintro ⟨⟨name, keyword⟩, catalog, ⟨rfl, hgives⟩, hmore, rfl⟩
      rw [Variant.keyword_eq_ok_iff.2 hgives, ih.2 hmore]
      rfl

/-- **The first variant that fails a check tells the error.** -/
theorem catalogOf_eq_error_iff {variants : List Variant} {e : CatalogError} :
    catalogOf variants = .error e ↔
      ∃ v, FirstOf Variant.Offends variants v ∧ v.keyword = .error e := by
  induction variants with
  | nil => simp [catalogOf]
  | cons v more ih =>
    simp only [firstOf_cons]
    rw [catalogOf]
    cases hkeyword : v.keyword with
    | error e' =>
      have hoffends := Variant.offends_of_error hkeyword
      constructor
      · rintro ⟨⟩
        exact ⟨v, .inl ⟨hoffends, rfl⟩, hkeyword⟩
      · rintro ⟨w, ⟨-, rfl⟩ | ⟨hno, -⟩, herror⟩
        · rw [← hkeyword, herror]
        · exact absurd hoffends hno
    | ok keyword =>
      have hno := (Variant.keyword_eq_ok_iff.1 hkeyword).not_offends
      dsimp only
      constructor
      · intro h
        obtain ⟨w, hw, herror⟩ := ih.1 (eq_error_of_map_eq_error h)
        exact ⟨w, .inr ⟨hno, hw⟩, herror⟩
      · rintro ⟨w, ⟨hoffends, -⟩ | ⟨-, hw⟩, herror⟩
        · exact absurd hoffends hno
        · rw [ih.2 ⟨w, hw, herror⟩]
          rfl

theorem exists_catalogOf_iff {variants : List Variant} :
    (∃ catalog, catalogOf variants = .ok catalog) ↔
      ∀ v ∈ variants, ∃ keyword, v.Gives keyword := by
  constructor
  · rintro ⟨catalog, h⟩
    have hall := catalogOf_eq_ok_iff.1 h
    clear h
    induction hall with
    | nil => exact fun _ hv => nomatch hv
    | cons hentry _ ih => exact List.forall_mem_cons.2 ⟨⟨_, hentry.2⟩, ih⟩
  · intro h
    cases hcatalog : catalogOf variants with
    | ok catalog => exact ⟨catalog, rfl⟩
    | error e =>
      obtain ⟨v, ⟨before, after, rfl, hoffends, -⟩, -⟩ := catalogOf_eq_error_iff.1 hcatalog
      obtain ⟨keyword, hgives⟩ := h v (by simp)
      exact absurd hoffends hgives.not_offends

theorem catalogOf_congr {variants variants' : List Variant}
    (h : List.Forall₂ Variant.LooksLike variants variants') :
    catalogOf variants = catalogOf variants' := by
  induction h with
  | nil => rfl
  | cons hv _ ih => rw [catalogOf, catalogOf, hv.keyword_eq, hv.name, ih]

namespace Declaration

/-- **When a declaration has a catalog, what is in it, and else the error.** There is a catalog
exactly for an enumeration each of whose variants gives a keyword, and then it has the names and the
keywords of all of them, in order. A record and a union have none. An enumeration that has none is
refused for its first variant that fails a check, with the error of the first check that this one
fails. Nothing depends on an attribute that is not for keywords, or that is not the first of
those. -/
theorem catalog_exact :
    (∀ (d : Declaration) (catalog : List (Text × Text)), d.catalog = .ok catalog ↔
      ∃ variants, d = enumeration variants ∧
        List.Forall₂ (fun v entry => entry.1 = v.name ∧ v.Gives entry.2) variants catalog) ∧
    (∀ d : Declaration, (∃ catalog, d.catalog = .ok catalog) ↔
      ∃ variants, d = enumeration variants ∧ ∀ v ∈ variants, ∃ keyword, v.Gives keyword) ∧
    (record.catalog = .error .notEnumeration ∧ union.catalog = .error .notEnumeration) ∧
    (∀ (variants : List Variant) (e : CatalogError),
      (enumeration variants).catalog = .error e ↔
        ∃ v check, FirstOf Variant.Offends variants v ∧
          FirstOf (Check.Fails v) Check.all check ∧ e = check.error) ∧
    ∀ variants variants' : List Variant, List.Forall₂ Variant.LooksLike variants variants' →
      (enumeration variants).catalog = (enumeration variants').catalog := by
  have hok : ∀ (d : Declaration) (catalog : List (Text × Text)), d.catalog = .ok catalog ↔
      ∃ variants, d = enumeration variants ∧
        List.Forall₂ (fun v entry => entry.1 = v.name ∧ v.Gives entry.2) variants catalog := by
    intro d catalog
    cases d with
    | enumeration variants =>
      rw [Declaration.catalog, catalogOf_eq_ok_iff]
      simp
    | record | union => simp [Declaration.catalog]
  refine ⟨hok, fun d => ?_, ⟨rfl, rfl⟩, fun variants e => ?_, fun variants variants' hlike => ?_⟩
  · cases d with
    | enumeration variants =>
      rw [Declaration.catalog, exists_catalogOf_iff]
      simp
    | record | union => simp [Declaration.catalog]
  · rw [Declaration.catalog, catalogOf_eq_error_iff]
    constructor
    · rintro ⟨v, hv, herror⟩
      obtain ⟨check, hcheck, he⟩ := Variant.keyword_eq_error_iff.1 herror
      exact ⟨v, check, hv, hcheck, he⟩
    · rintro ⟨v, check, hv, hcheck, he⟩
      exact ⟨v, hv, Variant.keyword_eq_error_iff.2 ⟨check, hcheck, he⟩⟩
  · exact catalogOf_congr hlike

/-- Of three variants the first has a second attribute for keywords, which is not looked at; the
next one fails the last three checks, and the last one the first two. -/
theorem catalog_exact_several_faults :
    (∃ v check, FirstOf Variant.Offends
        [⟨['A'], .unit,
            [⟨['x'], none⟩, ⟨keywordPath, some [.text ['%', 'a']]⟩, ⟨keywordPath, none⟩]⟩,
          ⟨['B'], .unit, [⟨keywordPath, some [.text [], .number]⟩]⟩, ⟨['C'], .tuple, []⟩] v ∧
      FirstOf (Check.Fails v) Check.all check ∧ CatalogError.literal .empty = check.error) ∧
    (enumeration [⟨['A'], .unit,
        [⟨['x'], none⟩, ⟨keywordPath, some [.text ['%', 'a']]⟩, ⟨keywordPath, none⟩]⟩]).catalog =
      (enumeration [⟨['A'], .unit, [⟨keywordPath, some [.text ['%', 'a']]⟩]⟩]).catalog := by
  obtain ⟨-, -, -, herror, hlike⟩ := catalog_exact
  have hx : ['x'] ≠ keywordPath := by decide
  refine ⟨(herror _ _).1 rfl, hlike _ _ (.cons ⟨rfl, rfl, fun a => ?_⟩ .nil)⟩
  simp [Variant.FirstKeyword, firstOf_cons, hx]

end Declaration

/-! ## 5. The way back from a keyword -/

section

variable {catalog : List (Text × Text)} {entry : Text × Text} {keyword : Text}

/-- What is found is the first entry that has the keyword. -/
theorem lookUp_eq_some_iff :
    lookUp catalog keyword = some entry ↔ FirstOf (fun e => e.2 = keyword) catalog entry := by
  rw [lookUp, find?_eq_some_iff_firstOf]
  simp only [beq_iff_eq]

theorem lookUp_eq_none_iff : lookUp catalog keyword = none ↔ ∀ e ∈ catalog, e.2 ≠ keyword := by
  rw [lookUp, List.find?_eq_none]
  simp only [beq_iff_eq, Ne]

/-- **Every entry is found by its keyword exactly if no two entries share one.** -/
theorem forall_lookUp_iff :
    (∀ e ∈ catalog, lookUp catalog e.2 = some e) ↔
      ∀ e ∈ catalog, ∀ e' ∈ catalog, e.2 = e'.2 → e = e' := by
  constructor
  · intro h e he e' he' hkeyword
    have hfound := h e he
    rw [hkeyword, h e' he'] at hfound
    exact (Option.some.inj hfound).symm
  · intro h e he
    cases hfound : lookUp catalog e.2 with
    | none => exact absurd rfl (lookUp_eq_none_iff.1 hfound e he)
    | some first =>
      obtain ⟨before, after, hsplit, hfirst, -⟩ := lookUp_eq_some_iff.1 hfound
      have hmem : first ∈ catalog := by simp [hsplit]
      rw [h first hmem e he hfirst]

end

theorem Variant.Gives.unique {v : Variant} {keyword keyword' : Text} (h : v.Gives keyword)
    (h' : v.Gives keyword') : keyword = keyword' := by
  have hsame := (keyword_eq_ok_iff.2 h).symm.trans (keyword_eq_ok_iff.2 h')
  exact Except.ok.inj hsame

section

variable {variants : List Variant} {catalog : List (Text × Text)} {entry : Text × Text}
  {keyword : Text}

theorem mem_catalogOf (h : catalogOf variants = .ok catalog) :
    entry ∈ catalog ↔ ∃ v ∈ variants, entry.1 = v.name ∧ v.Gives entry.2 := by
  have hall := catalogOf_eq_ok_iff.1 h
  clear h
  induction hall with
  | nil => simp
  | @cons v e variants catalog hentry _ ih =>
    simp only [List.mem_cons, ih]
    constructor
    · rintro (rfl | ⟨w, hw, hgives⟩)
      · exact ⟨v, .inl rfl, hentry⟩
      · exact ⟨w, .inr hw, hgives⟩
    · rintro ⟨w, rfl | hw, hname, hgives⟩
      · exact .inl (Prod.ext (hname.trans hentry.1.symm) (hgives.unique hentry.2))
      · exact .inr ⟨w, hw, hname, hgives⟩

/-- **A keyword leads back to the first variant that gives it.** -/
theorem lookUp_catalogOf (h : catalogOf variants = .ok catalog) :
    lookUp catalog keyword = some entry ↔
      ∃ v, FirstOf (fun v => v.Gives keyword) variants v ∧ entry = (v.name, keyword) := by
  have hall := catalogOf_eq_ok_iff.1 h
  clear h
  rw [lookUp_eq_some_iff]
  induction hall with
  | nil => simp
  | @cons v e variants catalog hentry _ ih =>
    have hgives : v.Gives keyword ↔ e.2 = keyword := by
      constructor
      · exact hentry.2.unique
      · rintro rfl
        exact hentry.2
    simp only [firstOf_cons, ih, hgives]
    constructor
    · rintro (⟨rfl, rfl⟩ | ⟨hother, w, hw, rfl⟩)
      · exact ⟨v, .inl ⟨rfl, rfl⟩, Prod.ext hentry.1 rfl⟩
      · exact ⟨w, .inr ⟨hother, hw⟩, rfl⟩
    · rintro ⟨w, ⟨rfl, rfl⟩ | ⟨hother, hw⟩, rfl⟩
      · exact .inl ⟨rfl, Prod.ext hentry.1.symm rfl⟩
      · exact .inr ⟨hother, w, hw, rfl⟩

/-- Every entry is found by its keyword exactly if variants with a keyword in common have their name
in common too. -/
theorem forall_lookUp_catalogOf_iff (h : catalogOf variants = .ok catalog) :
    (∀ e ∈ catalog, lookUp catalog e.2 = some e) ↔
      ∀ v ∈ variants, ∀ w ∈ variants, ∀ keyword, v.Gives keyword → w.Gives keyword →
        v.name = w.name := by
  rw [forall_lookUp_iff]
  constructor
  · intro hone v hv w hw keyword hgives hgives'
    have hentry : (v.name, keyword) ∈ catalog := (mem_catalogOf h).2 ⟨v, hv, rfl, hgives⟩
    have hentry' : (w.name, keyword) ∈ catalog := (mem_catalogOf h).2 ⟨w, hw, rfl, hgives'⟩
    exact congrArg Prod.fst (hone _ hentry _ hentry' rfl)
  · intro hnames e he e' he' hkeyword
    obtain ⟨v, hv, hname, hgives⟩ := (mem_catalogOf h).1 he
    obtain ⟨w, hw, hname', hgives'⟩ := (mem_catalogOf h).1 he'
    rw [← hkeyword] at hgives'
    have hsame := hnames v hv w hw e.2 hgives hgives'
    exact Prod.ext (hname.trans (hsame.trans hname'.symm)) hkeyword

end

/-- A variant with nothing but a keyword. -/
def Variant.tagged (entry : Text × Text) : Variant :=
  ⟨entry.1, .unit, [⟨keywordPath, some [.text entry.2]⟩]⟩

theorem Variant.gives_tagged {entry : Text × Text} (h : entry.2.head? = some '%') :
    (tagged entry).Gives entry.2 where
  unit := rfl
  written := ⟨_, firstOf_cons.2 (.inl ⟨rfl, rfl⟩), rfl⟩
  percent := h

namespace Declaration

/-- Nothing keeps keywords apart: every list of names with keywords that begin with a percent sign
is a catalog, whether keywords repeat or not. -/
theorem catalog_tagged {entries : List (Text × Text)}
    (h : ∀ entry ∈ entries, entry.2.head? = some '%') :
    (enumeration (entries.map Variant.tagged)).catalog = .ok entries := by
  refine catalogOf_eq_ok_iff.2 (List.forall₂_map_left_iff.2 (List.forall₂_same.2 ?_))
  intro entry hentry
  exact ⟨rfl, Variant.gives_tagged (h entry hentry)⟩

/-- **Which variant a keyword leads back to.** In the catalog of an enumeration a keyword is found
exactly if a variant gives it, and then with the name of the first that does. So every entry is
found by its own keyword exactly if no two variants of different names give the same keyword. -/
theorem lookUp_finds_first {d : Declaration} {catalog : List (Text × Text)}
    (h : d.catalog = .ok catalog) :
    ∃ variants, d = enumeration variants ∧
      (∀ keyword entry, lookUp catalog keyword = some entry ↔
        ∃ v, FirstOf (fun v => v.Gives keyword) variants v ∧ entry = (v.name, keyword)) ∧
      ((∀ entry ∈ catalog, lookUp catalog entry.2 = some entry) ↔
        ∀ v ∈ variants, ∀ w ∈ variants, ∀ keyword, v.Gives keyword → w.Gives keyword →
          v.name = w.name) := by
  cases d with
  | enumeration variants =>
    exact ⟨variants, rfl, fun keyword entry => lookUp_catalogOf h, forall_lookUp_catalogOf_iff h⟩
  | record | union => cases h

/-- Of three variants the first and the last have one keyword. It leads to the first of them, and so
not every entry is found by its keyword. -/
theorem lookUp_finds_first_of_shared :
    ∃ catalog, (enumeration ([("B".toList, "%z".toList), ("C".toList, "%y".toList),
        ("A".toList, "%z".toList)].map Variant.tagged)).catalog = .ok catalog ∧
      lookUp catalog "%z".toList = some ("B".toList, "%z".toList) ∧
      ¬ ∀ entry ∈ catalog, lookUp catalog entry.2 = some entry := by
  have hpercent : ∀ entry ∈ [("B".toList, "%z".toList), ("C".toList, "%y".toList),
      ("A".toList, "%z".toList)], entry.2.head? = some '%' := by decide
  have hcatalog := catalog_tagged hpercent
  obtain ⟨variants, hvariants, hfirst, hall⟩ := lookUp_finds_first hcatalog
  cases hvariants
  have hB : (Variant.tagged ("B".toList, "%z".toList)).Gives "%z".toList :=
    Variant.gives_tagged rfl
  have hA : (Variant.tagged ("A".toList, "%z".toList)).Gives "%z".toList :=
    Variant.gives_tagged rfl
  refine ⟨_, hcatalog, ?_, ?_⟩
  · exact (hfirst _ _).2 ⟨_, firstOf_cons.2 (.inl ⟨hB, rfl⟩), rfl⟩
  · intro h
    have hsame := hall.1 h _ (by simp) (Variant.tagged ("A".toList, "%z".toList)) (by simp) _ hB hA
    exact absurd hsame (by decide)

/-- **Not every catalog leads back from its keywords**: two variants may share one. -/
theorem shared_keyword_not_inverted :
    ¬ ∀ (d : Declaration) (catalog : List (Text × Text)), d.catalog = .ok catalog →
      ∀ entry ∈ catalog, lookUp catalog entry.2 = some entry := by
  intro h
  have hfound := h (enumeration [⟨['B'], .unit, [⟨keywordPath, some [.text ['%', 'z']]⟩]⟩,
    ⟨['A'], .unit, [⟨keywordPath, some [.text ['%', 'z']]⟩]⟩]) _ rfl (['A'], ['%', 'z']) (by decide)
  exact absurd hfound (by decide)

end Declaration

end GrammarLexer
