import GrammarLexer.Layout

/-!
# How a file is dealt

Dealing never fails, and at every moment the lines dealt so far are told by the layout: the lines
that were dropped, then for each stage that was entered the delimiter and the lines after it.

* `Dealt done layout` -- the layout is what dealing these lines comes to, stage by stage;
* `Dealt.step`, `Dealt.deal` -- one more line, and all the lines of a file;
* `exists_layOut` -- **every file has a layout**, and it is that of its lines;
* `Dealt.infix_declarations`, `Dealt.infix_rules` -- the lines of a section stand together in the
  file.
-/

namespace GrammarLexer

/-- None of these lines ends the stage. -/
def Stage.Keeps (stage : Stage) (lines : List Line) : Prop :=
  ∀ line ∈ lines, stage.endsAt line.text = false

/-- `Dealt done layout`: the lines `done` make up the layout. Each stage but the first one begins
after the delimiter that ended the stage before it. -/
inductive Dealt : List Line → Layout → Prop where
  | initial {junk : List Line} : Stage.initial.Keeps junk → Dealt junk ⟨.initial, .empty⟩
  | prologue {junk body : List Line} {mark : Line} : Dealt junk ⟨.initial, .empty⟩ →
      Stage.initial.endsAt mark.text = true → Stage.prologue.Keeps body →
      Dealt (junk ++ mark :: body) ⟨.prologue, ⟨⟨[], mark.number⟩ :: body, [], [], []⟩⟩
  | declarations {done prologue body : List Line} {mark : Line} :
      Dealt done ⟨.prologue, ⟨prologue, [], [], []⟩⟩ → Stage.prologue.endsAt mark.text = true →
      Stage.declarations.Keeps body →
      Dealt (done ++ mark :: body)
        ⟨.declarations, ⟨prologue ++ [⟨[], mark.number⟩], body, [], []⟩⟩
  | rules {done prologue declarations body : List Line} {mark : Line} :
      Dealt done ⟨.declarations, ⟨prologue, declarations, [], []⟩⟩ →
      Stage.declarations.endsAt mark.text = true → Stage.rules.Keeps body →
      Dealt (done ++ mark :: body) ⟨.rules, ⟨prologue, declarations, body, []⟩⟩
  | epilogue {done prologue declarations rules body : List Line} {mark : Line} :
      Dealt done ⟨.rules, ⟨prologue, declarations, rules, []⟩⟩ →
      Stage.rules.endsAt mark.text = true →
      Dealt (done ++ mark :: body) ⟨.epilogue, ⟨prologue, declarations, rules, body⟩⟩

theorem Stage.keeps_nil (stage : Stage) : stage.Keeps [] := by simp [Keeps]

theorem Stage.Keeps.append {stage : Stage} {lines : List Line} {line : Line}
    (h : stage.Keeps lines) (hline : ¬ stage.endsAt line.text = true) :
    stage.Keeps (lines ++ [line]) := by
  intro l hl
  rcases List.mem_append.1 hl with hl | hl
  · exact h l hl
  · rw [List.mem_singleton.1 hl]
    exact Bool.eq_false_iff.2 hline

namespace Dealt

/-- **One more line**: it is kept in its stage, or it ends the stage. -/
theorem step {done : List Line} {layout : Layout} (h : Dealt done layout) (line : Line) :
    ∃ next, layout.step line = .ok next ∧ Dealt (done ++ [line]) next := by
  by_cases hend : layout.stage.endsAt line.text = true
  · rw [Layout.step, if_pos hend]
    cases h with
    | initial hjunk =>
      exact ⟨_, rfl, .prologue (.initial hjunk) hend (Stage.keeps_nil _)⟩
    | prologue hjunk hmark hbody =>
      exact ⟨_, rfl, .declarations (.prologue hjunk hmark hbody) hend (Stage.keeps_nil _)⟩
    | declarations hdone hmark hbody =>
      exact ⟨_, rfl, .rules (.declarations hdone hmark hbody) hend (Stage.keeps_nil _)⟩
    | rules hdone hmark hbody => exact ⟨_, rfl, .epilogue (.rules hdone hmark hbody) hend⟩
    | epilogue => cases hend
  · rw [Layout.step, if_neg hend]
    cases h with
    | initial hjunk => exact ⟨_, rfl, .initial (hjunk.append hend)⟩
    | prologue hjunk hmark hbody =>
      rw [List.append_assoc]
      exact ⟨_, rfl, .prologue hjunk hmark (hbody.append hend)⟩
    | declarations hdone hmark hbody =>
      rw [List.append_assoc]
      exact ⟨_, rfl, .declarations hdone hmark (hbody.append hend)⟩
    | rules hdone hmark hbody =>
      rw [List.append_assoc]
      exact ⟨_, rfl, .rules hdone hmark (hbody.append hend)⟩
    | epilogue hdone hmark =>
      rw [List.append_assoc]
      exact ⟨_, rfl, .epilogue hdone hmark⟩

theorem deal {done : List Line} {layout : Layout} (h : Dealt done layout) (lines : List Line) :
    ∃ final, layout.deal lines = .ok final ∧ Dealt (done ++ lines) final := by
  induction lines generalizing done layout with
  | nil => exact ⟨layout, rfl, by rwa [List.append_nil]⟩
  | cons line more ih =>
    obtain ⟨next, hstep, hnext⟩ := h.step line
    obtain ⟨final, hdeal, hfinal⟩ := ih hnext
    refine ⟨final, ?_, ?_⟩
    · rw [Layout.deal, hstep]
      exact hdeal
    · rwa [List.append_assoc, List.singleton_append] at hfinal

/-! ## 2. Sections stand together -/

/-- The declarations are consecutive lines of the file. -/
theorem infix_declarations {done : List Line} {layout : Layout} (h : Dealt done layout) :
    layout.sections.declarations <:+: done := by
  induction h with
  | initial | prologue => exact List.nil_infix
  | @declarations done _ _ mark => exact ⟨done ++ [mark], [], by simp⟩
  | rules _ _ _ ih => exact ih.trans (List.infix_append' [] _ _)
  | epilogue _ _ ih => exact ih.trans (List.infix_append' [] _ _)

/-- The rules are consecutive lines of the file. -/
theorem infix_rules {done : List Line} {layout : Layout} (h : Dealt done layout) :
    layout.sections.rules <:+: done := by
  induction h with
  | initial | prologue | declarations => exact List.nil_infix
  | @rules done _ _ _ mark => exact ⟨done ++ [mark], [], by simp⟩
  | epilogue _ _ ih => exact ih.trans (List.infix_append' [] _ _)

end Dealt

/-- **Every file has a layout**, and it is the one that its lines make up. -/
theorem exists_layOut (text : Text) :
    ∃ layout, layOut text = .ok layout ∧ Dealt text.numberedLines layout :=
  (Dealt.initial (Stage.keeps_nil _)).deal text.numberedLines

end GrammarLexer
