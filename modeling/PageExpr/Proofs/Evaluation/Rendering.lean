import PageExpr.Proofs.Evaluation.StrictMode
import PageExpr.Proofs.Syntax.TemplateParts

/-
  What templates show, part by part.

  In lenient mode each part has a text and diagnostics of its
  own, which do not depend on the parts before it.  A template
  shows the texts of its parts and collects their diagnostics,
  so templates one behind the other show what each of them
  shows.

  Main declarations:
    * `Expr.shown`
    * `Template.Part.output`, `Template.Part.diagnostics`
    * `Template.run_render`
    * `Template.evaluate_lenient`
    * `Template.evaluate_append`
-/

namespace PageExpr

------------------------------------------------------------
-- Parts
------------------------------------------------------------

/- The lenient evaluation, which does not fail. -/
def Expr.shown
    (env : Environment)
    (expr : Expr) : Evaluation :=
  match (expr.evaluate .lenient env).result with
  | .ok evaluation => evaluation
  | .error d => ⟨.null, [d]⟩

/- A lenient run gives what is shown. -/
theorem Expr.run_eval
    (env : Environment)
    (expr : Expr) :
    ∃ next, ∀ before : Progress, before.nextBean = 0 →
      (expr.eval .lenient env).run before =
        (.ok (expr.shown env).value,
          before.later next (expr.shown env).diagnostics) := by
  rcases expr.agrees_eval env 0 with ⟨value, next, found, hRuns⟩
  have hShown : expr.shown env = ⟨value, found⟩ := by
    rw [shown, evaluate, Evaluating.outcome,
      (hRuns .start rfl).1]
    rfl
  refine ⟨next, fun before hFree => ?_⟩
  rw [hShown]
  exact (hRuns before hFree).1

namespace Template

/- The text of a part. -/
def Part.output
    (env : Environment) : Part → String
  | .text content => content
  | .expression expr => (expr.shown env).output

/- What goes wrong in a part. -/
def Part.diagnostics
    (env : Environment) : Part → List Diagnostic
  | .text _ => []
  | .expression expr => (expr.shown env).diagnostics

/- The texts of parts, one behind the other. -/
def output
    (env : Environment)
    (parts : List Part) : String :=
  String.join (parts.map (Part.output env))

/- What goes wrong in parts, one behind the other. -/
def diagnostics
    (env : Environment)
    (parts : List Part) : List Diagnostic :=
  parts.flatMap (Part.diagnostics env)

/- The first part is shown first. -/
theorem output_cons
    (env : Environment)
    (part : Part)
    (parts : List Part) :
    output env (part :: parts) =
      part.output env ++ output env parts := by
  simp [output]

/- The first part goes wrong first. -/
theorem diagnostics_cons
    (env : Environment)
    (part : Part)
    (parts : List Part) :
    diagnostics env (part :: parts) =
      part.diagnostics env ++ diagnostics env parts := by
  simp [diagnostics]

/- Joined parts show what they show apart. -/
theorem output_joinParts
    (env : Environment)
    (ps qs : List Part) :
    output env (joinParts ps qs) =
      output env ps ++ output env qs := by
  fun_induction joinParts ps qs with
  | case1 others => simp [output]
  | case2 content more others =>
      simp [output, Part.output, String.append_assoc]
  | case3 part parts others _ ih =>
      rw [output_cons, output_cons, ih, String.append_assoc]

/- Joined parts go wrong where they go wrong apart. -/
theorem diagnostics_joinParts
    (env : Environment)
    (ps qs : List Part) :
    diagnostics env (joinParts ps qs) =
      diagnostics env ps ++ diagnostics env qs := by
  fun_induction joinParts ps qs with
  | case1 others => rfl
  | case2 content more others => rfl
  | case3 part parts others _ ih =>
      rw [diagnostics_cons, diagnostics_cons, ih,
        List.append_assoc]

------------------------------------------------------------
-- Templates
------------------------------------------------------------

/- Parts show their texts and report their diagnostics. -/
theorem run_render
    (env : Environment)
    (parts : List Part)
    (before : Progress)
    (hFree : before.nextBean = 0) :
    (render .lenient env parts).run before =
      (.ok (output env parts),
        before.later 0 (diagnostics env parts)) := by
  induction parts generalizing before with
  | nil =>
      rw [diagnostics, List.flatMap_nil, ← hFree,
        before.later_nil]
      rfl
  | cons part rest ih =>
      cases part with
      | text content =>
          rw [render, Evaluating.run_bind_ok (ih before hFree),
            output_cons]
          rfl
      | expression expr =>
          rcases expr.run_eval env with ⟨next, hEval⟩
          have hText :
              (do
                let value ← expr.eval .lenient env
                return value.text : Evaluating String).run before =
                (.ok (expr.shown env).output,
                  before.later next (expr.shown env).diagnostics) :=
            Evaluating.run_bind_ok (hEval before hFree)
          have hKept := Evaluating.run_forText_ok hText
          have hRest :=
            ih (before.later 0 (expr.shown env).diagnostics) rfl
          rw [Progress.later_later] at hRest
          rw [hFree] at hKept
          rw [render, Evaluating.run_bind_ok hKept, output_cons,
            diagnostics_cons]
          exact Evaluating.run_bind_ok hRest

/- A template shows its parts in lenient mode. -/
theorem evaluate_lenient
    (env : Environment)
    (template : Template) :
    ∃ evaluation,
      (template.evaluate .lenient env).result = .ok evaluation ∧
        evaluation.output = output env template.partList ∧
        evaluation.diagnostics =
          diagnostics env template.partList := by
  cases template with
  | literal content =>
      refine ⟨⟨.string content, []⟩, rfl, ?_, ?_⟩
      · rw [partList]
        split
        · rename_i hEmpty
          rw [hEmpty]
          rfl
        · simp [output, Part.output, Evaluation.output, Value.text]
      · rw [partList]
        split <;> rfl
  | expression expr =>
      rcases expr.run_eval env with ⟨next, hEval⟩
      refine ⟨expr.shown env, ?_, ?_, ?_⟩
      · rw [evaluate, eval, Evaluating.outcome, hEval .start rfl]
        rfl
      · simp [partList, output, Part.output]
      · simp [partList, diagnostics, Part.diagnostics]
  | composite parts =>
      have hRender := run_render env parts .start rfl
      refine ⟨⟨.string (output env parts), diagnostics env parts⟩,
        ?_, ?_, rfl⟩
      · rw [evaluate, eval, Evaluating.outcome,
          Evaluating.run_bind_ok hRender]
        rfl
      · simp [partList, Evaluation.output, Value.text]

/-
  Two texts one behind the other, where no opening brace comes
  about between them.  If both are templates, then so is the
  whole text; it has the parts of both, shows what both show
  and reports what both report.  An error in the second text is
  an error in the whole text, further on by the length of the
  first.
-/
theorem evaluate_append
    (s t : String)
    (u : Template)
    (hFirst : parse s = .ok u)
    (hApart : Apart s.toList t.toList) :
    (∀ v, parse t = .ok v →
      ∃ w, parse (s ++ t) = .ok w ∧
        w = ofParts (joinParts u.partList v.partList) ∧
        w.partList = joinParts u.partList v.partList ∧
        ∀ env : Environment, ∃ a b c,
          (u.evaluate .lenient env).result = .ok a ∧
          (v.evaluate .lenient env).result = .ok b ∧
          (w.evaluate .lenient env).result = .ok c ∧
          c.output = a.output ++ b.output ∧
          c.diagnostics = a.diagnostics ++ b.diagnostics) ∧
    (∀ e, parse t = .error e →
      parse (s ++ t) = .error (e.shift s.length) ∧
        (e.shift s.length).position = s.length + e.position) := by
  have hAppend := parse_append hFirst hApart
  constructor
  · intro v hSecond
    rw [hSecond] at hAppend
    have hParts :
        (ofParts (joinParts u.partList v.partList)).partList =
          joinParts u.partList v.partList := by
      rcases exists_joined_of_parse hFirst with ⟨us, -, hUs⟩
      rcases exists_joined_of_parse hSecond with ⟨vs, -, hVs⟩
      rw [hUs, hVs, ← joined_append]
      exact partList_ofParts (joined_ne_empty _)
    refine ⟨_, hAppend, rfl, hParts, ?_⟩
    intro env
    rcases evaluate_lenient env u with ⟨a, ha, hOutputA, hFoundA⟩
    rcases evaluate_lenient env v with ⟨b, hb, hOutputB, hFoundB⟩
    rcases
        evaluate_lenient env
          (ofParts (joinParts u.partList v.partList)) with
      ⟨c, hc, hOutputC, hFoundC⟩
    refine ⟨a, b, c, ha, hb, hc, ?_, ?_⟩
    · rw [hOutputA, hOutputB, hOutputC, hParts, output_joinParts]
    · rw [hFoundA, hFoundB, hFoundC, hParts, diagnostics_joinParts]
  · intro e hSecond
    rw [hSecond] at hAppend
    exact ⟨hAppend, e.position_shift s.length⟩

/- A dollar sign in front of an expression and of a fragment. -/
theorem evaluate_append_dollar :
    (∃ w, parse "a$$\x7b1\x7d" = .ok w ∧
      w.partList =
        [.text "a$", .expression (.literal (.integer 1))]) ∧
    parse "a$$\x7b" = .error (.unterminated 2) := by
  have hFirst : parse "a$" = .ok (.literal "a$") := rfl
  have hSecond :
      parse "$\x7b1\x7d" =
        .ok (.expression (.literal (.integer 1))) := rfl
  have hFragment :
      parse "$\x7b" = .error (.unterminated 0) := rfl
  have hApart : Apart "a$".toList "$\x7b1\x7d".toList := by
    unfold Apart
    decide
  have hApartFragment : Apart "a$".toList "$\x7b".toList := by
    unfold Apart
    decide
  constructor
  · rcases (evaluate_append _ _ _ hFirst hApart).1 _ hSecond with
      ⟨w, hParse, -, hParts, -⟩
    exact ⟨w, hParse, hParts⟩
  · exact ((evaluate_append _ _ _ hFirst hApartFragment).2 _
      hFragment).1

end Template

end PageExpr
