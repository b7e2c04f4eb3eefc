import PageExpr.Proofs.Evaluation.StrictMode

/-
  The nodes of an expression that an evaluation visits.

  A node is visited behind its operands, which are visited from
  left to right as far as they are needed.  A visit gives the
  node a value, and may report one failure.  The rules below say
  which nodes are visited, and the lenient evaluation follows
  them: it gives the value of the root, and its reports are the
  failures of the visits.

  Main declarations:
    * `Visit`, `Visit.settled`, `Visit.diagnostic?`
    * `Expr.Evaluates`
    * `Expr.exists_evaluates`
    * `Expr.Evaluates.run`
    * `Expr.Evaluates.result`
    * `Expr.postorder`
    * `Expr.Evaluates.sublist_postorder`
-/

namespace PageExpr

------------------------------------------------------------
-- Visits
------------------------------------------------------------

/- A node, its value, and the failure that it reports, if any. -/
structure Visit where
  node : Expr
  value : Value
  failure? : Option Failure

namespace Visit

/- A node that has the result of an operation, or a default. -/
def settled
    (node : Expr)
    (default : Value) : Except Failure Value → Visit
  | .ok value => ⟨node, value, none⟩
  | .error failure => ⟨node, default, some failure⟩

/- What is reported of a visit. -/
def diagnostic?
    (visit : Visit) : Option Diagnostic :=
  visit.failure?.map fun failure => ⟨failure, visit.node⟩

/- What is reported of visits, one behind the other. -/
def diagnostics
    (visits : List Visit) : List Diagnostic :=
  visits.filterMap diagnostic?

/- The reports of visits one behind the other. -/
theorem diagnostics_append
    (visits others : List Visit) :
    diagnostics (visits ++ others) =
      diagnostics visits ++ diagnostics others :=
  List.filterMap_append

/- Nothing is reported of a node that has a result. -/
theorem diagnostics_passed
    (node : Expr)
    (value : Value) :
    diagnostics [⟨node, value, none⟩] = [] :=
  rfl

end Visit

------------------------------------------------------------
-- Operations
------------------------------------------------------------

namespace BinaryOp

/- Is the result known from the left operand alone? -/
def isDecidedBy
    (left : Value) : BinaryOp → Bool
  | .logical .and => !left.toBoolean
  | .logical .or => left.toBoolean
  | _ => false

/- The result on two operands that are both needed. -/
def apply
    (op : BinaryOp)
    (left right : Value) : Except Failure Value :=
  match op with
  | .equality .equal => .ok (.boolean (Comparison.loosely left right))
  | .equality .notEqual =>
      .ok (.boolean !Comparison.loosely left right)
  | .ordering order => Comparison.apply order left right
  | .arithmetic operation => Arithmetic.apply operation left right
  | .logical _ => .ok (.boolean right.toBoolean)

/- What stands for a result that there is not. -/
def default : BinaryOp → Value
  | .ordering _ => .boolean false
  | _ => .null

end BinaryOp

------------------------------------------------------------
-- Evaluation by Rules
------------------------------------------------------------

namespace Expr

/-
  The value of an expression, and the visits on the way to it.
  The numbers are the next free numbers of beans before and
  behind.
-/
inductive Evaluates
    (env : Environment) :
    Expr → Nat → Value → Nat → List Visit → Prop where
  | literal (value : Value) (free : Nat) :
      Evaluates env (.literal value) free value free
        [⟨.literal value, value, none⟩]
  | implicit (object : ImplicitObject) (free : Nat) :
      Evaluates env (.implicit object) free
        (object.resolve env free).1 (object.resolve env free).2
        [⟨.implicit object, (object.resolve env free).1, none⟩]
  | var (name : String) (free : Nat) :
      Evaluates env (.var name) free
        ((env.resolve? name free).1.getD .null)
        (env.resolve? name free).2
        [⟨.var name, (env.resolve? name free).1.getD .null, none⟩]
  /- Of null the key is not looked at. -/
  | accessOfNull
      {object key : Expr} {free next : Nat} {owner : Value}
      {visits : List Visit}
      (hObject : Evaluates env object free owner next visits)
      (hNull : owner.isNull = true) :
      Evaluates env (.access object key) free .null next
        (visits ++ [⟨.access object key, .null, none⟩])
  | accessByNull
      {object key : Expr} {free next last : Nat}
      {owner name : Value} {visits others : List Visit}
      (hObject : Evaluates env object free owner next visits)
      (hOwner : owner.isNull = false)
      (hKey : Evaluates env key next name last others)
      (hNull : name.isNull = true) :
      Evaluates env (.access object key) free .null last
        (visits ++ others ++ [⟨.access object key, .null, none⟩])
  | access
      {object key : Expr} {free next last : Nat}
      {owner name : Value} {visits others : List Visit}
      {visit : Visit}
      (hObject : Evaluates env object free owner next visits)
      (hOwner : owner.isNull = false)
      (hKey : Evaluates env key next name last others)
      (hName : name.isNull = false)
      (hVisit : visit =
        .settled (.access object key) .null
          (owner.access name (.made last))) :
      Evaluates env (.access object key) free visit.value (last + 1)
        (visits ++ others ++ [visit])
  /- Of an operation that is decided the right side is skipped. -/
  | decided
      {op : BinaryOp} {left right : Expr} {free next : Nat}
      {a : Value} {visits : List Visit}
      (hLeft : Evaluates env left free a next visits)
      (hDecided : op.isDecidedBy a = true) :
      Evaluates env (.binary op left right) free
        (.boolean a.toBoolean) next
        (visits ++
          [⟨.binary op left right, .boolean a.toBoolean, none⟩])
  | binary
      {op : BinaryOp} {left right : Expr} {free next last : Nat}
      {a b : Value} {visits others : List Visit} {visit : Visit}
      (hLeft : Evaluates env left free a next visits)
      (hOpen : op.isDecidedBy a = false)
      (hRight : Evaluates env right next b last others)
      (hVisit : visit =
        .settled (.binary op left right) op.default (op.apply a b)) :
      Evaluates env (.binary op left right) free visit.value last
        (visits ++ others ++ [visit])
  | unary
      {op : UnaryOp} {operand : Expr} {free next : Nat}
      {a : Value} {visits : List Visit} {visit : Visit}
      (hOperand : Evaluates env operand free a next visits)
      (hVisit : visit =
        .settled (.unary op operand) .null (op.apply a)) :
      Evaluates env (.unary op operand) free visit.value next
        (visits ++ [visit])
  /- Only one of the branches is looked at. -/
  | conditional
      {condition thenBranch elseBranch : Expr}
      {free next last : Nat} {chosen value : Value}
      {visits others : List Visit}
      (hCondition :
        Evaluates env condition free chosen next visits)
      (hBranch :
        Evaluates env
          (if chosen.toBoolean then thenBranch else elseBranch)
          next value last others) :
      Evaluates env
        (.conditional condition thenBranch elseBranch)
        free value last
        (visits ++ others ++
          [⟨.conditional condition thenBranch elseBranch,
            value, none⟩])

/- Every expression has a value. -/
theorem exists_evaluates
    (env : Environment)
    (e : Expr)
    (free : Nat) :
    ∃ value next visits, Evaluates env e free value next visits := by
  induction e generalizing free with
  | literal value => exact ⟨_, _, _, .literal value free⟩
  | implicit object => exact ⟨_, _, _, .implicit object free⟩
  | var name => exact ⟨_, _, _, .var name free⟩
  | access object key ihObject ihKey =>
      rcases ihObject free with ⟨owner, next, visits, hObject⟩
      cases hOwner : owner.isNull with
      | true => exact ⟨_, _, _, .accessOfNull hObject hOwner⟩
      | false =>
          rcases ihKey next with ⟨name, last, others, hKey⟩
          cases hName : name.isNull with
          | true =>
              exact ⟨_, _, _,
                .accessByNull hObject hOwner hKey hName⟩
          | false =>
              exact ⟨_, _, _,
                .access hObject hOwner hKey hName rfl⟩
  | binary op left right ihLeft ihRight =>
      rcases ihLeft free with ⟨a, next, visits, hLeft⟩
      cases hDecided : op.isDecidedBy a with
      | true => exact ⟨_, _, _, .decided hLeft hDecided⟩
      | false =>
          rcases ihRight next with ⟨b, last, others, hRight⟩
          exact ⟨_, _, _, .binary hLeft hDecided hRight rfl⟩
  | unary op operand ih =>
      rcases ih free with ⟨a, next, visits, hOperand⟩
      exact ⟨_, _, _, .unary hOperand rfl⟩
  | conditional condition thenBranch elseBranch ihCondition ihThen
      ihElse =>
      rcases ihCondition free with
        ⟨chosen, next, visits, hCondition⟩
      have hBranch :
          ∃ value last others,
            Evaluates env
              (if chosen.toBoolean then thenBranch else elseBranch)
              next value last others := by
        split
        · exact ihThen next
        · exact ihElse next
      rcases hBranch with ⟨value, last, others, hBranch⟩
      exact ⟨_, _, _, .conditional hCondition hBranch⟩

------------------------------------------------------------
-- Lenient Evaluation
------------------------------------------------------------

/- Operations on two operands differ in few places only. -/
theorem eval_binary
    (mode : Mode)
    (env : Environment)
    (op : BinaryOp)
    (left right : Expr) :
    (binary op left right).eval mode env =
      (do
        let a ← left.eval mode env
        if op.isDecidedBy a then return .boolean a.toBoolean
        else
          let b ← right.eval mode env
          Evaluating.settle mode (.binary op left right) op.default
            (op.apply a b)) := by
  rw [eval]
  refine bind_congr fun a => ?_
  cases op with
  | equality op => cases op <;> rfl
  | ordering op => rfl
  | arithmetic op => rfl
  | logical op =>
      cases op <;> cases hLeft : a.toBoolean <;>
        simp only [BinaryOp.isDecidedBy, hLeft] <;> rfl

/- A settled result is logged and reported as its visit. -/
theorem run_settle
    (node : Expr)
    (default : Value)
    (result : Except Failure Value)
    (before : Progress) :
    (Evaluating.settle .lenient node default result).run before =
      (.ok (Visit.settled node default result).value,
        before.later before.nextBean
          (Visit.diagnostics [.settled node default result])) := by
  cases result with
  | ok value =>
      rw [Visit.settled, Visit.diagnostics_passed,
        before.later_nil]
      rfl
  | error failure => rfl

/- The lenient run follows the rules. -/
theorem Evaluates.run
    {env : Environment}
    {e : Expr}
    {free next : Nat}
    {value : Value}
    {visits : List Visit}
    (h : Evaluates env e free value next visits)
    {before : Progress}
    (hFree : before.nextBean = free) :
    (e.eval .lenient env).run before =
      (.ok value,
        before.later next (Visit.diagnostics visits)) := by
  induction h generalizing before with
  | literal value free =>
      subst hFree
      rw [Visit.diagnostics_passed, before.later_nil]
      rfl
  | implicit object free =>
      subst hFree
      rw [Visit.diagnostics_passed, before.later_nil]
      rfl
  | var name free =>
      subst hFree
      rw [Visit.diagnostics_passed, before.later_nil]
      rfl
  | accessOfNull hObject hNull ih =>
      rw [eval, Evaluating.run_bind_ok (ih hFree), if_pos hNull,
        Visit.diagnostics_append, Visit.diagnostics_passed,
        List.append_nil]
      rfl
  | accessByNull hObject hOwner hKey hNull ihObject ihKey =>
      rw [eval, Evaluating.run_bind_ok (ihObject hFree),
        if_neg (Bool.eq_false_iff.1 hOwner),
        Evaluating.run_bind_ok (ihKey rfl), if_pos hNull,
        Visit.diagnostics_append, Visit.diagnostics_append,
        Visit.diagnostics_passed, List.append_nil,
        Progress.later_later]
      rfl
  | @access object key _ _ last owner name visits others _ _ hOwner _
      hName hVisit ihObject ihKey =>
      have hFresh :
          ∀ found,
            (Evaluating.making fun next =>
                (Identity.made next, next + 1)).run
                  (before.later last found) =
              (.ok (.made last), before.later (last + 1) found) :=
        fun _ => rfl
      rw [eval, Evaluating.run_bind_ok (ihObject hFree),
        if_neg (Bool.eq_false_iff.1 hOwner),
        Evaluating.run_bind_ok (ihKey rfl), Progress.later_later,
        if_neg (Bool.eq_false_iff.1 hName),
        Evaluating.run_bind_ok (hFresh _), run_settle, hVisit,
        Visit.diagnostics_append, Visit.diagnostics_append,
        Progress.later_later]
      rfl
  | decided hLeft hDecided ih =>
      rw [eval_binary, Evaluating.run_bind_ok (ih hFree),
        if_pos hDecided, Visit.diagnostics_append,
        Visit.diagnostics_passed, List.append_nil]
      rfl
  | binary hLeft hOpen hRight hVisit ihLeft ihRight =>
      rw [eval_binary, Evaluating.run_bind_ok (ihLeft hFree),
        if_neg (Bool.eq_false_iff.1 hOpen),
        Evaluating.run_bind_ok (ihRight rfl), Progress.later_later,
        run_settle, hVisit, Visit.diagnostics_append,
        Visit.diagnostics_append, Progress.later_later]
      rfl
  | unary hOperand hVisit ih =>
      rw [eval, Evaluating.run_bind_ok (ih hFree), run_settle,
        hVisit, Visit.diagnostics_append, Progress.later_later]
      rfl
  | conditional hCondition hBranch ihCondition ihBranch =>
      rw [eval, Evaluating.run_bind_ok (ihCondition hFree),
        Visit.diagnostics_append, Visit.diagnostics_append,
        Visit.diagnostics_passed, List.append_nil,
        ← Progress.later_later _ _ _ _ _, ← ihBranch rfl]
      split <;> rfl

/- So it gives the value, and reports what the visits report. -/
theorem Evaluates.result
    {env : Environment}
    {e : Expr}
    {next : Nat}
    {value : Value}
    {visits : List Visit}
    (h : Evaluates env e 0 value next visits) :
    (e.evaluate .lenient env).result =
      .ok ⟨value, Visit.diagnostics visits⟩ := by
  rw [evaluate, Evaluating.outcome, h.run rfl]
  rfl

------------------------------------------------------------
-- The Order of Visits
------------------------------------------------------------

/-
  The nodes of an expression: operands from left to right, and
  then the node itself.
-/
def postorder : Expr → List Expr
  | .access object key =>
      object.postorder ++ key.postorder ++ [.access object key]
  | .binary op left right =>
      left.postorder ++ right.postorder ++ [.binary op left right]
  | .unary op operand => operand.postorder ++ [.unary op operand]
  | .conditional condition thenBranch elseBranch =>
      condition.postorder ++
        (thenBranch.postorder ++ elseBranch.postorder) ++
        [.conditional condition thenBranch elseBranch]
  | e => [e]

/- The settled node is the one that was to be settled. -/
theorem node_settled
    (node : Expr)
    (default : Value)
    (result : Except Failure Value) :
    (Visit.settled node default result).node = node := by
  cases result <;> rfl

/- The visits are visits of nodes, each at most once, in order. -/
theorem Evaluates.sublist_postorder
    {env : Environment}
    {e : Expr}
    {free next : Nat}
    {value : Value}
    {visits : List Visit}
    (h : Evaluates env e free value next visits) :
    (visits.map Visit.node).Sublist e.postorder := by
  induction h with
  | literal value free => exact .refl _
  | implicit object free => exact .refl _
  | var name free => exact .refl _
  | accessOfNull hObject hNull ih =>
      rw [List.map_append]
      exact (ih.trans (List.sublist_append_left _ _)).append (.refl _)
  | accessByNull hObject hOwner hKey hNull ihObject ihKey =>
      rw [List.map_append, List.map_append]
      exact (ihObject.append ihKey).append (.refl _)
  | access hObject hOwner hKey hName hVisit ihObject ihKey =>
      rw [List.map_append, List.map_append, hVisit,
        List.map_singleton, node_settled]
      exact (ihObject.append ihKey).append (.refl _)
  | decided hLeft hDecided ih =>
      rw [List.map_append]
      exact (ih.trans (List.sublist_append_left _ _)).append (.refl _)
  | binary hLeft hOpen hRight hVisit ihLeft ihRight =>
      rw [List.map_append, List.map_append, hVisit,
        List.map_singleton, node_settled]
      exact (ihLeft.append ihRight).append (.refl _)
  | unary hOperand hVisit ih =>
      rw [List.map_append, hVisit, List.map_singleton, node_settled]
      exact ih.append (.refl _)
  | conditional hCondition hBranch ihCondition ihBranch =>
      rw [List.map_append, List.map_append]
      refine (ihCondition.append (ihBranch.trans ?_)).append (.refl _)
      split
      · exact List.sublist_append_left _ _
      · exact List.sublist_append_right _ _

end Expr

end PageExpr
