import PageExpr.Host.PageContext
import PageExpr.Proofs.Evaluation.Visits
import PageExpr.Proofs.Syntax.CanonicalText

/-
  The diagnostics of an expression belong to its nodes.

  Each diagnostic is reported of a node of its own, in the order
  of the visits, and of a kind that suits the node.  The value
  of a node that reports one is the default for such nodes.  If
  the expression has been parsed, then the text of a diagnostic
  can be parsed, and gives the node that the diagnostic is about.

  Main declarations:
    * `Expr.canReport`
    * `Visit.Faithful`
    * `Expr.Evaluates.faithful`
    * `Visit.sublist_diagnostics`
    * `Expr.Canonical.of_mem_postorder`
    * `Expr.diagnostics_of_parse`
-/

namespace PageExpr

------------------------------------------------------------
-- Nodes
------------------------------------------------------------

namespace Expr

/- Can a node report failures of a kind? -/
def canReport : Expr → FailureKind → Bool
  | .access .., .coercion => true
  | .access .., .propertyAccess => true
  | .binary (.ordering _) .., .coercion => true
  | .binary (.arithmetic _) .., .coercion => true
  | .binary (.arithmetic .divide) .., .arithmetic => true
  | .binary (.arithmetic .modulo) .., .arithmetic => true
  | .unary .negate _, .coercion => true
  | _, _ => false

/- Is the node arithmetic, or a minus sign before its operand? -/
def isNumeric : Expr → Bool
  | .binary (.arithmetic _) .. => true
  | .unary .negate _ => true
  | _ => false

/- Does the node compare, or form a truth value otherwise? -/
def isTruth : Expr → Bool
  | .binary (.equality _) .. => true
  | .binary (.ordering _) .. => true
  | .binary (.logical _) .. => true
  | .unary .not _ => true
  | .unary .empty _ => true
  | _ => false

/- Does the node compare the order of its operands? -/
def isOrdering : Expr → Bool
  | .binary (.ordering _) .. => true
  | _ => false

/- Is the node an access? -/
def isAccess : Expr → Bool
  | .access .. => true
  | _ => false

end Expr

/-
  A visit as it should be.  Failures are of a kind that suits the
  node.  A numeric node is null if it reports one, and a number
  if not.  A comparison that reports one does not hold, and an
  access that reports one is null.  Nodes for truth values have
  one.
-/
structure Visit.Faithful
    (visit : Visit) : Prop where
  kind : ∀ failure, visit.failure? = some failure →
    visit.node.canReport failure.kind = true
  numeric : visit.node.isNumeric = true →
    (visit.value = .null ↔ visit.failure? ≠ none) ∧
      (visit.failure? = none → visit.value.isNumber = true)
  ordering : visit.node.isOrdering = true →
    visit.failure? ≠ none → visit.value = .boolean false
  access : visit.node.isAccess = true →
    visit.failure? ≠ none → visit.value = .null
  truth : visit.node.isTruth = true →
    ∃ b, visit.value = .boolean b

------------------------------------------------------------
-- Operations
------------------------------------------------------------

/- The value of a number is a number. -/
theorem Value.isNumber_ofNumber
    (n : Number) :
    (Value.ofNumber n).isNumber = true := by
  cases n <;> rfl

/- A number is not null. -/
theorem Value.ne_null_of_isNumber
    {v : Value}
    (h : v.isNumber = true) :
    v ≠ .null := by
  rintro rfl
  cases h

/- Arithmetic gives numbers. -/
theorem Arithmetic.isNumber_of_apply
    {op : ArithmeticOp}
    {a b v : Value}
    (h : apply op a b = .ok v) :
    v.isNumber = true := by
  unfold apply at h
  split at h
  · cases h
  · cases h
  · split at h <;> cases h
    exact Value.isNumber_ofNumber _

/- Only a division reports failures that are arithmetic. -/
theorem Arithmetic.canReport_of_apply
    {op : ArithmeticOp}
    {a b : Value}
    {failure : Failure}
    (left right : Expr)
    (h : apply op a b = .error failure) :
    (Expr.binary (.arithmetic op) left right).canReport
      failure.kind = true := by
  unfold apply at h
  split at h
  · cases h
    rfl
  · cases h
    rfl
  · split at h
    · rename_i hZero
      cases h
      unfold zeroDivisor? at hZero
      split at hZero
      · cases op <;> cases hZero <;> rfl
      · cases hZero
    · cases h

/- A minus sign gives numbers. -/
theorem Arithmetic.isNumber_of_negate
    {a v : Value}
    (h : negate a = .ok v) :
    v.isNumber = true := by
  unfold negate at h
  split at h <;> cases h
  exact Value.isNumber_ofNumber _

/- A minus sign reports that its operand is no number. -/
theorem Arithmetic.kind_of_negate
    {a : Value}
    {failure : Failure}
    (h : negate a = .error failure) :
    failure.kind = .coercion := by
  unfold negate at h
  split at h <;> cases h
  rfl

/- A comparison gives truth values. -/
theorem Comparison.exists_of_apply
    {op : OrderingOp}
    {a b v : Value}
    (h : apply op a b = .ok v) :
    ∃ t, v = .boolean t := by
  unfold apply at h
  split at h
  · cases h
    exact ⟨_, rfl⟩
  · cases hOrder : order op a b with
    | error failure =>
        rw [hOrder] at h
        cases h
    | ok result =>
        rw [hOrder] at h
        cases h
        exact ⟨_, rfl⟩

/- A comparison reports that its operands have no order. -/
theorem Comparison.kind_of_apply
    {op : OrderingOp}
    {a b : Value}
    {failure : Failure}
    (h : apply op a b = .error failure) :
    failure.kind = .coercion := by
  unfold apply at h
  split at h
  · cases h
  · cases hOrder : order op a b with
    | ok result =>
        rw [hOrder] at h
        cases h
    | error other =>
        rw [hOrder] at h
        cases h
        unfold order at hOrder
        split at hOrder
        · cases hOrder
        · split at hOrder
          · split at hOrder <;> cases hOrder <;> rfl
          · cases hOrder
            rfl

/- An access reports a bad index or that there is no property. -/
theorem Value.canReport_of_access
    {owner name : Value}
    {fresh : Identity}
    {failure : Failure}
    (object key : Expr)
    (h : owner.access name fresh = .error failure) :
    (Expr.access object key).canReport failure.kind = true := by
  cases owner with
  | object fields => cases h
  | array items =>
      simp only [Value.access] at h
      split at h
      · cases h
        rfl
      · split at h <;> cases h
  | bean identity body =>
      simp only [Value.access] at h
      split at h <;> cases h <;> rfl
  | _ =>
      cases h
      rfl

------------------------------------------------------------
-- Faithful Visits
------------------------------------------------------------

namespace Visit

/- A node with a result that suits it. -/
theorem faithful_passed
    {node : Expr}
    {value : Value}
    (hNumeric : node.isNumeric = true → value.isNumber = true)
    (hTruth : node.isTruth = true → ∃ b, value = .boolean b) :
    Faithful ⟨node, value, none⟩ where
  kind := fun _ h => by cases h
  numeric := by
    intro hNode
    have hNumber := hNumeric hNode
    refine ⟨?_, fun _ => hNumber⟩
    constructor
    · intro hNull
      exact absurd hNull (Value.ne_null_of_isNumber hNumber)
    · exact fun h => absurd rfl h
  ordering := fun _ h => absurd rfl h
  access := fun _ h => absurd rfl h
  truth := hTruth

/- A node that is neither numeric nor for truth values. -/
theorem faithful_plain
    {node : Expr}
    (value : Value)
    (hNumeric : node.isNumeric = false)
    (hTruth : node.isTruth = false) :
    Faithful ⟨node, value, none⟩ := by
  apply faithful_passed
  · intro h
    rw [hNumeric] at h
    cases h
  · intro h
    rw [hTruth] at h
    cases h

/- A node for truth values that has one. -/
theorem faithful_boolean
    {node : Expr}
    (b : Bool)
    (hNumeric : node.isNumeric = false) :
    Faithful ⟨node, .boolean b, none⟩ := by
  apply faithful_passed
  · intro h
    rw [hNumeric] at h
    cases h
  · exact fun _ => ⟨b, rfl⟩

/- A node that reports a failure and is null for it. -/
theorem faithful_failed
    {node : Expr}
    {failure : Failure}
    (hKind : node.canReport failure.kind = true)
    (hTruth : node.isTruth = false) :
    Faithful ⟨node, .null, some failure⟩ where
  kind := by
    rintro _ ⟨⟩
    exact hKind
  numeric := fun _ => by simp
  ordering := by
    intro hNode
    cases node with
    | binary op left right =>
        cases op with
        | ordering order => cases hTruth
        | _ => cases hNode
    | _ => cases hNode
  access := fun _ _ => rfl
  truth := fun h => by simp [hTruth] at h

/- An access that has been settled is as it should be. -/
theorem faithful_access
    (object key : Expr)
    (owner name : Value)
    (fresh : Identity) :
    Faithful
      (settled (.access object key) .null
        (owner.access name fresh)) := by
  cases hResult : owner.access name fresh with
  | ok value => exact faithful_plain value rfl rfl
  | error failure =>
      exact faithful_failed
        (Value.canReport_of_access object key hResult) rfl

/- A comparison that has been settled is as it should be. -/
theorem faithful_ordering
    (op : OrderingOp)
    (left right : Expr)
    (a b : Value) :
    Faithful
      (settled (.binary (.ordering op) left right)
        (.boolean false) (Comparison.apply op a b)) := by
  cases hResult : Comparison.apply op a b with
  | ok value =>
      exact faithful_passed (fun h => by cases h)
        (fun _ => Comparison.exists_of_apply hResult)
  | error failure =>
      refine ⟨?_, (fun h => by cases h), fun _ _ => rfl,
        (fun h => by cases h), fun _ => ⟨false, rfl⟩⟩
      rintro _ ⟨⟩
      rw [Comparison.kind_of_apply hResult]
      rfl

/- An operation that has been settled is as it should be. -/
theorem faithful_binary
    (op : BinaryOp)
    (left right : Expr)
    (a b : Value) :
    Faithful
      (settled (.binary op left right) op.default
        (op.apply a b)) := by
  cases op with
  | equality op =>
      cases op with
      | equal => exact faithful_boolean _ rfl
      | notEqual => exact faithful_boolean _ rfl
  | ordering op => exact faithful_ordering op left right a b
  | arithmetic op =>
      change Faithful (settled _ _ (Arithmetic.apply op a b))
      cases hResult : Arithmetic.apply op a b with
      | ok value =>
          exact faithful_passed
            (fun _ => Arithmetic.isNumber_of_apply hResult)
            (fun h => by cases h)
      | error failure =>
          exact faithful_failed
            (Arithmetic.canReport_of_apply left right hResult) rfl
  | logical op => exact faithful_boolean _ rfl

/- So is an operation on one operand. -/
theorem faithful_unary
    (op : UnaryOp)
    (operand : Expr)
    (a : Value) :
    Faithful (settled (.unary op operand) .null (op.apply a)) := by
  cases op with
  | negate =>
      change Faithful (settled _ _ (Arithmetic.negate a))
      cases hResult : Arithmetic.negate a with
      | ok value =>
          exact faithful_passed
            (fun _ => Arithmetic.isNumber_of_negate hResult)
            (fun h => by cases h)
      | error failure =>
          refine faithful_failed ?_ rfl
          rw [Arithmetic.kind_of_negate hResult]
          rfl
  | not => exact faithful_boolean _ rfl
  | empty => exact faithful_boolean _ rfl

/- The reports of visits are about their nodes, in order. -/
theorem sublist_diagnostics
    (visits : List Visit) :
    ((diagnostics visits).map Diagnostic.expression).Sublist
      (visits.map node) := by
  induction visits with
  | nil => exact .refl _
  | cons visit rest ih =>
      rw [diagnostics, List.filterMap_cons, diagnostic?]
      cases visit.failure? with
      | none => exact ih.cons _
      | some failure => exact ih.cons_cons _

end Visit

namespace Expr

/- Every visit is as it should be. -/
theorem Evaluates.faithful
    {env : Environment}
    {e : Expr}
    {free next : Nat}
    {value : Value}
    {visits : List Visit}
    (h : Evaluates env e free value next visits) :
    ∀ visit ∈ visits, visit.Faithful := by
  induction h with
  | literal value free =>
      rw [List.forall_mem_singleton]
      exact Visit.faithful_plain _ rfl rfl
  | implicit object free =>
      rw [List.forall_mem_singleton]
      exact Visit.faithful_plain _ rfl rfl
  | var name free =>
      rw [List.forall_mem_singleton]
      exact Visit.faithful_plain _ rfl rfl
  | accessOfNull hObject hNull ih =>
      rw [List.forall_mem_append, List.forall_mem_singleton]
      exact ⟨ih, Visit.faithful_plain _ rfl rfl⟩
  | accessByNull hObject hOwner hKey hNull ihObject ihKey =>
      rw [List.forall_mem_append, List.forall_mem_append,
        List.forall_mem_singleton]
      exact ⟨⟨ihObject, ihKey⟩, Visit.faithful_plain _ rfl rfl⟩
  | access hObject hOwner hKey hName hVisit ihObject ihKey =>
      rw [List.forall_mem_append, List.forall_mem_append,
        List.forall_mem_singleton, hVisit]
      exact ⟨⟨ihObject, ihKey⟩, Visit.faithful_access _ _ _ _ _⟩
  | @decided op left right _ _ a _ hLeft hDecided ih =>
      have hNumeric :
          (Expr.binary op left right).isNumeric = false := by
        -- Only the logical operators can be decided early.
        cases op with
        | logical op => rfl
        | _ => cases hDecided
      rw [List.forall_mem_append, List.forall_mem_singleton]
      exact ⟨ih, Visit.faithful_boolean _ hNumeric⟩
  | binary hLeft hOpen hRight hVisit ihLeft ihRight =>
      rw [List.forall_mem_append, List.forall_mem_append,
        List.forall_mem_singleton, hVisit]
      exact ⟨⟨ihLeft, ihRight⟩, Visit.faithful_binary _ _ _ _ _⟩
  | unary hOperand hVisit ih =>
      rw [List.forall_mem_append, List.forall_mem_singleton, hVisit]
      exact ⟨ih, Visit.faithful_unary _ _ _⟩
  | conditional hCondition hBranch ihCondition ihBranch =>
      rw [List.forall_mem_append, List.forall_mem_append,
        List.forall_mem_singleton]
      exact ⟨⟨ihCondition, ihBranch⟩,
        Visit.faithful_plain _ rfl rfl⟩

------------------------------------------------------------
-- Texts of Nodes
------------------------------------------------------------

/- The nodes of a canonical expression are canonical. -/
theorem Canonical.of_mem_postorder
    {e node : Expr}
    (h : e.Canonical)
    (hNode : node ∈ e.postorder) :
    node.Canonical := by
  induction e with
  | literal value =>
      rw [List.mem_singleton.1 hNode]
      exact h
  | implicit object =>
      rw [List.mem_singleton.1 hNode]
      exact h
  | var name =>
      rw [List.mem_singleton.1 hNode]
      exact h
  | access object key ihObject ihKey =>
      simp only [postorder, List.mem_append, List.mem_singleton]
        at hNode
      rcases hNode with (hNode | hNode) | rfl
      · exact ihObject h.1 hNode
      · exact ihKey h.2 hNode
      · exact h
  | binary op left right ihLeft ihRight =>
      simp only [postorder, List.mem_append, List.mem_singleton]
        at hNode
      rcases hNode with (hNode | hNode) | rfl
      · exact ihLeft h.1 hNode
      · exact ihRight h.2 hNode
      · exact h
  | unary op operand ih =>
      simp only [postorder, List.mem_append, List.mem_singleton]
        at hNode
      rcases hNode with hNode | rfl
      · exact ih h hNode
      · exact h
  | conditional condition thenBranch elseBranch ihCondition ihThen
      ihElse =>
      simp only [postorder, List.mem_append, List.mem_singleton]
        at hNode
      rcases hNode with (hNode | hNode | hNode) | rfl
      · exact ihCondition h.1 hNode
      · exact ihThen h.2.1 hNode
      · exact ihElse h.2.2 hNode
      · exact h

/-
  The lenient evaluation of a parsed expression visits nodes as
  the rules say, and its value and diagnostics are those of the
  visits.  The nodes that it visits, and among them the nodes of
  its diagnostics, stand in their order behind their operands.
  The text of a diagnostic can be parsed, and gives its node.
  Each node has a value and a failure that suit it.
-/
theorem diagnostics_of_parse
    (source : String)
    (e : Expr)
    (h : parse source = .ok e)
    (env : Environment) :
    (∃ value next visits, Evaluates env e 0 value next visits) ∧
    ∀ value next visits, Evaluates env e 0 value next visits →
      (e.evaluate .lenient env).result =
        .ok ⟨value, Visit.diagnostics visits⟩ ∧
      (visits.map Visit.node).Sublist e.postorder ∧
      ((Visit.diagnostics visits).map Diagnostic.expression).Sublist
        (visits.map Visit.node) ∧
      (∀ d ∈ Visit.diagnostics visits,
        d.expression ∈ e.postorder ∧
          parse d.expression.text = .ok d.expression) ∧
      ∀ visit ∈ visits, visit.Faithful := by
  refine ⟨exists_evaluates env e 0, ?_⟩
  intro value next visits hEvaluates
  have hNodes := hEvaluates.sublist_postorder
  have hReports := Visit.sublist_diagnostics visits
  refine ⟨hEvaluates.result, hNodes, hReports, ?_,
    hEvaluates.faithful⟩
  intro d hMem
  have hNode : d.expression ∈ e.postorder :=
    (hReports.trans hNodes).subset
      (List.mem_map_of_mem hMem)
  have hCanonical := canonical_of_parse h
  exact ⟨hNode, parse_text (hCanonical.of_mem_postorder hNode)⟩

/- The right side is skipped, and the left side has no number. -/
theorem diagnostics_of_parse_skipped :
    ∃ value d,
      ((Expr.binary (.logical .and)
          (.unary .negate (.literal (.boolean true)))
          (.unary .negate (.literal (.boolean false)))).evaluate
        .lenient (PageContext.environment {})).result =
          .ok ⟨value, [d]⟩ ∧
      value = .boolean false ∧
      d.expression.text = "-true" ∧
      parse "-true" =
        .ok (.unary .negate (.literal (.boolean true))) := by
  have hParse :
      parse "(-true && -false)" = .ok
        (.binary (.logical .and)
          (.unary .negate (.literal (.boolean true)))
          (.unary .negate (.literal (.boolean false)))) :=
    parse_text (e := .binary (.logical .and)
      (.unary .negate (.literal (.boolean true)))
      (.unary .negate (.literal (.boolean false))))
      ⟨trivial, trivial⟩
  have hOperand :
      Evaluates (PageContext.environment {})
        (.unary .negate (.literal (.boolean true))) 0 .null 0 _ :=
    .unary (.literal (.boolean true) 0) rfl
  have hVisits :
      Evaluates (PageContext.environment {})
        (.binary (.logical .and)
          (.unary .negate (.literal (.boolean true)))
          (.unary .negate (.literal (.boolean false))))
        0 (.boolean false) 0 _ :=
    .decided hOperand rfl
  have hFaithful := (diagnostics_of_parse _ _ hParse _).2 _ _ _ hVisits
  exact ⟨_, _, hFaithful.1, rfl, rfl,
    (hFaithful.2.2.2.1 _ (.head _)).2⟩

end Expr

end PageExpr
