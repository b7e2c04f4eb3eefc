import PageExpr.Proofs.Evaluation.Attribution
import PageExpr.Proofs.Syntax.TemplateText
import PageExpr.Proofs.Value.Entries

/-
  What expressions and templates refer to.

  An expression reads its host where it refers to a variable or
  to an implicit object.  If all that it refers to means the same
  in two environments, then it is evaluated by the same steps in
  both.  This holds of the trees that come from the parser: none
  of their variables has the name of an implicit object.

  Main declarations:
    * `Reference`, `Reference.MeansSame`
    * `Expr.references`, `Template.references`
    * `ImplicitObject.resolve_eq_of_fst_eq`
    * `Expr.eval_congr`
    * `Template.FromParser`
    * `Template.evaluate_congr`
-/

namespace PageExpr

------------------------------------------------------------
-- References
------------------------------------------------------------

/- The name of a variable, or an implicit object. -/
inductive Reference where
  | plain (name : String)
  | implicit (object : ImplicitObject)
deriving DecidableEq

/-
  A reference means the same in two environments.  For a variable
  these have the same attributes of its name, and both have a
  session or none.  For an implicit object they give the same
  value, when new beans are numbered alike.
-/
def Reference.MeansSame
    (env other : Environment) : Reference → Prop
  | .plain name =>
      env.hasSession = other.hasSession ∧
        ∀ scope, env.attribute? scope name = other.attribute? scope name
  | .implicit object =>
      ∀ next,
        (object.resolve env next).1 = (object.resolve other next).1

namespace Expr

/- What a node refers to by itself. -/
def reference? : Expr → Option Reference
  | .var name => some (.plain name)
  | .implicit object => some (.implicit object)
  | _ => none

/- What the nodes of an expression refer to. -/
def references
    (e : Expr) : List Reference :=
  e.postorder.filterMap reference?

/- An access refers to what its object and its key refer to. -/
theorem references_access
    (object key : Expr) :
    (access object key).references =
      object.references ++ key.references := by
  simp [references, postorder, reference?]

/- A binary operation refers to what its operands refer to. -/
theorem references_binary
    (op : BinaryOp)
    (left right : Expr) :
    (binary op left right).references =
      left.references ++ right.references := by
  simp [references, postorder, reference?]

/- So does a unary operation. -/
theorem references_unary
    (op : UnaryOp)
    (operand : Expr) :
    (unary op operand).references = operand.references := by
  simp [references, postorder, reference?]

/- A conditional refers to what is in any of its three parts. -/
theorem references_conditional
    (condition thenBranch elseBranch : Expr) :
    (conditional condition thenBranch elseBranch).references =
      condition.references ++
        (thenBranch.references ++ elseBranch.references) := by
  simp [references, postorder, reference?]

/- No variable of a canonical tree is named as an implicit object. -/
theorem Canonical.ne_of_mem_references
    {e : Expr}
    {name : String}
    (h : e.Canonical)
    (hName : .plain name ∈ e.references)
    (object : ImplicitObject) :
    object.name ≠ name := by
  rcases List.mem_filterMap.1 hName with ⟨node, hNode, hReference⟩
  have hCanonical := h.of_mem_postorder hNode
  cases node with
  | var other =>
      cases hReference
      exact hCanonical.2.2 object
  | _ => cases hReference

end Expr

------------------------------------------------------------
-- Meanings
------------------------------------------------------------

namespace ImplicitObject

/- As many beans are made for cookies as there are new names. -/
theorem snd_foldl_addCookie
    (cookies : List Cookie)
    (found : Fields Value × Nat) :
    (cookies.foldl addCookie found).2 + found.1.length =
      found.2 + (cookies.foldl addCookie found).1.length := by
  induction cookies generalizing found with
  | nil => rfl
  | cons cookie rest ih =>
      have hRest := ih (addCookie found cookie)
      rw [List.foldl_cons]
      cases hOld : found.1.get? cookie.name with
      | some value =>
          have hStep : addCookie found cookie = found := by
            rw [addCookie, hOld]
          rwa [hStep] at hRest ⊢
      | none =>
          have hLength :
              (addCookie found cookie).1.length =
                found.1.length + 1 := by
            rw [addCookie, hOld]
            exact Fields.length_insert _ hOld
          have hNext : (addCookie found cookie).2 = found.2 + 1 := by
            rw [addCookie, hOld]
          omega

/- The value of an implicit object tells how many beans it has. -/
theorem resolve_eq_of_fst_eq
    {object : ImplicitObject}
    {env other : Environment}
    {next : Nat}
    (h : (object.resolve env next).1 =
      (object.resolve other next).1) :
    object.resolve env next = object.resolve other next := by
  apply Prod.ext h
  cases object with
  | cookie =>
      have hNumbers := snd_foldl_addCookie env.cookies ([], next)
      have hOthers := snd_foldl_addCookie other.cookies ([], next)
      have hFields := congrArg List.length (Value.object.inj h)
      change (env.cookies.foldl addCookie ([], next)).2 =
        (other.cookies.foldl addCookie ([], next)).2
      change (env.cookies.foldl addCookie ([], next)).1.length =
        (other.cookies.foldl addCookie ([], next)).1.length at hFields
      simp only [List.length_nil] at hNumbers hOthers
      omega
  | _ => rfl

end ImplicitObject

namespace Reference.MeansSame

variable {env other : Environment}

/- An implicit object is resolved alike. -/
theorem resolve_eq
    {object : ImplicitObject}
    (h : MeansSame env other (.implicit object)) :
    object.resolve env = object.resolve other :=
  funext fun next => ImplicitObject.resolve_eq_of_fst_eq (h next)

/- So is a name that belongs to no implicit object. -/
theorem resolve?_eq
    {name : String}
    (h : MeansSame env other (.plain name))
    (hName : ∀ object : ImplicitObject, object.name ≠ name) :
    env.resolve? name = other.resolve? name := by
  have hPlain : ImplicitObject.ofName? name = none := by
    apply Option.eq_none_iff_forall_ne_some.2
    intro object hObject
    exact hName object (ImplicitObject.ofName?_eq_some_iff.1 hObject)
  rcases h with ⟨hSession, hAttribute⟩
  funext next
  simp only [Environment.resolve?, hPlain,
    Environment.findInScopes?, hSession, hAttribute]

end Reference.MeansSame

------------------------------------------------------------
-- Expressions
------------------------------------------------------------

/- The steps of an evaluation depend on what is referred to. -/
theorem Expr.eval_congr
    {env other : Environment}
    {e : Expr}
    (mode : Mode)
    (hCanonical : e.Canonical)
    (hSame : ∀ reference ∈ e.references,
      reference.MeansSame env other) :
    e.eval mode env = e.eval mode other := by
  induction e with
  | literal value => rfl
  | implicit object =>
      have hObject := hSame (.implicit object) List.mem_cons_self
      rw [eval, eval, hObject.resolve_eq]
  | var name =>
      have hName := hSame (.plain name) List.mem_cons_self
      rw [eval, eval, hName.resolve?_eq hCanonical.2.2]
  | access object key ihObject ihKey =>
      rw [references_access, List.forall_mem_append] at hSame
      simp only [eval, ihObject hCanonical.1 hSame.1,
        ihKey hCanonical.2 hSame.2]
  | binary op left right ihLeft ihRight =>
      rw [references_binary, List.forall_mem_append] at hSame
      simp only [eval, ihLeft hCanonical.1 hSame.1,
        ihRight hCanonical.2 hSame.2]
  | unary op operand ih =>
      rw [references_unary] at hSame
      simp only [eval, ih hCanonical hSame]
  | conditional condition thenBranch elseBranch
      ihCondition ihThen ihElse =>
      rw [references_conditional, List.forall_mem_append,
        List.forall_mem_append] at hSame
      rcases hCanonical with ⟨hCondition, hThen, hElse⟩
      simp only [eval, ihCondition hCondition hSame.1,
        ihThen hThen hSame.2.1, ihElse hElse hSame.2.2]

------------------------------------------------------------
-- Templates
------------------------------------------------------------

namespace Template

/- The expression in a part. -/
def Part.tree? : Part → Option Expr
  | .text _ => none
  | .expression expr => some expr

/- The expressions in a template. -/
def trees
    (template : Template) : List Expr :=
  template.partList.filterMap Part.tree?

/- What the expressions in a template refer to. -/
def references
    (template : Template) : List Reference :=
  template.trees.flatMap Expr.references

/- Do all expressions in a template come from the parser? -/
def FromParser
    (template : Template) : Prop :=
  ∀ tree ∈ template.trees, ∃ source, Expr.parse source = .ok tree

/- Those in a template that has been parsed do. -/
theorem fromParser_of_parse
    {source : String}
    {template : Template}
    (h : parse source = .ok template) :
    template.FromParser := by
  rcases normal_of_parse h with ⟨-, ⟨pieces, hPieces, -⟩, -⟩
  intro tree hTree
  rcases List.mem_filterMap.1 hTree with ⟨part, hPart, hHas⟩
  cases part with
  | text content => cases hHas
  | expression expr =>
      cases hHas
      rcases List.forall₂_iff_get.1 hPieces with ⟨hLength, hRead⟩
      rcases List.get_of_mem hPart with ⟨index, hIndex⟩
      have hPiece := hRead index.1 index.2 (hLength ▸ index.2)
      rw [hIndex] at hPiece
      rcases hPiece with ⟨body, -, hParse⟩
      exact ⟨body, hParse⟩

/- No variable in such a template is named as an implicit object. -/
theorem FromParser.ne_of_mem_references
    {template : Template}
    {name : String}
    (h : template.FromParser)
    (hName : .plain name ∈ template.references)
    (object : ImplicitObject) :
    object.name ≠ name := by
  rcases List.mem_flatMap.1 hName with ⟨tree, hTree, hReference⟩
  rcases h tree hTree with ⟨source, hParse⟩
  have hCanonical := Expr.canonical_of_parse hParse
  exact hCanonical.ne_of_mem_references hReference object

/- Parts depend on the expressions among them. -/
theorem render_congr
    {env other : Environment}
    {mode : Mode}
    {parts : List Part}
    (h : ∀ tree ∈ parts.filterMap Part.tree?,
      tree.eval mode env = tree.eval mode other) :
    render mode env parts = render mode other parts := by
  induction parts with
  | nil => rfl
  | cons part rest ih =>
      cases part with
      | text content => rw [render, render, ih h]
      | expression expr =>
          rcases List.forall_mem_cons.1 h with ⟨hExpr, hRest⟩
          rw [render, render, hExpr, ih hRest]

/- A template has one outcome where its references mean the same. -/
theorem evaluate_congr
    {env other : Environment}
    {template : Template}
    (mode : Mode)
    (h : template.FromParser)
    (hSame : ∀ reference ∈ template.references,
      reference.MeansSame env other) :
    template.evaluate mode env = template.evaluate mode other := by
  have hTrees : ∀ tree ∈ template.trees,
      tree.eval mode env = tree.eval mode other := by
    intro tree hTree
    rcases h tree hTree with ⟨source, hParse⟩
    apply Expr.eval_congr mode (Expr.canonical_of_parse hParse)
    intro reference hReference
    exact hSame reference
      (List.mem_flatMap.2 ⟨tree, hTree, hReference⟩)
  rw [evaluate, evaluate]
  cases template with
  | literal content => rfl
  | expression expr => rw [eval, eval, hTrees expr List.mem_cons_self]
  | composite parts =>
      have hRender :
          render mode env parts = render mode other parts :=
        render_congr hTrees
      rw [eval, eval, hRender]

end Template

end PageExpr
