import PageExpr.Proofs.Evaluation.OrderCoherence
import PageExpr.Proofs.Value.StructuralEquality

/-
  Equality as the operator sees it, beside equality by structure.

  The operator does not depend on which operand comes first, and
  agrees with the structure on equal operands.  Both kinds of
  equality hold of a value and itself just if no part of it is
  `nan`, and on such values the structure gives an equivalence.

  Main declarations:
    * `Comparison.loosely_comm`
    * `Comparison.loosely_of_equals`
    * `Comparison.loosely_self`
    * `Comparison.loosely_null_iff`
    * `Comparison.laws_of_equality`
-/

namespace PageExpr

namespace Comparison

------------------------------------------------------------
-- Laws
------------------------------------------------------------

/- Only null is equal to null. -/
theorem loosely_null_iff
    (v : Value) :
    loosely .null v = true ↔ v = .null := by
  cases v with
  | null => exact iff_of_true rfl rfl
  | _ => exact iff_of_false nofun nofun

/- Null is equal to null only. -/
theorem loosely_comm_null
    (v : Value) :
    loosely v .null = loosely .null v := by
  cases v <;> rfl

/-
  Beside a number equality is that of numbers, or that of the
  structure, and both are symmetric.
-/
theorem loosely_comm_of_isNumber
    {a b : Value}
    (hLeft : a.isNull = false)
    (hRight : b.isNull = false)
    (hNumber : a.isNumber = true ∨ b.isNumber = true) :
    loosely a b = loosely b a := by
  rw [loosely_of_isNumber hLeft hRight hNumber,
    loosely_of_isNumber hRight hLeft hNumber.symm]
  cases a.toNumber with
  | error e => cases b.toNumber <;> exact Value.equals_comm a b
  | ok x =>
      cases b.toNumber with
      | error e => exact Value.equals_comm a b
      | ok y =>
          simp only
          rw [← Number.compare?_swap x y]
          cases x.compare? y with
          | none => rfl
          | some order => cases order <;> rfl

/- Which operand comes first makes no difference. -/
theorem loosely_comm
    (a b : Value) :
    loosely a b = loosely b a := by
  cases hLeft : a.isNull with
  | true =>
      cases a with
      | null => exact (loosely_comm_null b).symm
      | _ => cases hLeft
  | false =>
      cases hRight : b.isNull with
      | true =>
          cases b with
          | null => exact loosely_comm_null a
          | _ => cases hRight
      | false =>
          by_cases hNumber : a.isNumber = true ∨ b.isNumber = true
          · exact loosely_comm_of_isNumber hLeft hRight hNumber
          · -- A truth value beside a string is read off the string
            -- on either side; all else is left to the structure.
            cases a <;> cases b <;>
              first
              | rfl
              | exact Value.equals_comm _ _
              | exact absurd (.inl rfl) hNumber
              | exact absurd (.inr rfl) hNumber

/- A value is equal to itself as far as its structure is. -/
theorem loosely_self
    (v : Value) :
    loosely v v = v.equals v := by
  cases v with
  | integer n =>
      have hSame := Number.compare?_self (a := .integer n) rfl
      have hEquals : (Value.integer n).equals (.integer n) = true :=
        beq_self_eq_true n
      rw [loosely_of_isNumber rfl rfl (.inl rfl), hEquals]
      exact beq_iff_eq.2 hSame
  | _ => rfl

/- Values of the same structure are equal for the operator. -/
theorem loosely_of_equals
    {a b : Value}
    (h : a.equals b = true) :
    loosely a b = true := by
  cases Value.matches_of_equals h with
  | integer n =>
      rw [loosely_self]
      exact h
  | _ => exact h

/-
  The laws of equality.  The operator is symmetric, and agrees
  with the structure on equal operands.  A value equals itself in
  either sense just if no part of it is `nan`; beans are compared
  by their identity.  On values without `nan` the structure gives
  an equivalence.  Objects are equal if they have equal values, or
  none, under each name, in whatever order these have been put in.
  Null equals null only.
-/
theorem laws_of_equality :
    (∀ a b : Value, loosely a b = loosely b a) ∧
    (∀ a b : Value, a.equals b = true → loosely a b = true) ∧
    (∀ v : Value,
      (loosely v v = true ↔ v.NanFree) ∧
        (v.equals v = true ↔ v.NanFree)) ∧
    (∀ (i j : Identity) (body other : Bean Value),
      (Value.bean i body).equals (.bean j other) = (i == j)) ∧
    (Equivalence fun a b : { v : Value // v.NanFree } =>
      a.val.equals b.val = true) ∧
    (∀ fields others : Fields Value,
      Fields.Sorted fields → Fields.Sorted others →
        ((Value.object fields).equals (.object others) = true ↔
          ∀ name, Option.Rel (fun a b => a.equals b = true)
            (fields.get? name) (others.get? name))) ∧
    (∀ entries others : List (String × Value),
      entries.Perm others → Fields.Distinct entries →
        (∀ v : Value,
          (Value.object (Fields.ofList entries)).equals v =
            (Value.object (Fields.ofList others)).equals v) ∧
        ((∀ name v, (name, v) ∈ entries → v.NanFree) →
          (Value.object (Fields.ofList entries)).equals
            (.object (Fields.ofList others)) = true)) ∧
    (∀ v : Value,
      (loosely .null v = true ↔ v = .null) ∧
        (loosely v .null = true ↔ v = .null)) := by
  refine ⟨loosely_comm, fun _ _ => loosely_of_equals, ?_,
    fun _ _ _ _ => rfl, ⟨?_, ?_, ?_⟩,
    fun _ _ => Value.equals_object_iff, ?_, ?_⟩
  · intro v
    rw [loosely_self]
    exact ⟨v.equals_self_iff, v.equals_self_iff⟩
  · exact fun v => v.val.equals_self_iff.2 v.property
  · exact fun h => Value.equals_symm h
  · exact fun h h' => Value.equals_trans h h'
  · intro entries others hPerm hDistinct
    rw [Fields.ofList_perm hPerm hDistinct]
    refine ⟨fun _ => rfl, fun hNan => ?_⟩
    rw [Value.equals_self_iff, Value.nanFree_object_iff]
    intro name v hField
    have hOthers : Fields.Distinct others :=
      (hPerm.map Prod.fst).nodup_iff.1 hDistinct
    have hFound :=
      (Fields.get?_eq_some_iff
        (Fields.sorted_ofList others).distinct).2 hField
    rw [Fields.get?_ofList hOthers,
      Fields.get?_eq_some_iff hOthers] at hFound
    exact hNan name v (hPerm.mem_iff.2 hFound)
  · intro v
    rw [loosely_comm v]
    exact ⟨loosely_null_iff v, loosely_null_iff v⟩

/-
  An object is the same in either order of its entries, and equal
  to one with the other zero.
-/
theorem laws_of_equality_reordered :
    List.Perm
        [("b", Value.null), ("a", .float (.zero true))]
        [("a", .float (.zero true)), ("b", .null)] ∧
      Fields.Distinct
        [("b", Value.null), ("a", .float (.zero true))] ∧
      Value.NanFree (.float (.zero true)) ∧
      (Value.object (Fields.ofList
          [("b", .null), ("a", .float (.zero true))])).equals
        (.object (Fields.ofList
          [("a", .float (.zero true)), ("b", .null)])) = true ∧
      (Value.object (Fields.ofList
          [("b", .null), ("a", .float (.zero true))])).equals
        (.object [("a", .float (.zero false)), ("b", .null)]) =
          true ∧
      Option.Rel (fun a b => Value.equals a b = true)
        (some (.float (.zero true))) (some (.float (.zero false))) ∧
      loosely
        (.object (Fields.ofList
          [("b", .null), ("a", .float (.zero true))]))
        (.object [("a", .float (.zero false)), ("b", .null)]) =
          true := by
  rcases laws_of_equality with
    ⟨-, hLoosely, hSelf, -, -, hNames, hOrder, -⟩
  have hPerm :
      List.Perm
        [("b", Value.null), ("a", .float (.zero true))]
        [("a", .float (.zero true)), ("b", .null)] :=
    .swap _ _ _
  have hDistinct :
      Fields.Distinct
        [("b", Value.null), ("a", .float (.zero true))] := by
    unfold Fields.Distinct
    decide
  have hZeros :
      (Value.object (Fields.ofList
          [("b", .null), ("a", .float (.zero true))])).equals
        (.object [("a", .float (.zero false)), ("b", .null)]) =
          true := by
    decide +kernel
  have hSorted :
      Fields.Sorted
        [("a", Value.float (.zero false)), ("b", .null)] :=
    Fields.sorted_ofList
      [("a", Value.float (.zero false)), ("b", .null)]
  refine ⟨hPerm, hDistinct, (hSelf _).2.1 (by decide +kernel),
    (hOrder _ _ hPerm hDistinct).2 ?_, hZeros,
    (hNames _ _ (Fields.sorted_ofList _) hSorted).1 hZeros "a",
    hLoosely _ _ hZeros⟩
  rintro name v hField
  rw [← (hSelf v).2]
  simp only [List.mem_cons, List.not_mem_nil, or_false,
    Prod.mk.injEq] at hField
  rcases hField with ⟨-, rfl⟩ | ⟨-, rfl⟩ <;> decide +kernel

end Comparison

end PageExpr
