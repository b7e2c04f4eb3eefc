import PageExpr.Proofs.Number.NumericOrder
import PageExpr.Proofs.Value.Entries
import PageExpr.Value.Equality

/-
  Equality of values by their structure.

  A value is equal to itself unless there is `nan` among its
  parts.  Equality is symmetric and transitive in any case, so
  that it is an equivalence of the values without `nan`.  Objects
  are equal if what they have under each name is.

  Main declarations:
    * `Value.induction`
    * `Value.Part`, `Value.NanFree`
    * `Value.Matches`, `Value.matches_of_equals`
    * `Value.equals_self_iff`
    * `Value.equals_comm`
    * `Value.equals_trans`
    * `Value.equals_object_iff`
-/

namespace PageExpr

namespace Value

------------------------------------------------------------
-- Induction
------------------------------------------------------------

/-
  A property of all values, shown of a value from the items of
  an array and the fields of an object.
-/
@[elab_as_elim, induction_eliminator]
theorem induction
    {motive : Value → Prop}
    (null : motive .null)
    (boolean : ∀ b, motive (.boolean b))
    (integer : ∀ n, motive (.integer n))
    (float : ∀ x, motive (.float x))
    (string : ∀ s, motive (.string s))
    (array : ∀ items, (∀ v ∈ items, motive v) →
      motive (.array items))
    (object : ∀ fields, (∀ name v, (name, v) ∈ fields → motive v) →
      motive (.object fields))
    (bean : ∀ identity body, motive (.bean identity body))
    (v : Value) :
    motive v :=
  match v with
  | .null => null
  | .boolean b => boolean b
  | .integer n => integer n
  | .float x => float x
  | .string s => string s
  | .bean identity body => bean identity body
  | .array items =>
      array items fun v _hItem =>
        induction null boolean integer float string array object
          bean v
  | .object fields =>
      object fields fun name v _hField =>
        induction null boolean integer float string array object
          bean v
termination_by v
decreasing_by
  · have hSize := List.sizeOf_lt_of_mem _hItem
    rw [Value.array.sizeOf_spec]
    omega
  · have hSize := List.sizeOf_lt_of_mem _hField
    rw [Prod.mk.sizeOf_spec] at hSize
    rw [Value.object.sizeOf_spec]
    omega

------------------------------------------------------------
-- Parts
------------------------------------------------------------

/-
  The parts of a value: itself, and the parts of its items and
  fields.  The properties of a bean are not among them.
-/
inductive Part
    (part : Value) : Value → Prop where
  | self : Part part part
  | item
      {v : Value} {items : List Value}
      (hItem : v ∈ items)
      (hPart : Part part v) :
      Part part (.array items)
  | field
      {name : String} {v : Value} {fields : List (String × Value)}
      (hField : (name, v) ∈ fields)
      (hPart : Part part v) :
      Part part (.object fields)

/- No part of the value is `nan`. -/
def NanFree
    (v : Value) : Prop :=
  ¬ Part (.float .nan) v

/- An array is without `nan` if its items are. -/
theorem nanFree_array_iff
    {items : List Value} :
    NanFree (.array items) ↔ ∀ v ∈ items, NanFree v := by
  constructor
  · exact fun h v hItem hPart => h (.item hItem hPart)
  · intro h hPart
    cases hPart with
    | item hItem hPart => exact h _ hItem hPart

/- An object is without `nan` if its fields are. -/
theorem nanFree_object_iff
    {fields : List (String × Value)} :
    NanFree (.object fields) ↔
      ∀ name v, (name, v) ∈ fields → NanFree v := by
  constructor
  · exact fun h name v hField hPart => h (.field hField hPart)
  · intro h hPart
    cases hPart with
    | field hField hPart => exact h _ _ hField hPart

/- A floating-point number is without `nan` if it is a number. -/
theorem nanFree_float_iff
    {x : Binary64} :
    NanFree (.float x) ↔ x.isNan = false := by
  constructor
  · intro h
    cases x with
    | nan => exact absurd .self h
    | _ => rfl
  · rintro h hPart
    cases hPart
    cases h

------------------------------------------------------------
-- Collections
------------------------------------------------------------

/- Arrays are equal if their items are, one by one. -/
theorem itemsEqual_iff
    {items others : List Value} :
    itemsEqual items others = true ↔
      List.Forall₂ (fun a b => a.equals b = true) items others := by
  induction items generalizing others with
  | nil => cases others <;> simp [itemsEqual]
  | cons item rest ih =>
      cases others with
      | nil => simp [itemsEqual]
      | cons other rest' => simp [itemsEqual, ih]

/- Objects are equal if their names and values are, one by one. -/
theorem fieldsEqual_iff
    {fields others : List (String × Value)} :
    fieldsEqual fields others = true ↔
      List.Forall₂ (fun a b => a.1 = b.1 ∧ a.2.equals b.2 = true)
        fields others := by
  induction fields generalizing others with
  | nil => cases others <;> simp [fieldsEqual]
  | cons field rest ih =>
      cases others with
      | nil => simp [fieldsEqual]
      | cons other rest' => simp [fieldsEqual, ih]

/-
  Objects in order are equal if they have equal values, or none,
  under each name.
-/
theorem equals_object_iff
    {fields others : List (String × Value)}
    (hFields : Fields.Sorted fields)
    (hOthers : Fields.Sorted others) :
    (object fields).equals (.object others) = true ↔
      ∀ name, Option.Rel (fun a b => a.equals b = true)
        (Fields.get? name fields) (Fields.get? name others) := by
  rw [equals, fieldsEqual_iff,
    Fields.forall₂_iff_get? (r := fun a b => a.equals b = true)
      hFields hOthers]

/-
  What it takes that two values are equal: they are of one kind,
  and their parts are equal one by one.
-/
inductive Matches : Value → Value → Prop where
  | null : Matches .null .null
  | boolean (b : Bool) : Matches (.boolean b) (.boolean b)
  | integer (n : Int64) : Matches (.integer n) (.integer n)
  | float
      {x y : Binary64}
      (hSame : x.same y = true) :
      Matches (.float x) (.float y)
  | string (s : String) : Matches (.string s) (.string s)
  | array
      {items others : List Value}
      (hItems :
        List.Forall₂ (fun a b => a.equals b = true) items others) :
      Matches (.array items) (.array others)
  | object
      {fields others : List (String × Value)}
      (hFields :
        List.Forall₂ (fun a b => a.1 = b.1 ∧ a.2.equals b.2 = true)
          fields others) :
      Matches (.object fields) (.object others)
  | bean (identity : Identity) (body other : Bean Value) :
      Matches (.bean identity body) (.bean identity other)

/- Equal values match. -/
theorem matches_of_equals
    {a b : Value}
    (h : a.equals b = true) :
    Matches a b := by
  unfold equals at h
  split at h
  · exact .null
  · obtain rfl := beq_iff_eq.1 h
    exact .boolean _
  · obtain rfl := beq_iff_eq.1 h
    exact .integer _
  · exact .float h
  · obtain rfl := beq_iff_eq.1 h
    exact .string _
  · exact .array (itemsEqual_iff.1 h)
  · exact .object (fieldsEqual_iff.1 h)
  · obtain rfl := beq_iff_eq.1 h
    exact .bean _ _ _
  · cases h

/- Values that match are equal. -/
theorem Matches.equals
    {a b : Value}
    (h : Matches a b) :
    a.equals b = true := by
  cases h with
  | null => rfl
  | float hSame => exact hSame
  | array hItems => exact itemsEqual_iff.2 hItems
  | object hFields => exact fieldsEqual_iff.2 hFields
  | _ => exact beq_self_eq_true _

------------------------------------------------------------
-- Laws
------------------------------------------------------------

/- What has no parts but itself is without `nan`, or is `nan`. -/
theorem nanFree_of_part_eq
    {v : Value}
    (hParts : ∀ p, Part p v → p = v)
    (hNe : v ≠ .float .nan) :
    NanFree v :=
  fun hPart => hNe (hParts _ hPart).symm

/- A value equals itself just if no part of it is `nan`. -/
theorem equals_self_iff
    (v : Value) :
    v.equals v = true ↔ NanFree v := by
  induction v with
  | float x =>
      rw [equals, nanFree_float_iff, Binary64.same_iff]
      exact ⟨fun h => h.1, fun h => ⟨h, h, rfl⟩⟩
  | array items ih =>
      rw [equals, itemsEqual_iff, List.forall₂_same,
        nanFree_array_iff]
      exact forall₂_congr ih
  | object fields ih =>
      rw [equals, fieldsEqual_iff, List.forall₂_same,
        nanFree_object_iff]
      constructor
      · intro h name v hField
        exact (ih name v hField).1 (h _ hField).2
      · intro h entry hField
        exact ⟨rfl, (ih _ _ hField).2 (h _ _ hField)⟩
  | _ =>
      exact iff_of_true (by simp [equals])
        (nanFree_of_part_eq (by rintro _ ⟨⟩; rfl) nofun)

/- What holds of items one by one holds when they are exchanged. -/
theorem forall₂_flip_of_mem
    {α : Type}
    {r : α → α → Prop}
    {items others : List α}
    (hFlip : ∀ a ∈ items, ∀ b, r a b → r b a)
    (h : List.Forall₂ r items others) :
    List.Forall₂ r others items := by
  induction h with
  | nil => exact .nil
  | cons hItem _ ih =>
      exact .cons (hFlip _ List.mem_cons_self _ hItem)
        (ih fun a hMem => hFlip a (List.mem_cons_of_mem _ hMem))

/- What holds of items one by one is passed on. -/
theorem forall₂_trans_of_mem
    {α : Type}
    {r : α → α → Prop}
    {items others lasts : List α}
    (hTrans : ∀ a ∈ items, ∀ b c, r a b → r b c → r a c)
    (h : List.Forall₂ r items others)
    (h' : List.Forall₂ r others lasts) :
    List.Forall₂ r items lasts := by
  induction h generalizing lasts with
  | nil => exact h'
  | cons hItem _ ih =>
      cases h' with
      | cons hOther hRest =>
          exact .cons
            (hTrans _ List.mem_cons_self _ _ hItem hOther)
            (ih (fun a hMem =>
              hTrans a (List.mem_cons_of_mem _ hMem)) hRest)

/- If a value equals another, then the other equals it. -/
theorem equals_symm
    {a b : Value}
    (h : a.equals b = true) :
    b.equals a = true := by
  induction a generalizing b with
  | float x =>
      cases matches_of_equals h with
      | float hSame =>
          obtain ⟨hx, hy, hRank⟩ := Binary64.same_iff.1 hSame
          exact Binary64.same_iff.2 ⟨hy, hx, hRank.symm⟩
  | array items ih =>
      cases matches_of_equals h with
      | array hItems =>
          have hFlipped := forall₂_flip_of_mem
            (fun a hItem _ => ih a hItem) hItems
          exact (Matches.array hFlipped).equals
  | object fields ih =>
      cases matches_of_equals h with
      | object hFields =>
          have hFlipped := forall₂_flip_of_mem
            (fun a hField _ hEntry =>
              ⟨hEntry.1.symm, ih _ _ hField hEntry.2⟩) hFields
          exact (Matches.object hFlipped).equals
  | _ =>
      cases matches_of_equals h
      exact h

/- Equality is symmetric. -/
theorem equals_comm
    (a b : Value) :
    a.equals b = b.equals a := by
  rw [Bool.eq_iff_iff]
  exact ⟨equals_symm, equals_symm⟩

/- Equality is transitive. -/
theorem equals_trans
    {a b c : Value}
    (hab : a.equals b = true)
    (hbc : b.equals c = true) :
    a.equals c = true := by
  induction a generalizing b c with
  | float x =>
      cases matches_of_equals hab with
      | float hSame =>
          cases matches_of_equals hbc with
          | float hNext =>
              obtain ⟨hx, -, hLeft⟩ := Binary64.same_iff.1 hSame
              obtain ⟨-, hz, hRight⟩ := Binary64.same_iff.1 hNext
              exact Binary64.same_iff.2
                ⟨hx, hz, hLeft.trans hRight⟩
  | array items ih =>
      cases matches_of_equals hab with
      | array hItems =>
          cases matches_of_equals hbc with
          | array hNext =>
              have hPassed := forall₂_trans_of_mem
                (fun a hItem _ _ => ih a hItem) hItems hNext
              exact (Matches.array hPassed).equals
  | object fields ih =>
      cases matches_of_equals hab with
      | object hFields =>
          cases matches_of_equals hbc with
          | object hNext =>
              have hPassed := forall₂_trans_of_mem
                (fun a hField _ _ hEntry hOther =>
                  ⟨hEntry.1.trans hOther.1,
                    ih _ _ hField hEntry.2 hOther.2⟩) hFields hNext
              exact (Matches.object hPassed).equals
  | bean identity body =>
      cases matches_of_equals hab
      cases matches_of_equals hbc
      exact (Matches.bean identity body _).equals
  | _ =>
      cases matches_of_equals hab
      exact hbc

end Value

end PageExpr
