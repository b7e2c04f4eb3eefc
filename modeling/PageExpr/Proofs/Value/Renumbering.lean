import PageExpr.Proofs.Value.StructuralEquality
import PageExpr.Value.Coercion

/-
  Values with other numbers for the beans that have been made.

  Adding to the numbers of beans tells apart the same beans as
  before, and nothing else about a value depends on them: neither
  its text nor what it is taken for.

  Main declarations:
    * `Identity.renumber`
    * `Value.renumber`
    * `Value.Hosted`
    * `Value.equals_renumber`
    * `Value.text_renumber`
    * `Value.toNumber_renumber`
-/

namespace PageExpr

------------------------------------------------------------
-- Other Numbers
------------------------------------------------------------

/- A bean that has been made gets a number further on. -/
def Identity.renumber
    (k : Nat) : Identity → Identity
  | .made n => .made (n + k)
  | identity => identity

/- Different beans get different numbers. -/
theorem Identity.renumber_inj
    {k : Nat}
    {a b : Identity} :
    a.renumber k = b.renumber k ↔ a = b := by
  cases a <;> cases b <;> simp [renumber]

namespace Value

mutual

/-
  The beans in a value get other numbers, and so do the beans
  that are read from the beans of the host.
-/
def renumber
    (k : Nat) : Value → Value
  | .null => .null
  | .boolean b => .boolean b
  | .integer n => .integer n
  | .float x => .float x
  | .string s => .string s
  | .array items => .array (renumberItems k items)
  | .object fields => .object (renumberFields k fields)
  | .bean identity body =>
      .bean (identity.renumber k) (renumberBody k body)

/- The same for items. -/
def renumberItems
    (k : Nat) : List Value → List Value
  | [] => []
  | item :: rest => renumber k item :: renumberItems k rest

/- The same for fields. -/
def renumberFields
    (k : Nat) : List (String × Value) → List (String × Value)
  | [] => []
  | (name, value) :: rest =>
      (name, renumber k value) :: renumberFields k rest

/- The same for what a bean is. -/
def renumberBody
    (k : Nat) : Bean Value → Bean Value
  | .host typeName read =>
      .host typeName fun name => renumberResult k (read name)
  | .cookie c => .cookie c
  | .request info => .request info
  | .session id => .session id
  | .pageContext info sessionId => .pageContext info sessionId

/- The same for what is read of a bean. -/
def renumberResult
    (k : Nat) :
    Except PropertyError Value → Except PropertyError Value
  | .ok value => .ok (renumber k value)
  | .error e => .error e

end

/- Values that no evaluation has made keep their numbers. -/
def Hosted
    (v : Value) : Prop :=
  ∀ k, v.renumber k = v

variable (k : Nat)

/- Items get their numbers one by one. -/
theorem renumberItems_eq
    (items : List Value) :
    renumberItems k items = items.map (renumber k) := by
  induction items with
  | nil => rfl
  | cons item rest ih => rw [renumberItems, ih, List.map_cons]

/- Fields get their numbers one by one. -/
theorem renumberFields_eq
    (fields : Fields Value) :
    renumberFields k fields = fields.mapValues (renumber k) := by
  induction fields with
  | nil => rfl
  | cons field rest ih =>
      rw [renumberFields, ih, Fields.mapValues, Fields.mapValues,
        List.map_cons]

------------------------------------------------------------
-- Tests
------------------------------------------------------------

/- A bean stays what it is. -/
theorem typeName_renumberBody
    (body : Bean Value) :
    (renumberBody k body).typeName = body.typeName := by
  cases body <;> rfl

@[simp]
theorem typeName_renumber
    (v : Value) :
    (v.renumber k).typeName = v.typeName := by
  cases v with
  | bean identity body => exact typeName_renumberBody k body
  | _ => rfl

@[simp]
theorem isNull_renumber
    (v : Value) :
    (v.renumber k).isNull = v.isNull := by
  cases v <;> rfl

@[simp]
theorem isNumber_renumber
    (v : Value) :
    (v.renumber k).isNumber = v.isNumber := by
  cases v <;> rfl

@[simp]
theorem isEmpty_renumber
    (v : Value) :
    (v.renumber k).isEmpty = v.isEmpty := by
  cases v with
  | array items => cases items <;> rfl
  | object fields =>
      cases fields <;> rfl
  | _ => rfl

@[simp]
theorem toBoolean_renumber
    (v : Value) :
    (v.renumber k).toBoolean = v.toBoolean := by
  cases v <;> rfl

@[simp]
theorem toNumber_renumber
    (v : Value) :
    (v.renumber k).toNumber = v.toNumber := by
  cases v with
  | bean identity body =>
      simp only [renumber, toNumber, CoercionError.on, typeName,
        typeName_renumberBody]
  | _ => rfl

@[simp]
theorem toIndex_renumber
    (v : Value) :
    (v.renumber k).toIndex = v.toIndex := by
  cases v with
  | bean identity body =>
      simp only [renumber, toIndex, CoercionError.on, typeName,
        typeName_renumberBody]
  | _ => rfl

/- An array keeps its numbers if its items do. -/
theorem hosted_array
    {items : List Value}
    (h : ∀ item ∈ items, item.Hosted) :
    Hosted (.array items) := by
  intro k
  rw [renumber, renumberItems_eq, Fields.map_eq_self_iff.2]
  exact fun item hItem => h item hItem k

/- An object keeps its numbers if the values of its fields do. -/
theorem hosted_object_iff
    {fields : Fields Value} :
    Hosted (.object fields) ↔
      ∀ name v, (name, v) ∈ fields → v.Hosted := by
  simp only [Hosted, renumber, renumberFields_eq, object.injEq,
    Fields.mapValues_eq_self_iff]
  exact ⟨fun h name v hField k => h k name v hField,
    fun h k name v hField => h name v hField k⟩

/- A text stays a text. -/
theorem hosted_ofOptionalString
    (s : Option String) :
    Hosted (.ofOptionalString s) := by
  cases s <;> exact fun _ => rfl

/- A number stays a number. -/
theorem hosted_ofNumber
    (n : Number) :
    Hosted (.ofNumber n) := by
  cases n <;> exact fun _ => rfl

------------------------------------------------------------
-- Texts and Equality
------------------------------------------------------------

/- The texts of items stay if each of them does. -/
theorem itemsText_renumber
    {items : List Value}
    (h : ∀ item ∈ items, (item.renumber k).text = item.text) :
    itemsText (renumberItems k items) = itemsText items := by
  induction items with
  | nil => rfl
  | cons item rest ih =>
      rw [List.forall_mem_cons] at h
      have hRest := ih h.2
      cases rest with
      | nil => exact h.1
      | cons next rest =>
          rw [renumberItems, itemsText, itemsText, h.1, hRest]
          · exact nofun
          · exact nofun

/- The texts of fields stay if each of their values does. -/
theorem fieldsText_renumber
    {fields : List (String × Value)}
    (h : ∀ name v, (name, v) ∈ fields →
      (v.renumber k).text = v.text) :
    fieldsText (renumberFields k fields) = fieldsText fields := by
  induction fields with
  | nil => rfl
  | cons field rest ih =>
      obtain ⟨name, v⟩ := field
      have hFirst := h name v (.head _)
      have hRest := ih fun name v hMem => h name v (.tail _ hMem)
      cases rest with
      | nil => exact congrArg (name ++ "=" ++ ·) hFirst
      | cons next rest =>
          rw [renumberFields, fieldsText, fieldsText, hFirst, hRest]
          · exact nofun
          · exact nofun

/- The text does not show which beans there are. -/
@[simp]
theorem text_renumber
    (v : Value) :
    (v.renumber k).text = v.text := by
  induction v with
  | array items ih =>
      rw [renumber, text, text, itemsText_renumber k ih]
  | object fields ih =>
      rw [renumber, text, text, fieldsText_renumber k ih]
  | bean identity body =>
      simp only [renumber, text, typeName_renumberBody]
  | _ => rfl

@[simp]
theorem toKey_renumber
    (v : Value) :
    (v.renumber k).toKey = v.toKey :=
  text_renumber k v

/- Items are as equal as they were if each of them is. -/
theorem itemsEqual_renumber
    {items : List Value}
    (h : ∀ item ∈ items, ∀ other,
      (item.renumber k).equals (other.renumber k) =
        item.equals other)
    (others : List Value) :
    itemsEqual (renumberItems k items) (renumberItems k others) =
      itemsEqual items others := by
  induction items generalizing others with
  | nil => cases others <;> rfl
  | cons item rest ih =>
      rw [List.forall_mem_cons] at h
      cases others with
      | nil => rfl
      | cons other others =>
          rw [renumberItems, renumberItems, itemsEqual, itemsEqual,
            h.1, ih h.2]

/- Fields are as equal as they were if each of their values is. -/
theorem fieldsEqual_renumber
    {fields : List (String × Value)}
    (h : ∀ name v, (name, v) ∈ fields → ∀ other,
      (v.renumber k).equals (other.renumber k) = v.equals other)
    (others : List (String × Value)) :
    fieldsEqual (renumberFields k fields)
        (renumberFields k others) =
      fieldsEqual fields others := by
  induction fields generalizing others with
  | nil => cases others <;> rfl
  | cons field rest ih =>
      obtain ⟨name, v⟩ := field
      cases others with
      | nil => rfl
      | cons other others =>
          rw [renumberFields, renumberFields, fieldsEqual,
            fieldsEqual, h name v (.head _),
            ih fun name v hMem => h name v (.tail _ hMem)]

/- The same values are equal. -/
@[simp]
theorem equals_renumber
    (v w : Value) :
    (v.renumber k).equals (w.renumber k) = v.equals w := by
  induction v generalizing w with
  | array items ih =>
      cases w with
      | array others => exact itemsEqual_renumber k ih others
      | _ => rfl
  | object fields ih =>
      cases w with
      | object others => exact fieldsEqual_renumber k ih others
      | _ => rfl
  | bean identity body =>
      cases w with
      | bean other body =>
          simp only [renumber, equals, Bool.beq_eq_decide_eq,
            Identity.renumber_inj]
      | _ => rfl
  | _ => cases w <;> rfl

end Value

end PageExpr
