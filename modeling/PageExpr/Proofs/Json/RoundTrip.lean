import PageExpr.Json.Conversion
import PageExpr.Proofs.Value.StructuralEquality

/-
  Values as documents, and documents as values.

  A value comes back from its document unless a bean or a number
  that is not finite is among its parts.  A document comes back
  from its value with other numbers at most: the integers that no
  word holds are rounded.  The document of a value has none of
  these, so it always comes back.

  Main declarations:
    * `JsonNumber.kept`, `JsonNumber.isFinite_ofInt`
    * `Json.induction`
    * `Json.HasNumber`, `Json.mapNumbers`
    * `Value.toJson_ofJson`
    * `Value.Exact`, `Value.ofJson_toJson_iff`
    * `Value.conversions_undo`
-/

namespace PageExpr

------------------------------------------------------------
-- Numbers
------------------------------------------------------------

namespace JsonNumber

/- An integer of a document is rounded to a finite number. -/
theorem isFinite_ofInt
    {n : Int}
    (h : Fits n) :
    (Binary64.ofInt n).isFinite = true := by
  have hLow :
      (Binary64.ofInt (-0x8000000000000000)).isFinite = true := by
    decide +kernel
  have hHigh :
      (Binary64.ofInt 0x10000000000000000).isFinite = true := by
    decide +kernel
  exact Binary64.isFinite_of_rank_le (Binary64.isNan_ofInt n)
    hLow hHigh (Binary64.rank_ofInt_mono h.1)
    (Binary64.rank_ofInt_mono h.2.le)

/- What values keep of a number: other integers are rounded. -/
def kept : JsonNumber → JsonNumber
  | .whole n fits =>
      if Integer.Fits n then .whole n fits
      else .float (Binary64.ofInt n) (isFinite_ofInt fits)
  | .float x finite => .float x finite

/- A number stays as it is if it is no integer beyond all words. -/
theorem kept_eq_self_iff
    {n : JsonNumber} :
    n.kept = n ↔ ∀ m fits, n = .whole m fits → Integer.Fits m := by
  cases n with
  | float x finite =>
      refine iff_of_true rfl ?_
      rintro _ _ ⟨⟩
  | whole m fits =>
      by_cases h : Integer.Fits m
      · refine iff_of_true (if_pos h) ?_
        rintro _ _ ⟨⟩
        exact h
      · refine iff_of_false ?_ fun hAll => h (hAll m fits rfl)
        rw [kept, if_neg h]
        exact nofun

/- Such an integer becomes the nearest floating-point number. -/
theorem kept_cases
    (n : JsonNumber) :
    n.kept = n ∨
      ∃ m fits, n = .whole m fits ∧ ¬ Integer.Fits m ∧
        n.kept =
          .float (Binary64.ofInt m) (isFinite_ofInt fits) := by
  cases n with
  | float x finite => exact .inl rfl
  | whole m fits =>
      by_cases h : Integer.Fits m
      · exact .inl (if_pos h)
      · exact .inr ⟨m, fits, rfl, h, if_neg h⟩

end JsonNumber

------------------------------------------------------------
-- Documents
------------------------------------------------------------

namespace Json

/-
  A property of all documents, shown of a document from the items
  of an array and the members of an object.
-/
@[elab_as_elim, induction_eliminator]
theorem induction
    {motive : Json → Prop}
    (null : motive .null)
    (boolean : ∀ b, motive (.boolean b))
    (number : ∀ n, motive (.number n))
    (string : ∀ s, motive (.string s))
    (array : ∀ items, (∀ item ∈ items, motive item) →
      motive (.array items))
    (object : ∀ members,
      (∀ name value, (name, value) ∈ members → motive value) →
        motive (.object members))
    (document : Json) :
    motive document :=
  match document with
  | .null => null
  | .boolean b => boolean b
  | .number n => number n
  | .string s => string s
  | .array items =>
      array items fun item _hItem =>
        induction null boolean number string array object item
  | .object members =>
      object members fun name value _hMember =>
        induction null boolean number string array object value
termination_by document
decreasing_by
  · have hSize := List.sizeOf_lt_of_mem _hItem
    rw [Json.array.sizeOf_spec]
    omega
  · have hSize := List.sizeOf_lt_of_mem _hMember
    rw [Prod.mk.sizeOf_spec] at hSize
    rw [Json.object.sizeOf_spec]
    omega

/- Is the number somewhere in the document? -/
inductive HasNumber
    (n : JsonNumber) : Json → Prop where
  | number : HasNumber n (.number n)
  | item
      {item : Json} {items : List Json}
      (hItem : item ∈ items)
      (hNumber : HasNumber n item) :
      HasNumber n (.array items)
  | member
      {name : String} {value : Json}
      {members : List (String × Json)}
      (hMember : (name, value) ∈ members)
      (hNumber : HasNumber n value) :
      HasNumber n (.object members)

mutual

/- The document with other numbers in the places of its numbers. -/
def mapNumbers
    (f : JsonNumber → JsonNumber) : Json → Json
  | .null => .null
  | .boolean b => .boolean b
  | .number n => .number (f n)
  | .string s => .string s
  | .array items => .array (mapItems f items)
  | .object members => .object (mapMembers f members)

/- The same for items. -/
def mapItems
    (f : JsonNumber → JsonNumber) : List Json → List Json
  | [] => []
  | item :: rest => mapNumbers f item :: mapItems f rest

/- The same for members. -/
def mapMembers
    (f : JsonNumber → JsonNumber) :
    List (String × Json) → List (String × Json)
  | [] => []
  | (name, value) :: rest =>
      (name, mapNumbers f value) :: mapMembers f rest

end

/- Items are treated one by one. -/
theorem mapItems_eq
    (f : JsonNumber → JsonNumber)
    (items : List Json) :
    mapItems f items = items.map (mapNumbers f) := by
  induction items with
  | nil => rfl
  | cons item rest ih => rw [mapItems, ih, List.map_cons]

/- Members are treated one by one. -/
theorem mapMembers_eq
    (f : JsonNumber → JsonNumber)
    (members : List (String × Json)) :
    mapMembers f members =
      Fields.mapValues (mapNumbers f) members := by
  induction members with
  | nil => rfl
  | cons member rest ih =>
      rw [mapMembers, ih, Fields.mapValues, Fields.mapValues,
        List.map_cons]

/- A document stays as it is if each of its numbers does. -/
theorem mapNumbers_eq_self_iff
    (f : JsonNumber → JsonNumber)
    (document : Json) :
    document.mapNumbers f = document ↔
      ∀ n, document.HasNumber n → f n = n := by
  induction document with
  | number n =>
      rw [mapNumbers, number.injEq]
      constructor
      · rintro h _ ⟨⟩
        exact h
      · exact fun h => h n .number
  | array items ih =>
      rw [mapNumbers, mapItems_eq, array.injEq,
        Fields.map_eq_self_iff]
      constructor
      · rintro h n (⟨⟩ | ⟨hItem, hNumber⟩ | ⟨⟩)
        exact (ih _ hItem).1 (h _ hItem) n hNumber
      · exact fun h item hItem =>
          (ih item hItem).2 fun n hNumber => h n (.item hItem hNumber)
  | object members ih =>
      rw [mapNumbers, mapMembers_eq, object.injEq,
        Fields.mapValues_eq_self_iff]
      constructor
      · rintro h n (⟨⟩ | ⟨⟩ | ⟨hMember, hNumber⟩)
        exact (ih _ _ hMember).1 (h _ _ hMember) n hNumber
      · exact fun h name value hMember =>
          (ih name value hMember).2 fun n hNumber =>
            h n (.member hMember hNumber)
  | _ =>
      refine iff_of_true rfl ?_
      rintro n ⟨⟩

end Json

------------------------------------------------------------
-- Conversion
------------------------------------------------------------

namespace Value

/- Items become values one by one. -/
theorem ofJsonItems_eq
    (items : List Json) :
    ofJsonItems items = items.map ofJson := by
  induction items with
  | nil => rfl
  | cons item rest ih => rw [ofJsonItems, ih, List.map_cons]

/- Members become fields one by one. -/
theorem ofJsonMembers_eq
    (members : List (String × Json)) :
    ofJsonMembers members = Fields.mapValues ofJson members := by
  induction members with
  | nil => rfl
  | cons member rest ih =>
      rw [ofJsonMembers, ih, Fields.mapValues, Fields.mapValues,
        List.map_cons]

/- Values become items one by one. -/
theorem toJsonItems_eq
    (items : List Value) :
    toJsonItems items = items.map toJson := by
  induction items with
  | nil => rfl
  | cons item rest ih => rw [toJsonItems, ih, List.map_cons]

/- Fields become members one by one. -/
theorem toJsonMembers_eq
    (fields : List (String × Value)) :
    toJsonMembers fields = Fields.mapValues toJson fields := by
  induction fields with
  | nil => rfl
  | cons field rest ih =>
      rw [toJsonMembers, ih, Fields.mapValues, Fields.mapValues,
        List.map_cons]

/- Of a number there comes back what values keep of it. -/
theorem toJson_ofJsonNumber
    (n : JsonNumber) :
    (ofJsonNumber n).toJson = .number n.kept := by
  cases n with
  | float x finite => exact dif_pos finite
  | whole n fits =>
      rw [ofJsonNumber, JsonNumber.kept]
      cases hWord : Integer.ofInt? n with
      | none =>
          rw [if_neg (Integer.ofInt?_eq_none_iff.1 hWord)]
          exact dif_pos (JsonNumber.isFinite_ofInt fits)
      | some w =>
          obtain rfl := Integer.ofInt?_eq_some_iff.1 hWord
          rw [if_pos (Integer.fits_toInt w)]
          rfl

/- Of a document there comes back what values keep of it. -/
theorem toJson_ofJson
    (document : Json) :
    (ofJson document).toJson =
      document.mapNumbers JsonNumber.kept := by
  induction document with
  | number n => exact toJson_ofJsonNumber n
  | array items ih =>
      rw [ofJson, toJson, ofJsonItems_eq, toJsonItems_eq,
        List.map_map, Json.mapNumbers, Json.mapItems_eq]
      exact congrArg Json.array (List.map_congr_left ih)
  | object members ih =>
      rw [ofJson, toJson, ofJsonMembers_eq, toJsonMembers_eq,
        Fields.mapValues_mapValues, Json.mapNumbers,
        Json.mapMembers_eq]
      exact congrArg Json.object (Fields.mapValues_inj.2 ih)
  | _ => rfl

------------------------------------------------------------
-- Values and Their Documents
------------------------------------------------------------

/- Can a document show the value, its parts apart? -/
def isShown : Value → Bool
  | .float x => x.isFinite
  | .bean _ _ => false
  | _ => true

/- Neither a bean nor a number that is not finite is in the value. -/
def Exact
    (v : Value) : Prop :=
  ∀ part, Part part v → part.isShown = true

/- An array is exact if its items are. -/
theorem exact_array_iff
    {items : List Value} :
    Exact (.array items) ↔ ∀ v ∈ items, Exact v := by
  constructor
  · exact fun h v hItem part hPart => h part (.item hItem hPart)
  · rintro h _ (⟨⟩ | ⟨hItem, hPart⟩ | ⟨⟩)
    · rfl
    · exact h _ hItem _ hPart

/- An object is exact if its fields are. -/
theorem exact_object_iff
    {fields : List (String × Value)} :
    Exact (.object fields) ↔
      ∀ name v, (name, v) ∈ fields → Exact v := by
  constructor
  · exact fun h name v hField part hPart =>
      h part (.field hField hPart)
  · rintro h _ (⟨⟩ | ⟨⟩ | ⟨hField, hPart⟩)
    · rfl
    · exact h _ _ hField _ hPart

/- What has no parts but itself is exact if it can be shown. -/
theorem exact_iff_of_part_eq
    {v : Value}
    (hParts : ∀ part, Part part v → part = v) :
    Exact v ↔ v.isShown = true := by
  constructor
  · exact fun h => h v .self
  · intro h part hPart
    rwa [hParts part hPart]

/- A finite number comes back, and any other is lost. -/
theorem ofJson_toJson_float_iff
    (x : Binary64) :
    ofJson (toJson (.float x)) = .float x ↔ x.isFinite = true := by
  rw [toJson, Json.ofFloat]
  by_cases h : x.isFinite = true
  · rw [dif_pos h]
    exact iff_of_true rfl h
  · rw [dif_neg h]
    exact iff_of_false nofun h

/- A value comes back just if it is exact. -/
theorem ofJson_toJson_iff
    (v : Value) :
    ofJson v.toJson = v ↔ Exact v := by
  induction v with
  | array items ih =>
      rw [exact_array_iff, toJson, ofJson, toJsonItems_eq,
        ofJsonItems_eq, List.map_map, array.injEq,
        Fields.map_eq_self_iff]
      exact forall₂_congr ih
  | object fields ih =>
      rw [exact_object_iff, toJson, ofJson,
        toJsonMembers_eq, ofJsonMembers_eq,
        Fields.mapValues_mapValues, object.injEq,
        Fields.mapValues_eq_self_iff]
      exact forall₃_congr ih
  | float x =>
      rw [exact_iff_of_part_eq (by rintro _ ⟨⟩; rfl)]
      exact ofJson_toJson_float_iff x
  | bean identity body =>
      rw [exact_iff_of_part_eq (by rintro _ ⟨⟩; rfl)]
      exact iff_of_false nofun nofun
  | integer n =>
      have hWord : Integer.ofInt? n.toInt = some n :=
        Integer.ofInt?_eq_some_iff.2 rfl
      rw [exact_iff_of_part_eq (by rintro _ ⟨⟩; rfl), toJson, ofJson,
        ofJsonNumber, hWord]
      exact iff_of_true rfl rfl
  | _ =>
      rw [exact_iff_of_part_eq (by rintro _ ⟨⟩; rfl)]
      exact iff_of_true rfl rfl

/- The integers in the document of a value are words. -/
theorem fits_of_hasNumber
    {v : Value}
    {m : Int}
    {fits : JsonNumber.Fits m}
    (h : v.toJson.HasNumber (.whole m fits)) :
    Integer.Fits m := by
  induction v with
  | array items ih =>
      rw [toJson, toJsonItems_eq] at h
      rcases h with ⟨⟩ | ⟨hItem, hNumber⟩ | ⟨⟩
      rcases List.mem_map.1 hItem with ⟨v, hMem, rfl⟩
      exact ih v hMem hNumber
  | object fields ih =>
      rw [toJson, toJsonMembers_eq] at h
      rcases h with ⟨⟩ | ⟨⟩ | ⟨hMember, hNumber⟩
      rcases List.mem_map.1 hMember with ⟨⟨_, v⟩, hMem, ⟨⟩⟩
      exact ih _ v hMem hNumber
  | integer w =>
      cases h
      exact Integer.fits_toInt w
  | float x =>
      rw [toJson, Json.ofFloat] at h
      split at h <;> cases h
  | _ => cases h

/- A document comes back if all its integers are words. -/
theorem toJson_ofJson_eq_self_iff
    (document : Json) :
    (ofJson document).toJson = document ↔
      ∀ m fits, document.HasNumber (.whole m fits) →
        Integer.Fits m := by
  rw [toJson_ofJson, Json.mapNumbers_eq_self_iff]
  simp only [JsonNumber.kept_eq_self_iff]
  constructor
  · exact fun h m fits hNumber => h _ hNumber m fits rfl
  · rintro h _ hNumber m fits rfl
    exact h m fits hNumber

/-
  A value is the value of its document just if neither a bean nor
  a number that is not finite is in it.  A document is the document
  of its value but for its numbers, of which the integers that no
  word holds become floating-point numbers; so it is the same just
  if it has none of these, and the document of a value always is.
-/
theorem conversions_undo :
    (∀ v : Value,
      ofJson v.toJson = v ↔
        ∀ part, Part part v → part.isShown = true) ∧
    (∀ v : Value, (ofJson v.toJson).toJson = v.toJson) ∧
    (∀ document : Json,
      (ofJson document).toJson = document ↔
        ∀ m fits, document.HasNumber (.whole m fits) →
          Integer.Fits m) ∧
    (∀ document : Json,
      (ofJson document).toJson =
        document.mapNumbers JsonNumber.kept) ∧
    (∀ n : JsonNumber,
      n.kept = n ∨
        ∃ m fits, n = .whole m fits ∧ ¬ Integer.Fits m ∧
          n.kept = .float (Binary64.ofInt m)
            (JsonNumber.isFinite_ofInt fits)) := by
  refine ⟨ofJson_toJson_iff, ?_, toJson_ofJson_eq_self_iff,
    toJson_ofJson, JsonNumber.kept_cases⟩
  intro v
  rw [toJson_ofJson_eq_self_iff]
  exact fun m fits hNumber => fits_of_hasNumber hNumber

/-
  An integer and the same number as a float stay apart, and an
  integer beyond all words does not come back.
-/
theorem conversions_undo_whole :
    ofJson
        (toJson (.array [.integer 5, .float (.ofInt 5),
          .float (.zero true)])) =
      .array [.integer 5, .float (.ofInt 5), .float (.zero true)] ∧
    ofJson (toJson (.array [.float .nan])) ≠ .array [.float .nan] ∧
    (ofJson
        (.array [.number (.whole 0x8000000000000000
          (by decide))])).toJson ≠
      .array [.number (.whole 0x8000000000000000 (by decide))] := by
  rcases conversions_undo with ⟨hValue, -, hDocument, -, -⟩
  refine ⟨(hValue _).2 ?_, fun h => ?_, fun h => ?_⟩
  · rintro part (⟨⟩ | ⟨hItem, hPart⟩ | ⟨⟩)
    · rfl
    · simp only [List.mem_cons, List.not_mem_nil, or_false] at hItem
      rcases hItem with rfl | rfl | rfl <;> cases hPart <;>
        decide +kernel
  · have hShown := (hValue _).1 h _ (.item List.mem_cons_self .self)
    cases hShown
  · have hFits :=
      (hDocument _).1 h _ _ (.item List.mem_cons_self .number)
    exact absurd hFits (by decide)

end Value

end PageExpr
