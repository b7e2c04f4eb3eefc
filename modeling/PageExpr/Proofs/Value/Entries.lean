import Mathlib.Data.List.Forall2
import PageExpr.Value.Fields

/-
  Named entries as what their names lead to.

  Entries in order are determined by what is found under each
  name.  Entries with a name each, taken one after the other,
  change what is found under a name at most once, so their order
  makes no difference.

  Main declarations:
    * `Fields.forall₂_iff_get?`
    * `Fields.ext_of_sorted`
    * `Fields.get?_foldl`
    * `Fields.ofList_of_sorted`
    * `Fields.ofList_perm`
-/

namespace PageExpr

namespace Fields

variable {α β : Type}

------------------------------------------------------------
-- Names
------------------------------------------------------------

/- No two entries have the same name. -/
def Distinct
    (entries : List (String × α)) : Prop :=
  (entries.map Prod.fst).Nodup

/- Names in order are different. -/
theorem Sorted.distinct
    {fields : Fields α}
    (h : Sorted fields) :
    Distinct fields := by
  apply List.pairwise_map.2
  refine List.Pairwise.imp ?_ h
  intro a b hLess hSame
  rw [hSame] at hLess
  exact String.lt_irrefl _ hLess

/- A name is not found if no entry bears it. -/
theorem get?_eq_none_iff
    {name : String}
    {fields : Fields α} :
    get? name fields = none ↔ name ∉ fields.map Prod.fst := by
  induction fields with
  | nil => simp [get?]
  | cons entry rest ih =>
      rw [get?]
      by_cases h : name = entry.1 <;> simp [h, ih]

/- A name that is not found has an entry of its own when put in. -/
theorem length_insert
    {name : String}
    {fields : Fields α}
    (value : α)
    (h : get? name fields = none) :
    (insert name value fields).length = fields.length + 1 := by
  induction fields with
  | nil => rfl
  | cons entry rest ih =>
      rw [get?] at h
      split at h
      · cases h
      · rename_i hName
        rw [insert, if_neg hName]
        split
        · rfl
        · rw [List.length_cons, ih h, List.length_cons]

/- With a name each, the entries are what is found. -/
theorem get?_eq_some_iff
    {name : String}
    {value : α}
    {fields : Fields α}
    (hDistinct : Distinct fields) :
    get? name fields = some value ↔ (name, value) ∈ fields := by
  refine ⟨mem_of_get?, fun hMem => ?_⟩
  induction fields with
  | nil => cases hMem
  | cons entry rest ih =>
      obtain ⟨hFirst, hRest⟩ := List.nodup_cons.1 hDistinct
      rw [get?]
      rcases List.mem_cons.1 hMem with rfl | hMem
      · exact if_pos rfl
      · rw [if_neg]
        · exact ih hRest hMem
        · rintro rfl
          exact hFirst (List.mem_map.2 ⟨_, hMem, rfl⟩)

------------------------------------------------------------
-- Entries in Order
------------------------------------------------------------

/- The first name comes before all others. -/
theorem Sorted.get?_first
    {name : String}
    {value : α}
    {rest : Fields α}
    (h : Sorted ((name, value) :: rest)) :
    get? name rest = none := by
  rw [get?_eq_none_iff]
  exact (List.nodup_cons.1 h.distinct).1

/- No name comes before the first. -/
theorem Sorted.first_le
    {name other : String}
    {value : α}
    {rest : Fields α}
    (h : Sorted ((name, value) :: rest))
    (hFound : get? other ((name, value) :: rest) ≠ none) :
    name ≤ other := by
  rw [Ne, get?_eq_none_iff, not_not] at hFound
  rcases List.mem_map.1 hFound with ⟨entry, hMem, rfl⟩
  rcases List.mem_cons.1 hMem with rfl | hMem
  · exact String.le_refl name
  · exact Std.le_of_lt ((List.pairwise_cons.1 h).1 entry hMem)

/- Of two lists with the same names the first names are the same. -/
theorem Sorted.first_eq
    {name other : String}
    {value : α}
    {value' : β}
    {rest : Fields α}
    {rest' : Fields β}
    (hFields : Sorted ((name, value) :: rest))
    (hOthers : Sorted ((other, value') :: rest'))
    (hSame : ∀ n,
      get? n ((name, value) :: rest) = none ↔
        get? n ((other, value') :: rest') = none) :
    name = other := by
  apply String.le_antisymm
  · apply hFields.first_le
    rw [Ne, hSame, get?, if_pos rfl]
    exact Option.some_ne_none _
  · apply hOthers.first_le
    rw [Ne, ← hSame, get?, if_pos rfl]
    exact Option.some_ne_none _

/- Entries that correspond one by one are found alike. -/
theorem rel_get?_of_forall₂
    {r : α → β → Prop}
    {fields : Fields α}
    {others : Fields β}
    (h : List.Forall₂ (fun a b => a.1 = b.1 ∧ r a.2 b.2)
      fields others)
    (name : String) :
    Option.Rel r (get? name fields) (get? name others) := by
  induction h with
  | nil => exact .none
  | cons hEntry _ ih =>
      rw [get?, get?, ← hEntry.1]
      split
      · exact .some hEntry.2
      · exact ih

/- Where the one has no entry the other has none. -/
theorem eq_none_iff_of_rel
    {r : α → β → Prop}
    {found : Option α}
    {other : Option β}
    (h : Option.Rel r found other) :
    found = none ↔ other = none := by
  cases h with
  | none => exact iff_of_true rfl rfl
  | some _ =>
      exact iff_of_false (Option.some_ne_none _)
        (Option.some_ne_none _)

/-
  Two lists of entries in order correspond one by one if what is
  found under each name does.
-/
theorem forall₂_iff_get?
    {r : α → β → Prop}
    {fields : Fields α}
    {others : Fields β}
    (hFields : Sorted fields)
    (hOthers : Sorted others) :
    List.Forall₂ (fun a b => a.1 = b.1 ∧ r a.2 b.2) fields others ↔
      ∀ name, Option.Rel r (get? name fields) (get? name others) := by
  refine ⟨rel_get?_of_forall₂, fun h => ?_⟩
  have hSame := fun n => eq_none_iff_of_rel (h n)
  induction fields generalizing others with
  | nil =>
      cases others with
      | nil => exact .nil
      | cons entry rest =>
          have hFirst := (hSame entry.1).1 rfl
          rw [get?, if_pos rfl] at hFirst
          cases hFirst
  | cons entry rest ih =>
      obtain ⟨name, value⟩ := entry
      cases others with
      | nil =>
          have hFirst := (hSame name).2 rfl
          rw [get?, if_pos rfl] at hFirst
          cases hFirst
      | cons other rest' =>
          obtain ⟨other, value'⟩ := other
          obtain rfl := hFields.first_eq hOthers hSame
          have hFirst := h name
          rw [get?, get?, if_pos rfl, if_pos rfl] at hFirst
          -- The rest has nothing under the first name.
          have hRest :
              ∀ n, Option.Rel r (get? n rest) (get? n rest') := by
            intro n
            by_cases hName : n = name
            · rw [hName, hFields.get?_first, hOthers.get?_first]
              exact .none
            · have hOther := h n
              rwa [get?, get?, if_neg hName, if_neg hName] at hOther
          cases hFirst with
          | some hRelated =>
              exact .cons ⟨rfl, hRelated⟩
                (ih (List.pairwise_cons.1 hFields).2
                  (List.pairwise_cons.1 hOthers).2 hRest
                  fun n => eq_none_iff_of_rel (hRest n))

/- Entries in order are the same if they are found the same. -/
theorem ext_of_sorted
    {fields others : Fields α}
    (hFields : Sorted fields)
    (hOthers : Sorted others)
    (h : ∀ name, get? name fields = get? name others) :
    fields = others := by
  have hRelated :
      List.Forall₂ (fun a b => a.1 = b.1 ∧ a.2 = b.2)
        fields others := by
    rw [forall₂_iff_get? hFields hOthers]
    intro name
    rw [h name]
    cases get? name others with
    | none => exact .none
    | some value => exact .some rfl
  rw [← List.forall₂_eq_eq_eq]
  exact hRelated.imp fun _ _ hEntry => Prod.ext hEntry.1 hEntry.2

------------------------------------------------------------
-- Entries One after the Other
------------------------------------------------------------

/-
  A step for each of some entries, where the step for a name
  changes what is found under this name.  What is found at last
  has been changed by the entry of the name, if there is one.
-/
theorem get?_foldl
    (step : Fields β → String → α → Fields β)
    (update : α → Option β → Option β)
    (hStep : ∀ fields name value other,
      get? other (step fields name value) =
        if other = name then update value (get? name fields)
        else get? other fields)
    {entries : List (String × α)}
    (hDistinct : Distinct entries)
    (fields : Fields β)
    (name : String) :
    get? name
        (entries.foldl (fun fields (key, value) =>
          step fields key value) fields) =
      match get? name entries with
      | some value => update value (get? name fields)
      | none => get? name fields := by
  induction entries generalizing fields with
  | nil => rfl
  | cons entry rest ih =>
      obtain ⟨key, value⟩ := entry
      obtain ⟨hFirst, hRest⟩ := List.nodup_cons.1 hDistinct
      rw [List.foldl_cons, ih hRest, hStep, get?]
      by_cases hName : name = key
      · subst hName
        rw [get?_eq_none_iff.2 hFirst, if_pos rfl, if_pos rfl]
      · rw [if_neg hName, if_neg hName]

/- With a name each, entries are found where they were put. -/
theorem get?_ofList
    {entries : List (String × α)}
    (hDistinct : Distinct entries)
    (name : String) :
    get? name (ofList entries) = get? name entries := by
  have hFold :=
    get?_foldl (fun fields key value => insert key value fields)
      (fun value _ => some value)
      (fun fields key value other => get?_insert key other value fields)
      hDistinct [] name
  rw [ofList, hFold]
  cases get? name entries <;> rfl

/- Entries that are in order stay as they are. -/
theorem ofList_of_sorted
    {fields : Fields α}
    (h : Sorted fields) :
    ofList fields = fields :=
  ext_of_sorted (sorted_ofList fields) h (get?_ofList h.distinct)

/- Other values leave the names as they are. -/
theorem names_mapValues
    (f : α → β)
    (fields : Fields α) :
    (mapValues f fields).map Prod.fst = fields.map Prod.fst := by
  simp [mapValues]

/- Values are changed twice as they are changed by both at once. -/
theorem mapValues_mapValues
    {γ : Type}
    (f : α → β)
    (g : β → γ)
    (fields : Fields α) :
    mapValues g (mapValues f fields) =
      mapValues (fun value => g (f value)) fields := by
  simp [mapValues, Function.comp_def]

/- Two changes are the same if they are for each value. -/
theorem mapValues_inj
    {f g : α → β}
    {fields : Fields α} :
    mapValues f fields = mapValues g fields ↔
      ∀ name value, (name, value) ∈ fields →
        f value = g value := by
  simp [mapValues]

/- What is done to all items changes nothing if it changes none. -/
theorem map_eq_self_iff
    {f : α → α}
    {items : List α} :
    items.map f = items ↔ ∀ item ∈ items, f item = item := by
  have hSame := List.map_inj_left (f := f) (g := id) (l := items)
  rwa [List.map_id] at hSame

/- Entries stay as they are if each of their values does. -/
theorem mapValues_eq_self_iff
    {f : α → α}
    {fields : Fields α} :
    mapValues f fields = fields ↔
      ∀ name value, (name, value) ∈ fields → f value = value := by
  rw [mapValues, map_eq_self_iff]
  simp [Prod.ext_iff]

/- What is put in is changed with the other values. -/
theorem mapValues_insert
    (f : α → β)
    (name : String)
    (value : α)
    (fields : Fields α) :
    mapValues f (insert name value fields) =
      insert name (f value) (mapValues f fields) := by
  induction fields with
  | nil => rfl
  | cons entry rest ih =>
      obtain ⟨key, old⟩ := entry
      have hSplit :
          mapValues f ((key, old) :: rest) =
            (key, f old) :: mapValues f rest := rfl
      rw [hSplit, insert, insert]
      split
      · rfl
      · split
        · rfl
        · exact congrArg ((key, f old) :: ·) ih

/- Other values leave the names in order. -/
theorem sorted_mapValues
    {fields : Fields α}
    (f : α → β)
    (h : Sorted fields) :
    Sorted (mapValues f fields) :=
  List.pairwise_map.2 h

/- It does not matter in which order entries are put in. -/
theorem ofList_perm
    {entries others : List (String × α)}
    (hPerm : entries.Perm others)
    (hDistinct : Distinct entries) :
    ofList entries = ofList others := by
  have hOthers : Distinct others :=
    (hPerm.map Prod.fst).nodup_iff.1 hDistinct
  apply ext_of_sorted (sorted_ofList entries) (sorted_ofList others)
  intro name
  rw [get?_ofList hDistinct, get?_ofList hOthers, Option.ext_iff]
  intro value
  rw [get?_eq_some_iff hDistinct, get?_eq_some_iff hOthers]
  exact hPerm.mem_iff

end Fields

end PageExpr
