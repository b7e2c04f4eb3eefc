/-
  Named entries, kept in the order of their names.

  Names are ordered by code points.  A look-up after an
  insertion or a removal needs no assumption on the order, so
  the laws below hold of every list of entries.

  Main declarations:
    * `Fields`
    * `Fields.get?`
    * `Fields.insert`
    * `Fields.erase`
    * `Fields.ofList`
    * `Fields.Sorted`
    * `Fields.mem_of_get?`
    * `Fields.get?_insert`
    * `Fields.get?_erase`
    * `Fields.sorted_insert`
    * `Fields.sorted_ofList`
-/

namespace PageExpr

/- Entries with a name each. -/
abbrev Fields (α : Type) :=
  List (String × α)

namespace Fields

variable {α β : Type}

------------------------------------------------------------
-- Operations
------------------------------------------------------------

/- The entry of a name. -/
def get?
    (name : String) : Fields α → Option α
  | [] => none
  | (key, value) :: rest =>
      if name = key then some value else get? name rest

/- Put an entry in its place, instead of one with its name. -/
def insert
    (name : String)
    (value : α) : Fields α → Fields α
  | [] => [(name, value)]
  | (key, old) :: rest =>
      if name < key then (name, value) :: (key, old) :: rest
      else if name = key then (name, value) :: rest
      else (key, old) :: insert name value rest

/- Remove every entry of a name. -/
def erase
    (name : String)
    (fields : Fields α) : Fields α :=
  fields.filter fun (key, _) => key != name

/- The entries of a list; of two with one name the later. -/
def ofList
    (entries : List (String × α)) : Fields α :=
  entries.foldl (fun fields (name, value) =>
    insert name value fields) []

/- The same names with other values. -/
def mapValues
    (f : α → β)
    (fields : Fields α) : Fields β :=
  fields.map fun (name, value) => (name, f value)

/- The names rise from entry to entry. -/
def Sorted
    (fields : Fields α) : Prop :=
  fields.Pairwise fun a b => a.1 < b.1

instance
    (fields : Fields α) :
    Decidable fields.Sorted :=
  inferInstanceAs (Decidable (List.Pairwise _ fields))

------------------------------------------------------------
-- Look-up
------------------------------------------------------------

/- What is found is an entry. -/
theorem mem_of_get?
    {name : String}
    {value : α}
    {fields : Fields α}
    (h : get? name fields = some value) :
    (name, value) ∈ fields := by
  induction fields with
  | nil => cases h
  | cons entry rest ih =>
      rw [get?] at h
      split at h
      · rename_i hName
        cases h
        rw [hName]
        exact List.mem_cons_self
      · exact List.mem_cons_of_mem _ (ih h)

/- An entry is found where it was put, and nowhere else. -/
theorem get?_insert
    (name other : String)
    (value : α)
    (fields : Fields α) :
    get? other (insert name value fields) =
      if other = name then some value else get? other fields := by
  induction fields with
  | nil => rfl
  | cons entry rest ih =>
      obtain ⟨key, old⟩ := entry
      unfold insert
      by_cases hlt : name < key
      · simp only [hlt, if_true, get?]
      · by_cases heq : name = key
        · subst heq
          simp only [hlt, if_false, if_true, get?]
          by_cases h : other = name <;> simp [h]
        · simp only [hlt, heq, if_false, get?, ih]
          by_cases h : other = key
          · have hn : ¬ other = name := by
              rintro rfl
              exact heq h
            rw [if_pos h, if_neg hn, if_pos h]
          · simp only [h, if_false]

/- A removed name is gone; the others stay. -/
theorem get?_erase
    (name other : String)
    (fields : Fields α) :
    get? other (erase name fields) =
      if other = name then none else get? other fields := by
  induction fields with
  | nil => simp [erase, get?]
  | cons entry rest ih =>
      obtain ⟨key, value⟩ := entry
      by_cases hkey : key = name
      · have hfilter :
            erase name ((key, value) :: rest) =
              erase name rest := by
          simp [erase, hkey]
        rw [hfilter, ih]
        by_cases h : other = name
        · simp [h]
        · have hne : ¬ other = key := by
            rw [hkey]
            exact h
          simp [h, get?, hne]
      · have hfilter :
            erase name ((key, value) :: rest) =
              (key, value) :: erase name rest := by
          simp [erase, hkey]
        rw [hfilter]
        by_cases h : other = key
        · have hne : ¬ other = name := by
            rintro rfl
            exact hkey h.symm
          simp [get?, h, hkey]
        · simp [get?, h, ih]

/- A look-up sees the values that were put in. -/
theorem get?_mapValues
    (f : α → β)
    (name : String)
    (fields : Fields α) :
    get? name (mapValues f fields) = (get? name fields).map f := by
  induction fields with
  | nil => rfl
  | cons entry rest ih =>
      obtain ⟨key, value⟩ := entry
      have hcons :
          mapValues f ((key, value) :: rest) =
            (key, f value) :: mapValues f rest := rfl
      rw [hcons]
      by_cases h : name = key <;> simp [get?, h, ih]

------------------------------------------------------------
-- Order
------------------------------------------------------------

/- Whatever is in the list afterwards is the entry or was in. -/
theorem mem_insert
    {name : String}
    {value : α}
    {entry : String × α}
    {fields : Fields α}
    (h : entry ∈ insert name value fields) :
    entry = (name, value) ∨ entry ∈ fields := by
  induction fields with
  | nil =>
      simp only [insert, List.mem_singleton] at h
      exact Or.inl h
  | cons first rest ih =>
      obtain ⟨key, old⟩ := first
      unfold insert at h
      split at h
      · simpa using h
      · split at h
        · simp only [List.mem_cons] at h ⊢
          exact h.imp id Or.inr
        · simp only [List.mem_cons] at h ⊢
          rcases h with h | h
          · exact Or.inr (Or.inl h)
          · exact (ih h).imp id Or.inr

/- Names that are not smaller and not equal are greater. -/
private theorem lt_of_not_lt_of_ne
    {a b : String}
    (hlt : ¬ a < b)
    (hne : ¬ a = b) :
    b < a :=
  Std.lt_of_le_of_ne (String.not_lt.1 hlt)
    fun h => hne h.symm

/- Putting an entry in its place keeps the order. -/
theorem sorted_insert
    {name : String}
    {value : α}
    {fields : Fields α}
    (h : Sorted fields) :
    Sorted (insert name value fields) := by
  induction fields with
  | nil => exact List.pairwise_singleton _ _
  | cons first rest ih =>
      obtain ⟨key, old⟩ := first
      have hrest := List.pairwise_cons.1 h
      unfold insert
      by_cases hlt : name < key
      · rw [if_pos hlt]
        refine List.pairwise_cons.2 ⟨?_, h⟩
        intro entry hmem
        rcases List.mem_cons.1 hmem with rfl | hmem
        · exact hlt
        · exact String.lt_trans hlt (hrest.1 entry hmem)
      · rw [if_neg hlt]
        by_cases heq : name = key
        · subst heq
          rw [if_pos rfl]
          exact List.pairwise_cons.2 hrest
        · rw [if_neg heq]
          refine List.pairwise_cons.2 ⟨?_, ih hrest.2⟩
          intro entry hmem
          rcases mem_insert hmem with rfl | hmem
          · exact lt_of_not_lt_of_ne hlt heq
          · exact hrest.1 entry hmem

/- Removing a name keeps the order. -/
theorem sorted_erase
    {name : String}
    {fields : Fields α}
    (h : Sorted fields) :
    Sorted (erase name fields) :=
  List.Pairwise.filter _ h

/- Entries put in one by one come out in order. -/
theorem sorted_ofList
    (entries : List (String × α)) :
    Sorted (ofList entries) := by
  unfold ofList
  suffices h : ∀ fields : Fields α, Sorted fields →
      Sorted (entries.foldl (fun fields (name, value) =>
        insert name value fields) fields) from
    h [] List.Pairwise.nil
  induction entries with
  | nil => exact fun _ h => h
  | cons entry rest ih =>
      exact fun fields h => ih _ (sorted_insert h)

end Fields

end PageExpr
