import PageExpr.Host.PageContext
import PageExpr.Proofs.Value.Entries

/-
  Values that are added under names.

  Parameters and headers take one value after the other.  Under
  a name there are at last the values that were there, and
  behind them those that were added under the name, in their
  order.  A name without values has no entry.

  Main declarations:
    * `PageContext.appendAll`
    * `PageContext.valuesOf`
    * `PageContext.extended`
    * `PageContext.get?_appendAll`
    * `PageContext.foldl_addParameter`
    * `PageContext.setQueryString_eq`
-/

namespace PageExpr

namespace PageContext

------------------------------------------------------------
-- Values of a Name
------------------------------------------------------------

/- Add the values of pairs, each under its name. -/
def appendAll
    (pairs : List (String × String))
    (fields : Fields (List String)) : Fields (List String) :=
  pairs.foldl (fun fields (name, value) =>
    appendValue name value fields) fields

/- The values that pairs have for a name, in their order. -/
def valuesOf
    (name : String)
    (pairs : List (String × String)) : List String :=
  (pairs.filter fun pair => pair.1 = name).map Prod.snd

/- The values of more pairs follow. -/
theorem valuesOf_append
    (name : String)
    (pairs others : List (String × String)) :
    valuesOf name (pairs ++ others) =
      valuesOf name pairs ++ valuesOf name others := by
  rw [valuesOf, List.filter_append, List.map_append, valuesOf,
    valuesOf]

/- An entry with more values; no values make no entry. -/
def extended
    (entry : Option (List String)) :
    List String → Option (List String)
  | [] => entry
  | value :: values => some (entry.getD [] ++ value :: values)

/- More values may be added in two parts. -/
theorem extended_append
    (entry : Option (List String))
    (values others : List String) :
    extended entry (values ++ others) =
      extended (extended entry values) others := by
  cases values with
  | nil => rfl
  | cons value values =>
      cases others with
      | nil => rw [List.append_nil, extended]
      | cons other others => simp [extended]

/- A value is added under its name. -/
theorem get?_appendValue
    (name other value : String)
    (fields : Fields (List String)) :
    Fields.get? other (appendValue name value fields) =
      extended (Fields.get? other fields)
        (valuesOf other [(name, value)]) := by
  rw [appendValue, Fields.get?_insert]
  by_cases hName : other = name
  · subst hName
    simp [valuesOf, extended]
  · simp [valuesOf, extended, hName, Ne.symm hName]

/- Under a name are its values, behind those that were there. -/
theorem get?_appendAll
    (name : String)
    (pairs : List (String × String))
    (fields : Fields (List String)) :
    Fields.get? name (appendAll pairs fields) =
      extended (Fields.get? name fields) (valuesOf name pairs) := by
  induction pairs generalizing fields with
  | nil => rfl
  | cons pair rest ih =>
      obtain ⟨key, value⟩ := pair
      have hSplit := valuesOf_append name [(key, value)] rest
      rw [List.singleton_append] at hSplit
      have hStep :
          appendAll ((key, value) :: rest) fields =
            appendAll rest (appendValue key value fields) := rfl
      rw [hStep, ih, get?_appendValue, hSplit, extended_append]

/- Pairs may be added in two parts. -/
theorem appendAll_append
    (pairs others : List (String × String))
    (fields : Fields (List String)) :
    appendAll (pairs ++ others) fields =
      appendAll others (appendAll pairs fields) :=
  List.foldl_append

------------------------------------------------------------
-- Request Data
------------------------------------------------------------

/- Adding parameters changes nothing else. -/
theorem foldl_addParameter
    (pairs : List (String × String))
    (ctx : PageContext) :
    pairs.foldl (fun ctx (name, value) =>
        ctx.addParameter name value) ctx =
      { ctx with parameters := appendAll pairs ctx.parameters } := by
  induction pairs generalizing ctx with
  | nil => rfl
  | cons pair rest ih => exact ih (ctx.addParameter pair.1 pair.2)

/- Nor does adding headers. -/
theorem foldl_addHeader
    (pairs : List (String × String))
    (ctx : PageContext) :
    pairs.foldl (fun ctx (name, value) =>
        ctx.addHeader name value) ctx =
      { ctx with headers := appendAll pairs ctx.headers } := by
  induction pairs generalizing ctx with
  | nil => rfl
  | cons pair rest ih => exact ih (ctx.addHeader pair.1 pair.2)

/- A query string adds the parameters that it spells. -/
theorem setQueryString_eq
    (ctx : PageContext)
    (query : String) :
    ctx.setQueryString query =
      { ctx with
        parameters := appendAll (Form.parse query) ctx.parameters
        info := { ctx.info with queryString := some query } } := by
  rw [setQueryString, foldl_addParameter]

end PageContext

end PageExpr
