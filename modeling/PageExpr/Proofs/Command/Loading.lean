import PageExpr.Command.Check
import PageExpr.Proofs.Command.Sections
import PageExpr.Proofs.Host.QueryString
import PageExpr.Proofs.Json.Ordered
import PageExpr.Proofs.Json.Writing

/-
  The page context that a document describes.

  The rules below say which texts the members of a section list,
  by the texts of documents and the pairs of query strings.  The
  page context that is loaded has these values, cookies and init
  parameters and no others, and the attributes are the members
  of the scopes' sections.

  Main declarations:
    * `Document.Shows`, `Document.Lists`
    * `Document.Loads`
    * `Document.loads_described`
    * `Document.Loads.get?_parameters`
    * `PageContext.loading_is_exact`
-/

namespace PageExpr

namespace Document

------------------------------------------------------------
-- What Is Loaded
------------------------------------------------------------

/- The value of a member that is not null. -/
def present? : Json → Option Value
  | .null => none
  | value => some (Value.ofJson value)

/-
  The text that a value shows: a string shows itself, and any
  other value its compact text, which the rules for the texts of
  documents allow.
-/
inductive Shows : Json → String → Prop where
  | string (s : String) : Shows (.string s) s
  | other
      {value : Json}
      (hOther : ∀ s, value ≠ .string s)
      (hText : value.Written value.compact) :
      Shows value value.compact

/-
  The texts that a value lists: of an array those that its items
  show, and of any other value the one that it shows.
-/
inductive Lists : Json → List String → Prop where
  | array
      {items : List Json} {texts : List String}
      (hItems : List.Forall₂ Shows items texts) :
      Lists (.array items) texts
  | other
      {value : Json} {text : String}
      (hOther : ∀ items, value ≠ .array items)
      (hText : Shows value text) :
      Lists value [text]

/- The texts that members list under a name, if they have it. -/
def ListsUnder
    (name : String)
    (members : Fields Json)
    (texts : List String) : Prop :=
  match members.get? name with
  | some value => Lists value texts
  | none => texts = []

/- The pairs of the query string, if there is one. -/
def Queries
    (root : Fields Json)
    (pairs : List (String × String)) : Prop :=
  match root.get? "query" with
  | some (.string query) => Form.Reads query pairs
  | _ => pairs = []

/- A member as a cookie without other properties. -/
def ShowsCookie
    (member : String × Json)
    (cookie : Cookie) : Prop :=
  ∃ text,
    Shows member.2 text ∧
      cookie =
        { name := member.1
          value := text
          path := none
          domain := none
          maxAge := -1
          secure := false }

/- A member as an entry of the same name. -/
def ShowsEntry
    (member : String × Json)
    (entry : String × String) : Prop :=
  entry.1 = member.1 ∧ Shows member.2 entry.2

/-
  The page context holds what the sections of the document
  list, and nothing else.  The engine is configured with the
  same init parameters.
-/
structure Loads
    (root : Fields Json)
    (ctx : PageContext) : Prop where
  session :
    ctx.hasSession = true ↔
      ∃ members, root.get? "session" = some (.object members)
  attributes :
    ∀ scope name,
      ctx.attribute? scope name =
        ((members root scope.name).get? name).bind present?
  parameters :
    ∃ pairs, Queries root pairs ∧
      ∀ name, ∃ texts,
        ListsUnder name (members root "params") texts ∧
          ctx.parameters.get? name =
            PageContext.extended none
              (PageContext.valuesOf name pairs ++ texts)
  headers :
    ∀ name, ∃ texts,
      ListsUnder name (members root "headers") texts ∧
        ctx.headers.get? name = PageContext.extended none texts
  cookies :
    List.Forall₂ ShowsCookie (members root "cookies") ctx.cookies
  initParameters :
    List.Forall₂ ShowsEntry (members root "initParams")
      ctx.initParameters
  configuration :
    Document.initParameters (.object root) = ctx.initParameters
  info :
    ctx.info = { queryString := query? root }

/- The values that a member lists under a name. -/
def listed
    (members : Fields Json)
    (name : String) : List String :=
  ((members.get? name).map multiValues).getD []

/- A value shows the text that is taken for it. -/
theorem shows_scalarText
    (value : Json) :
    Shows value (scalarText value) := by
  cases value with
  | string s => exact .string s
  | _ => exact .other nofun (Json.written_compact _)

/- A value lists the texts that are taken from it. -/
theorem lists_multiValues
    (value : Json) :
    Lists value (multiValues value) := by
  cases value with
  | array items =>
      rw [multiValues]
      refine .array ?_
      rw [List.forall₂_map_right_iff]
      exact List.forall₂_same.2 fun item _ => shows_scalarText item
  | _ => exact .other nofun (shows_scalarText _)

/- So do members under each name. -/
theorem listsUnder_listed
    (name : String)
    (members : Fields Json) :
    ListsUnder name members (listed members name) := by
  unfold ListsUnder listed
  cases members.get? name with
  | none => rfl
  | some value => exact lists_multiValues value

/- The pairs of the query string are those that it stands for. -/
theorem queries_queryPairs
    (root : Fields Json) :
    Queries root (queryPairs root) := by
  unfold Queries queryPairs query?
  cases root.get? "query" with
  | none => rfl
  | some value =>
      cases value with
      | string query => exact Form.parse_eq_iff.1 rfl
      | _ => rfl

/- No other pairs are. -/
theorem Queries.queryPairs_eq
    {root : Fields Json}
    {pairs : List (String × String)}
    (h : Queries root pairs) :
    queryPairs root = pairs := by
  unfold Queries at h
  unfold queryPairs query?
  cases hFound : root.get? "query" with
  | none =>
      rw [hFound] at h
      exact h.symm
  | some value =>
      rw [hFound] at h
      cases value with
      | string query => exact Form.parse_eq_iff.2 h
      | _ => exact h.symm

/- Members show the cookies that are made of them. -/
theorem showsCookie_listedCookies
    (members : Fields Json) :
    List.Forall₂ ShowsCookie members (listedCookies members) := by
  rw [listedCookies, List.forall₂_map_right_iff]
  exact List.forall₂_same.2 fun member _ =>
    ⟨_, shows_scalarText member.2, rfl⟩

/- Members show the entries that are made of them. -/
theorem showsEntry_mapValues
    (members : Fields Json) :
    List.Forall₂ ShowsEntry members
      (members.mapValues scalarText) := by
  rw [Fields.mapValues, List.forall₂_map_right_iff]
  exact List.forall₂_same.2 fun member _ =>
    ⟨rfl, shows_scalarText member.2⟩

/- A section is held if it is an object. -/
theorem isSome_held?_iff
    {root : Fields Json}
    {name : String} :
    (held? root name).isSome = true ↔
      ∃ members, root.get? name = some (.object members) := by
  unfold held?
  cases root.get? name with
  | none => simp
  | some value => cases value <;> simp [Json.members?]

/- The init parameters of a document are those of its section. -/
theorem initParameters_object
    (root : Fields Json) :
    initParameters (.object root) =
      (members root "initParams").mapValues scalarText := by
  rw [initParameters, Json.member?, ← held?, members]
  cases held? root "initParams" <;> rfl

/- The members of an ordered document's section are in order. -/
theorem sorted_members
    {root : Fields Json}
    (name : String)
    (h : Json.Ordered (.object root)) :
    Fields.Sorted (members root name) := by
  unfold members held?
  cases hFound : root.get? name with
  | none => exact List.Pairwise.nil
  | some value =>
      have hValue := h.member hFound
      cases value with
      | object found => exact hValue.sorted
      | _ => exact List.Pairwise.nil

/- A number has a value other than null. -/
theorem isNull_ofJsonNumber
    (n : JsonNumber) :
    (Value.ofJsonNumber n).isNull = false := by
  unfold Value.ofJsonNumber
  split
  · split <;> rfl
  · rfl

/- Only null is stored by removing what was there. -/
theorem present?_eq
    (value : Json) :
    present? value =
      if (Value.ofJson value).isNull then none
      else some (Value.ofJson value) := by
  cases value with
  | number n => simp [present?, Value.ofJson, isNull_ofJsonNumber]
  | _ => rfl

/- A stored attribute is the value of its member. -/
theorem get?_storedAll
    {members : Fields Json}
    (hDistinct : Fields.Distinct members)
    (name : String) :
    Fields.get? name (storedAll members []) =
      (Fields.get? name members).bind present? := by
  have hStep (fields : Fields Value) (key : String) (value : Json)
      (other : String) :
      Fields.get? other
          (PageContext.stored key (Value.ofJson value) fields) =
        if other = key then present? value
        else Fields.get? other fields := by
    rw [PageContext.get?_stored, present?_eq]
  have hFold :=
    Fields.get?_foldl
      (fun fields key value =>
        PageContext.stored key (Value.ofJson value) fields)
      (fun value _ => present? value) hStep hDistinct [] name
  rw [storedAll, hFold]
  cases Fields.get? name members <;> rfl

/- The values of a name are those that its member lists. -/
theorem valuesOf_listedPairs
    {members : Fields Json}
    (hDistinct : Fields.Distinct members)
    (name : String) :
    PageContext.valuesOf name (listedPairs members) =
      listed members name := by
  induction members with
  | nil => rfl
  | cons entry rest ih =>
      obtain ⟨key, value⟩ := entry
      obtain ⟨hFirst, hRest⟩ := List.nodup_cons.1 hDistinct
      have hSplit :
          listedPairs ((key, value) :: rest) =
            (multiValues value).map (fun text => (key, text)) ++
              listedPairs rest :=
        List.flatMap_cons
      have hFound :
          Fields.get? name ((key, value) :: rest) =
            if name = key then some value
            else Fields.get? name rest := rfl
      rw [hSplit, PageContext.valuesOf_append, ih hRest, listed,
        listed, hFound]
      by_cases hName : name = key
      · subst hName
        rw [Fields.get?_eq_none_iff.2 hFirst, if_pos rfl]
        simp [PageContext.valuesOf, List.filter_map,
          Function.comp_def]
      · rw [if_neg hName]
        simp [PageContext.valuesOf, List.filter_map,
          Function.comp_def, Ne.symm hName]

/- An attribute that is described is a member of its section. -/
theorem attribute?_described
    {root : Fields Json}
    (h : Json.Ordered (.object root))
    (scope : Scope)
    (name : String) :
    (described root).attribute? scope name =
      ((members root scope.name).get? name).bind present? := by
  have hScope :=
    get?_storedAll (sorted_members scope.name h).distinct name
  rw [PageContext.attribute?]
  cases scope with
  | session =>
      -- Without a section there is no session, and no member.
      have hMembers :
          members root (Scope.name .session) =
            (held? root "session").getD [] := rfl
      rw [hMembers] at hScope ⊢
      rw [PageContext.attributes?, described]
      cases hHeld : held? root "session" with
      | none => rfl
      | some found =>
          rw [hHeld] at hScope
          exact hScope
  | _ => exact hScope

/- What a document describes holds what its sections list. -/
theorem loads_described
    {root : Fields Json}
    (h : Json.Ordered (.object root)) :
    Loads root (described root) := by
  have hSorted := fun name => sorted_members name h
  have hDistinct := fun name => (hSorted name).distinct
  have hInit :
      (described root).initParameters =
        (members root "initParams").mapValues scalarText :=
    Fields.ofList_of_sorted
      (Fields.sorted_mapValues scalarText (hSorted "initParams"))
  constructor
  case session =>
    rw [PageContext.hasSession, described, Option.isSome_map,
      isSome_held?_iff]
  case attributes => exact attribute?_described h
  case parameters =>
    refine ⟨_, queries_queryPairs root, fun name =>
      ⟨_, listsUnder_listed name _, ?_⟩⟩
    rw [← valuesOf_listedPairs (hDistinct "params") name,
      ← PageContext.valuesOf_append]
    exact PageContext.get?_appendAll name _ []
  case headers =>
    refine fun name => ⟨_, listsUnder_listed name _, ?_⟩
    rw [← valuesOf_listedPairs (hDistinct "headers") name]
    exact PageContext.get?_appendAll name _ []
  case cookies => exact showsCookie_listedCookies _
  case initParameters =>
    rw [hInit]
    exact showsEntry_mapValues _
  case configuration =>
    exact (initParameters_object root).trans hInit.symm
  case info => rfl

------------------------------------------------------------
-- No Other Page Context
------------------------------------------------------------

/- A value shows no other text. -/
theorem Shows.eq_scalarText
    {value : Json}
    {text : String}
    (h : Shows value text) :
    scalarText value = text := by
  cases h with
  | string s => rfl
  | other hOther hText =>
      cases value with
      | string s => exact absurd rfl (hOther s)
      | _ => rfl

/- Members list no other texts. -/
theorem ListsUnder.eq_listed
    {name : String}
    {members : Fields Json}
    {texts : List String}
    (h : ListsUnder name members texts) :
    listed members name = texts := by
  unfold ListsUnder at h
  unfold listed
  cases hFound : members.get? name with
  | none =>
      rw [hFound] at h
      exact h.symm
  | some value =>
      rw [hFound] at h
      cases h with
      | array hItems =>
          exact Json.map_eq_of_forall₂ hItems
            fun _ _ _ => Shows.eq_scalarText
      | other hOther hText =>
          rw [← hText.eq_scalarText]
          cases value with
          | array items => exact absurd rfl (hOther items)
          | _ => rfl

namespace Loads

variable {root : Fields Json} {ctx : PageContext}

/- The rules leave no choice of the parameters. -/
theorem get?_parameters
    (h : Loads root ctx)
    (name : String) :
    ctx.parameters.get? name =
      PageContext.extended none
        (PageContext.valuesOf name (queryPairs root) ++
          listed (members root "params") name) := by
  rcases h.parameters with ⟨pairs, hQueries, hNames⟩
  rcases hNames name with ⟨texts, hTexts, hFound⟩
  rw [hFound, hQueries.queryPairs_eq, hTexts.eq_listed]

/- Nor of the headers. -/
theorem get?_headers
    (h : Loads root ctx)
    (name : String) :
    ctx.headers.get? name =
      PageContext.extended none
        (listed (members root "headers") name) := by
  rcases h.headers name with ⟨texts, hTexts, hFound⟩
  rw [hFound, hTexts.eq_listed]

/- Nor of the cookies. -/
theorem cookies_eq
    (h : Loads root ctx) :
    ctx.cookies = listedCookies (members root "cookies") := by
  refine (Json.map_eq_of_forall₂ h.cookies ?_).symm
  rintro member - _ ⟨text, hText, rfl⟩
  rw [← hText.eq_scalarText]

/- Nor of the init parameters. -/
theorem initParameters_eq
    (h : Loads root ctx) :
    ctx.initParameters =
      (members root "initParams").mapValues scalarText := by
  refine (Json.map_eq_of_forall₂ h.initParameters ?_).symm
  rintro member - entry ⟨hName, hText⟩
  exact Prod.ext hName.symm hText.eq_scalarText

end Loads

------------------------------------------------------------
-- Documents of Checks
------------------------------------------------------------

/- The document of a check is read from a text, or is empty. -/
theorem ordered_of_check
    {check : Check}
    {document : Json}
    (h : check.document = .ok document) :
    document.Ordered := by
  unfold Check.document at h
  split at h
  · cases h
    exact Json.ordered_object_nil
  · split at h <;> cases h
    rename_i hParse
    exact Json.ordered_of_parse? hParse

/- What is loaded holds what the sections list. -/
theorem loads_of_ofDocument
    {root : Fields Json}
    {ctx : PageContext}
    (hOrdered : Json.Ordered (.object root))
    (h : PageContext.ofDocument (.object root) = .ok ctx) :
    Loads root ctx := by
  rw [ofDocument_object, checked_eq_ok_iff] at h
  rw [← h.2]
  exact loads_described hOrdered

end Document

------------------------------------------------------------
-- Loading
------------------------------------------------------------

namespace PageContext

open Document

/-
  A document is loaded just if it is an object and its sections
  are admitted; otherwise the first section that is not is
  named, so storing an attribute never fails.  Then the page
  context holds what the sections list.  The documents of checks
  have their members in order.
-/
theorem loading_is_exact :
    (∀ (check : Check) document,
      check.document = .ok document → document.Ordered) ∧
    (∀ document,
      (∃ ctx, ofDocument document = .ok ctx) ↔
        ∃ root, document = .object root ∧
          ∀ name ∈ sections, admits root name = true) ∧
    (∀ document e,
      ofDocument document = .error e ↔
        (document.members? = none ∧ e = .notAnObject) ∨
        ∃ root before name after, document = .object root ∧
          sections = before ++ name :: after ∧
          (∀ other ∈ before, admits root other = true) ∧
          admits root name = false ∧
          e = .sectionNotAnObject name) ∧
    (∀ root ctx, Json.Ordered (.object root) →
      ofDocument (.object root) = .ok ctx → Loads root ctx) :=
  ⟨fun _ _ => ordered_of_check, exists_ofDocument_iff,
    fun _ _ => ofDocument_eq_error_iff,
    fun _ _ => loads_of_ofDocument⟩

/- A document with each kind of section. -/
def mixedDocument : Fields Json :=
  [("cookies", .object [("k", .boolean false)]),
    ("headers", .object
      [("h", .array [.string "u", .null]), ("i", .string "w")]),
    ("initParams", .object
      [("n", .number (.whole (-3) (by decide))),
        ("s", .string "v")]),
    ("params", .object
      [("a", .array
          [.string "x", .number (.whole 2 (by decide)),
            .array [.boolean true, .string "\""]]),
        ("b", .object []), ("c", .array []),
        ("d", .number (.float (.ofInt 3) (by decide +kernel)))]),
    ("query", .string "a=1&a"),
    ("session", .object [("b", .null), ("c", .string "x")])]

/- Its names rise. -/
theorem ordered_mixedDocument :
    Json.Ordered (.object mixedDocument) := by
  simp +decide [mixedDocument]

/-
  A session with a member that is null, parameters of the query
  string in front of others, values that are no strings, and a
  page that is no object in front of headers that are none.
-/
theorem loading_is_exact_mixed :
    (∃ ctx,
      ofDocument (.object mixedDocument) = .ok ctx ∧
        ctx.hasSession = true ∧
        ctx.attribute? .session "b" = none ∧
        ctx.attribute? .session "c" = some (.string "x") ∧
        ctx.parameters.get? "a" =
          some ["1", "", "x", "2", "[true,\"\\\"\"]"] ∧
        ctx.parameters.get? "b" = some ["\x7b\x7d"] ∧
        ctx.parameters.get? "c" = none ∧
        ctx.parameters.get? "d" = some ["3.0"] ∧
        ctx.headers.get? "h" = some ["u", "null"] ∧
        ctx.headers.get? "i" = some ["w"] ∧
        ctx.cookies = [{ name := "k", value := "false" }] ∧
        ctx.initParameters = [("n", "-3"), ("s", "v")]) ∧
      ofDocument
          (.object
            [("headers", .boolean true), ("page", .string "")]) =
        .error (.sectionNotAnObject "page") := by
  rcases loading_is_exact with ⟨-, hOk, hError, hLoads⟩
  have hAdmits :
      ∀ name ∈ sections, admits mixedDocument name = true := by
    decide
  rcases (hOk (.object mixedDocument)).2 ⟨_, rfl, hAdmits⟩ with
    ⟨ctx, hLoaded⟩
  have hCtx := hLoads _ ctx ordered_mixedDocument hLoaded
  refine ⟨⟨ctx, hLoaded, hCtx.session.2 ⟨_, rfl⟩,
    hCtx.attributes .session "b", hCtx.attributes .session "c",
    ?_, ?_, ?_, ?_, ?_, ?_, ?_, ?_⟩, ?_⟩
  · rw [hCtx.get?_parameters]
    decide +kernel
  · rw [hCtx.get?_parameters]
    decide +kernel
  · rw [hCtx.get?_parameters]
    decide +kernel
  · rw [hCtx.get?_parameters]
    decide +kernel
  · rw [hCtx.get?_headers]
    decide +kernel
  · rw [hCtx.get?_headers]
    decide +kernel
  · rw [hCtx.cookies_eq]
    decide +kernel
  · rw [hCtx.initParameters_eq]
    decide +kernel
  · exact (hError _ _).2
      (.inr ⟨_, ["session"], "page", _, rfl, rfl, by decide, rfl, rfl⟩)

end PageContext

end PageExpr
