import PageExpr.Command.Document
import PageExpr.Proofs.Host.History
import PageExpr.Proofs.Host.RequestData

/-
  Loading a document, section by section.

  Loading goes through the sections of a document one after the
  other and stops at the first that is neither an object nor
  null nor missing.  If there is none, it gives the page context
  that is described here, into which every section has put its
  members.

  Main declarations:
    * `Document.admits`, `Document.sections`
    * `Document.members`
    * `Document.checked`
    * `Document.described`
    * `Document.ofDocument_object`
    * `Document.exists_ofDocument_iff`
    * `Document.ofDocument_eq_error_iff`
-/

namespace PageExpr

namespace Document

------------------------------------------------------------
-- Sections
------------------------------------------------------------

/- A section may be missing, null or an object. -/
def admits
    (root : Fields Json)
    (name : String) : Bool :=
  match root.get? name with
  | none => true
  | some .null => true
  | some (.object _) => true
  | some _ => false

/- The sections, in the order in which they are looked at. -/
def sections : List String :=
  ["session", "page", "request", "application", "params",
    "headers", "cookies", "initParams"]

/- The section of a name, if it is an object. -/
def held?
    (root : Fields Json)
    (name : String) : Option (Fields Json) :=
  (root.get? name).bind Json.members?

/- The members of a section, which are none if it is missing. -/
def members
    (root : Fields Json)
    (name : String) : Fields Json :=
  (held? root name).getD []

/- A result, or the first of the sections that is not admitted. -/
def checked
    {α : Type}
    (root : Fields Json)
    (names : List String)
    (result : α) : Except DocumentError α :=
  match names.find? fun name => !admits root name with
  | some name => .error (.sectionNotAnObject name)
  | none => .ok result

/- Looking at a section checks this section. -/
theorem section?_eq
    (root : Fields Json)
    (name : String) :
    Document.section? root name =
      checked root [name] (held? root name) := by
  unfold section? checked held? admits
  cases hFound : root.get? name with
  | none => simp [hFound]
  | some value => cases value <;> simp [hFound, Json.members?]

/- What is made of a result is checked as the result was. -/
theorem checked_map
    {α β : Type}
    (root : Fields Json)
    (names : List String)
    (f : α → β)
    (result : α) :
    (checked root names result).map f =
      checked root names (f result) := by
  unfold checked
  split <;> rfl

/- Checks that follow each other are one check. -/
theorem checked_bind
    {α β : Type}
    {root : Fields Json}
    {others : List String}
    {result : α}
    {last : β}
    {next : α → Except DocumentError β}
    (names : List String)
    (h : next result = checked root others last) :
    (checked root names result >>= next) =
      checked root (names ++ others) last := by
  unfold checked at h ⊢
  rw [List.find?_append]
  cases names.find? fun name => !admits root name with
  | some name => rfl
  | none => exact h

------------------------------------------------------------
-- Attributes
------------------------------------------------------------

/- Store the values of members, one after the other. -/
def storedAll
    (members : Fields Json)
    (fields : Fields Value) : Fields Value :=
  members.foldl (fun fields (name, value) =>
    PageContext.stored name (Value.ofJson value) fields) fields

/- Store the members of a scope's section in the scope. -/
def storeScope
    (root : Fields Json)
    (ctx : PageContext)
    (scope : Scope) : PageContext :=
  ctx.modifyScope (storedAll (members root scope.name)) scope

/- The members of a section are stored, if the scope is there. -/
theorem loadAttributes_eq
    {ctx : PageContext}
    {scope : Scope}
    {members : Fields Json}
    (h : members = [] ∨ ctx.attributes? scope ≠ none) :
    loadAttributes scope members ctx =
      .ok (ctx.modifyScope (storedAll members) scope) := by
  induction members generalizing ctx with
  | nil =>
      rw [loadAttributes]
      exact congrArg Except.ok (ctx.modifyScope_id scope).symm
  | cons entry rest ih =>
      obtain ⟨name, value⟩ := entry
      have hScope := h.resolve_left (List.cons_ne_nil _ _)
      rcases Option.ne_none_iff_exists'.1 hScope with ⟨fields, hFields⟩
      have hStored := PageContext.setAttribute_of_some name
        (Value.ofJson value) hFields
      have hNext :
          (ctx.modifyScope (PageContext.stored name
            (Value.ofJson value)) scope).attributes? scope ≠ none := by
        rw [PageContext.attributes?_modifyScope, if_pos rfl, hFields]
        exact Option.some_ne_none _
      rw [loadAttributes, hStored]
      simp only [ih (.inr hNext), PageContext.modifyScope_modifyScope]
      rfl

/- Storing in a scope keeps the session. -/
theorem hasSession_storeScope
    (root : Fields Json)
    (ctx : PageContext)
    (scope : Scope) :
    (storeScope root ctx scope).hasSession = ctx.hasSession := by
  rw [storeScope, PageContext.hasSession_eq_isSome,
    PageContext.attributes?_modifyScope,
    PageContext.hasSession_eq_isSome]
  split
  · exact Option.isSome_map
  · rfl

/-
  The scopes are filled if a session is there for the members
  of its section.
-/
theorem loadScopes_eq
    {root : Fields Json}
    {ctx : PageContext}
    (scopes : List Scope)
    (h : members root "session" = [] ∨ ctx.hasSession = true) :
    loadScopes root scopes ctx =
      checked root (scopes.map Scope.name)
        (scopes.foldl (storeScope root) ctx) := by
  induction scopes generalizing ctx with
  | nil => rfl
  | cons scope rest ih =>
      have hBind :
          loadScopes root (scope :: rest) ctx =
            (section? root scope.name >>= fun members? =>
              loadAttributes scope (members?.getD []) ctx >>=
                loadScopes root rest) := by
        rw [loadScopes]
        cases section? root scope.name with
        | error e => rfl
        | ok members? =>
            simp only
            cases hLoad : loadAttributes scope (members?.getD []) ctx <;>
              simp [hLoad, bind, Except.bind]
      have hScope :
          members root scope.name = [] ∨
            ctx.attributes? scope ≠ none := by
        by_cases hMissing : ctx.attributes? scope = none
        · rcases PageContext.attributes?_eq_none_iff.1 hMissing with
            ⟨rfl, hNone⟩
          rw [hNone] at h
          exact .inl (h.resolve_right Bool.false_ne_true)
        · exact .inr hMissing
      rw [hBind, section?_eq, List.map_cons, List.foldl_cons]
      apply checked_bind [scope.name]
      rw [← members, loadAttributes_eq hScope]
      exact ih (h.imp_right
        ((hasSession_storeScope root ctx scope).trans ·))

------------------------------------------------------------
-- Other Members
------------------------------------------------------------

/- A session is started if its section is an object. -/
def startedSession
    (root : Fields Json)
    (ctx : PageContext) : PageContext :=
  match held? root "session" with
  | some _ => ctx.startSession "cli-session"
  | none => ctx

/- Then there is a session for the members of the section. -/
theorem hasSession_startedSession
    (root : Fields Json)
    (ctx : PageContext) :
    members root "session" = [] ∨
      (startedSession root ctx).hasSession = true := by
  unfold members startedSession
  cases held? root "session" with
  | none => exact .inl rfl
  | some found => exact .inr rfl

/- Starting a session looks at its section. -/
theorem loadSession_eq
    (root : Fields Json)
    (ctx : PageContext) :
    loadSession root ctx =
      checked root ["session"] (startedSession root ctx) := by
  rw [loadSession, section?_eq, checked_map]
  rfl

/- The members of a section are loaded if it is admitted. -/
theorem loadSection_eq
    (root : Fields Json)
    (name : String)
    (load : PageContext → String → Json → PageContext)
    (ctx : PageContext) :
    loadSection root name load ctx =
      checked root [name]
        ((members root name).foldl (fun ctx (name, value) =>
          load ctx name value) ctx) := by
  rw [loadSection, section?_eq, checked_map]
  rfl

/- The query string, if it is one. -/
def query?
    (root : Fields Json) : Option String :=
  (root.get? "query").bind Json.string?

/- The pairs of the query string. -/
def queryPairs
    (root : Fields Json) : List (String × String) :=
  ((query? root).map Form.parse).getD []

/- The values that members list, each with its name. -/
def listedPairs
    (members : Fields Json) : List (String × String) :=
  members.flatMap fun (name, value) =>
    (multiValues value).map fun text => (name, text)

/- Cookies with the names and the texts of members. -/
def listedCookies
    (members : Fields Json) : List Cookie :=
  members.map fun (name, value) =>
    { name := name, value := scalarText value }

/- The query string adds its pairs to the parameters. -/
theorem loadQuery_eq
    (root : Fields Json)
    (ctx : PageContext)
    (h : ctx.info.queryString = none) :
    loadQuery root ctx =
      { ctx with
        parameters :=
          PageContext.appendAll (queryPairs root) ctx.parameters
        info := { ctx.info with queryString := query? root } } := by
  unfold loadQuery queryPairs
  rw [← query?]
  cases hQuery : query? root with
  | none =>
      have hInfo : { ctx.info with queryString := none } = ctx.info := by
        rw [← h]
      simp only [hInfo]
      rfl
  | some query => exact PageContext.setQueryString_eq ctx query

/- Parameters are added with all their values. -/
theorem foldl_loadParameter
    (members : Fields Json)
    (ctx : PageContext) :
    members.foldl (fun ctx (name, value) =>
        loadParameter ctx name value) ctx =
      { ctx with
        parameters :=
          PageContext.appendAll (listedPairs members)
            ctx.parameters } := by
  rw [← PageContext.foldl_addParameter, listedPairs,
    List.foldl_flatMap]
  simp only [loadParameter, List.foldl_map]

/- Headers are as well. -/
theorem foldl_loadHeader
    (members : Fields Json)
    (ctx : PageContext) :
    members.foldl (fun ctx (name, value) =>
        loadHeader ctx name value) ctx =
      { ctx with
        headers :=
          PageContext.appendAll (listedPairs members)
            ctx.headers } := by
  rw [← PageContext.foldl_addHeader, listedPairs,
    List.foldl_flatMap]
  simp only [loadHeader, List.foldl_map]

/- Cookies are added in their order. -/
theorem foldl_loadCookie
    (members : Fields Json)
    (ctx : PageContext) :
    members.foldl (fun ctx (name, value) =>
        loadCookie ctx name value) ctx =
      { ctx with cookies := ctx.cookies ++ listedCookies members } := by
  induction members generalizing ctx with
  | nil => simp [listedCookies]
  | cons entry rest ih =>
      rw [List.foldl_cons, ih]
      simp [loadCookie, PageContext.addCookie, listedCookies]

/- Init parameters are put in one by one. -/
theorem foldl_loadInitParameter
    (members : Fields Json)
    (ctx : PageContext) :
    members.foldl (fun ctx (name, value) =>
        loadInitParameter ctx name value) ctx =
      { ctx with
        initParameters :=
          members.foldl (fun fields (name, value) =>
            fields.insert name (scalarText value))
            ctx.initParameters } := by
  induction members generalizing ctx with
  | nil => rfl
  | cons entry rest ih =>
      exact ih (loadInitParameter ctx entry.1 entry.2)

------------------------------------------------------------
-- Whole Documents
------------------------------------------------------------

/- The page context that the sections of a document describe. -/
def described
    (root : Fields Json) : PageContext where
  page := storedAll (members root "page") []
  request := storedAll (members root "request") []
  session :=
    (held? root "session").map fun members =>
      ⟨"cli-session", storedAll members []⟩
  application := storedAll (members root "application") []
  info := { queryString := query? root }
  parameters :=
    PageContext.appendAll
      (queryPairs root ++ listedPairs (members root "params")) []
  headers :=
    PageContext.appendAll (listedPairs (members root "headers")) []
  cookies := listedCookies (members root "cookies")
  initParameters :=
    Fields.ofList
      (Fields.mapValues scalarText (members root "initParams"))

/- The scopes are filled with the members of their sections. -/
theorem foldl_storeScope
    (root : Fields Json) :
    Scope.searchOrder.foldl (storeScope root)
        (startedSession root {}) =
      { page := storedAll (members root "page") []
        request := storedAll (members root "request") []
        session :=
          (held? root "session").map fun members =>
            ⟨"cli-session", storedAll members []⟩
        application :=
          storedAll (members root "application") [] } := by
  unfold startedSession
  cases hHeld : held? root "session" with
  | none => rfl
  | some found =>
      have hMembers : members root "session" = found := by
        rw [members, hHeld, Option.getD_some]
      simp [Scope.searchOrder, storeScope, PageContext.modifyScope,
        PageContext.startSession, Scope.name, hMembers]

/- The session is looked at once more among the scopes. -/
theorem checked_sections
    {α : Type}
    (root : Fields Json)
    (result : α) :
    checked root
        (["session"] ++ (Scope.searchOrder.map Scope.name ++
          (["params"] ++ (["headers"] ++
            (["cookies"] ++ ["initParams"])))))
        result =
      checked root sections result := by
  unfold checked
  cases hSession : admits root "session" <;>
    simp [sections, Scope.searchOrder, Scope.name, List.find?_cons,
      hSession]

/- Loading checks the sections, and describes the page context. -/
theorem ofDocument_object
    (root : Fields Json) :
    PageContext.ofDocument (.object root) =
      checked root sections (described root) := by
  simp only [PageContext.ofDocument, loadSession_eq]
  rw [← checked_sections]
  apply checked_bind
  rw [loadScopes_eq _ (hasSession_startedSession root {}),
    foldl_storeScope]
  apply checked_bind
  rw [loadQuery_eq _ _ rfl, loadSection_eq, foldl_loadParameter,
    ← PageContext.appendAll_append]
  apply checked_bind
  rw [loadSection_eq, foldl_loadHeader]
  apply checked_bind
  rw [loadSection_eq, foldl_loadCookie, List.nil_append]
  apply checked_bind
  rw [loadSection_eq, foldl_loadInitParameter, described,
    Fields.ofList, Fields.mapValues, List.foldl_map]

/- A result comes out if all sections are admitted. -/
theorem checked_eq_ok_iff
    {α : Type}
    {root : Fields Json}
    {names : List String}
    {result other : α} :
    checked root names result = .ok other ↔
      (∀ name ∈ names, admits root name = true) ∧
        result = other := by
  have hNone :
      (names.find? fun name => !admits root name) = none ↔
        ∀ name ∈ names, admits root name = true := by
    simp [List.find?_eq_none]
  rw [← hNone]
  unfold checked
  cases names.find? fun name => !admits root name <;> simp

/- An error names the first section that is not admitted. -/
theorem checked_eq_error_iff
    {α : Type}
    {root : Fields Json}
    {names : List String}
    {result : α}
    {e : DocumentError} :
    checked root names result = .error e ↔
      ∃ before name after, names = before ++ name :: after ∧
        (∀ other ∈ before, admits root other = true) ∧
          admits root name = false ∧ e = .sectionNotAnObject name := by
  unfold checked
  constructor
  · intro h
    split at h
    · rename_i name hFirst
      cases h
      rcases List.find?_eq_some_iff_append.1 hFirst with
        ⟨hName, before, after, hSplit, hBefore⟩
      refine ⟨before, name, after, hSplit, fun other hMem => ?_, ?_,
        rfl⟩
      · simpa using hBefore other hMem
      · simpa using hName
    · cases h
  · rintro ⟨before, name, after, hSplit, hBefore, hName, rfl⟩
    have hFirst :
        (names.find? fun name => !admits root name) = some name := by
      rw [List.find?_eq_some_iff_append]
      refine ⟨by simp [hName], before, after, hSplit, ?_⟩
      intro other hMem
      simp [hBefore other hMem]
    rw [hFirst]

------------------------------------------------------------
-- Success and Failure
------------------------------------------------------------

/- A document is loaded if all its sections are admitted. -/
theorem exists_ofDocument_iff
    (document : Json) :
    (∃ ctx, PageContext.ofDocument document = .ok ctx) ↔
      ∃ root, document = .object root ∧
        ∀ name ∈ sections, admits root name = true := by
  constructor
  · rintro ⟨ctx, h⟩
    cases document with
    | object root =>
        rw [ofDocument_object, checked_eq_ok_iff] at h
        exact ⟨root, rfl, h.1⟩
    | _ => cases h
  · rintro ⟨root, rfl, hAdmits⟩
    exact ⟨described root, (ofDocument_object root).trans
      (checked_eq_ok_iff.2 ⟨hAdmits, rfl⟩)⟩

/- Else it is no object, or its first bad section is named. -/
theorem ofDocument_eq_error_iff
    {document : Json}
    {e : DocumentError} :
    PageContext.ofDocument document = .error e ↔
      (document.members? = none ∧ e = .notAnObject) ∨
        ∃ root before name after, document = .object root ∧
          sections = before ++ name :: after ∧
          (∀ other ∈ before, admits root other = true) ∧
          admits root name = false ∧
          e = .sectionNotAnObject name := by
  cases document with
  | object root =>
      rw [ofDocument_object, checked_eq_error_iff]
      simp [Json.members?]
  | _ =>
      constructor
      · intro h
        cases h
        exact .inl ⟨rfl, rfl⟩
      · rintro (⟨-, rfl⟩ | ⟨root, before, name, after, hRoot, -⟩)
        · rfl
        · cases hRoot

end Document

end PageExpr
