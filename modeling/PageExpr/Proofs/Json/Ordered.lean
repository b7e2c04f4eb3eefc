import PageExpr.Json.Reader
import PageExpr.Proofs.Value.Entries

/-
  The objects of a document that is read are in order.

  In an ordered document the names of every object rise, so no
  object has two members of one name.  The tokens that stand for
  values have no parts, and the machine puts each member in its
  place: whatever it holds stays ordered with each token.

  Main declarations:
    * `Json.Ordered`
    * `Json.Ordered.insert`
    * `Json.Machine.State.Ordered`
    * `Json.Machine.ordered_step?`
    * `Json.Machine.ordered_run?`
    * `Json.ordered_of_parse?`
-/

namespace PageExpr

namespace Json

------------------------------------------------------------
-- Ordered Documents
------------------------------------------------------------

/- In every object of the document the names rise. -/
inductive Ordered : Json → Prop where
  | null : Ordered .null
  | boolean (b : Bool) : Ordered (.boolean b)
  | number (n : JsonNumber) : Ordered (.number n)
  | string (s : String) : Ordered (.string s)
  | array
      {items : List Json}
      (hItems : ∀ item ∈ items, Ordered item) :
      Ordered (.array items)
  | object
      {members : List (String × Json)}
      (hSorted : Fields.Sorted members)
      (hMembers : ∀ entry ∈ members, Ordered entry.2) :
      Ordered (.object members)

attribute [simp] Ordered.null Ordered.boolean Ordered.number
  Ordered.string

/- An array is ordered if its items are. -/
@[simp]
theorem ordered_array_iff
    {items : List Json} :
    Ordered (.array items) ↔ ∀ item ∈ items, item.Ordered :=
  ⟨fun | .array hItems => hItems, .array⟩

/- An object is ordered if its names rise and its members are. -/
@[simp]
theorem ordered_object_iff
    {members : List (String × Json)} :
    Ordered (.object members) ↔
      Fields.Sorted members ∧ ∀ entry ∈ members, entry.2.Ordered :=
  ⟨fun | .object hSorted hMembers => ⟨hSorted, hMembers⟩,
    fun h => .object h.1 h.2⟩

/- The names of an ordered object rise. -/
theorem Ordered.sorted
    {members : Fields Json}
    (h : Ordered (.object members)) :
    Fields.Sorted members := by
  cases h with
  | object hSorted hMembers => exact hSorted

/- The members of an ordered object are ordered. -/
theorem Ordered.member
    {members : Fields Json}
    {name : String}
    {value : Json}
    (h : Ordered (.object members))
    (hFound : Fields.get? name members = some value) :
    value.Ordered := by
  cases h with
  | object hSorted hMembers =>
      exact hMembers _ (Fields.mem_of_get? hFound)

/- An object without members is ordered. -/
theorem ordered_object_nil :
    Ordered (.object []) :=
  .object List.Pairwise.nil (List.forall_mem_nil _)

/- An ordered member that is put in its place keeps the order. -/
theorem Ordered.insert
    {members : Fields Json}
    {value : Json}
    (name : String)
    (h : Ordered (.object members))
    (hValue : value.Ordered) :
    Ordered (.object (members.insert name value)) := by
  cases h with
  | object hSorted hMembers =>
      refine .object (Fields.sorted_insert hSorted) ?_
      intro entry hEntry
      rcases Fields.mem_insert hEntry with rfl | hEntry
      · exact hValue
      · exact hMembers entry hEntry

------------------------------------------------------------
-- Tokens
------------------------------------------------------------

/- The value of a token, if it has one, is ordered. -/
def Token.Ordered : Token → Prop
  | .scalar value => value.Ordered
  | _ => True

/- The number of a numeral is ordered. -/
theorem ordered_of_number?
    {n : Numeral}
    {value : Json}
    (h : number? n = some value) :
    value.Ordered := by
  unfold number? at h
  simp only at h
  split at h
  · cases h
    exact .number _
  · rw [Option.bind_eq_some_iff] at h
    rcases h with ⟨x, -, hNumber⟩
    split at hNumber <;> cases hNumber
    exact .number _

namespace Scanner

/- So is the token of a number. -/
theorem ordered_of_number?
    {cs : List Char}
    {token : Token}
    {length : Nat}
    (h : number? cs = some (token, length)) :
    token.Ordered := by
  unfold number? at h
  simp only at h
  split at h
  · cases h
  · cases h
  · rw [Option.map_eq_some_iff] at h
    rcases h with ⟨value, hValue, hPair⟩
    cases hPair
    exact Json.ordered_of_number? hValue

/- So is the token of a word. -/
theorem ordered_of_word?
    {cs : List Char}
    {token : Token}
    {length : Nat}
    (h : word? cs = some (token, length)) :
    token.Ordered := by
  unfold word? at h
  split at h
  · cases h
    exact .null
  · split at h
    · cases h
      exact .boolean true
    · split at h <;> cases h
      exact .boolean false

/- The value of a token has no parts. -/
theorem ordered_of_token?
    {c : Char}
    {cs : List Char}
    {token : Token}
    {length : Nat}
    (h : token? c cs = some (token, length)) :
    token.Ordered := by
  unfold token? at h
  split at h
  case h_7 =>
    rw [Option.map_eq_some_iff] at h
    rcases h with ⟨content, -, hPair⟩
    cases hPair
    trivial
  case h_8 =>
    split at h
    · exact ordered_of_number? h
    · exact ordered_of_word? h
  all_goals
    cases h
    trivial

/- All tokens of a text have ordered values. -/
theorem ordered_of_tokens?
    {owed : Nat}
    {cs : List Char}
    {tokens : List Token}
    (h : tokens? owed cs = some tokens) :
    ∀ token ∈ tokens, token.Ordered := by
  induction cs generalizing owed tokens with
  | nil =>
      cases h
      exact List.forall_mem_nil _
  | cons c cs ih =>
      unfold tokens? at h
      split at h
      · exact ih h
      · split at h
        · exact ih h
        · split at h
          · cases h
          · rename_i token length hToken
            rw [Option.map_eq_some_iff] at h
            rcases h with ⟨rest, hRest, rfl⟩
            exact List.forall_mem_cons.2
              ⟨ordered_of_token? hToken, ih hRest⟩

end Scanner

------------------------------------------------------------
-- The Machine
------------------------------------------------------------

namespace Machine

/- What is open holds ordered documents. -/
def Frame.Ordered : Frame → Prop
  | .array reversed => ∀ item ∈ reversed, item.Ordered
  | .object members _ => (Json.object members).Ordered

/- Whatever the machine holds is ordered. -/
def State.Ordered : State → Prop
  | .value stack => ∀ frame ∈ stack, frame.Ordered
  | .firstItem stack => ∀ frame ∈ stack, frame.Ordered
  | .firstKey stack => ∀ frame ∈ stack, frame.Ordered
  | .key members stack =>
      (Json.object members).Ordered ∧ ∀ frame ∈ stack, frame.Ordered
  | .colon members _ stack =>
      (Json.object members).Ordered ∧ ∀ frame ∈ stack, frame.Ordered
  | .after v stack => v.Ordered ∧ ∀ frame ∈ stack, frame.Ordered

/- Where a value is expected the machine stays ordered. -/
theorem ordered_stepValue?
    (limit : Nat)
    {stack : List Frame}
    {token : Token}
    {next : State}
    (hStack : ∀ frame ∈ stack, frame.Ordered)
    (hToken : token.Ordered)
    (h : stepValue? limit stack token = some next) :
    next.Ordered := by
  cases token with
  | openArray =>
      rw [stepValue?] at h
      split at h <;> cases h
      exact hStack
  | openObject =>
      rw [stepValue?] at h
      split at h <;> cases h
      exact hStack
  | scalar value =>
      cases h
      exact ⟨hToken, hStack⟩
  | string s =>
      cases h
      exact ⟨.string s, hStack⟩
  | _ => cases h

/- Behind a value the machine stays ordered. -/
theorem ordered_stepAfter?
    {value : Json}
    {stack : List Frame}
    {token : Token}
    {next : State}
    (hValue : value.Ordered)
    (hStack : ∀ frame ∈ stack, frame.Ordered)
    (h : stepAfter? value stack token = some next) :
    next.Ordered := by
  cases stack with
  | nil => cases h
  | cons frame stack =>
      rw [List.forall_mem_cons] at hStack
      rcases hStack with ⟨hFrame, hRest⟩
      cases frame with
      | array reversed =>
          have hItems : ∀ item ∈ value :: reversed, item.Ordered :=
            List.forall_mem_cons.2 ⟨hValue, hFrame⟩
          cases token with
          | comma =>
              cases h
              have hOpen : (Frame.array (value :: reversed)).Ordered :=
                hItems
              exact List.forall_mem_cons.2 ⟨hOpen, hRest⟩
          | closeArray =>
              cases h
              refine ⟨.array fun item hItem => ?_, hRest⟩
              exact hItems item (List.mem_reverse.1 hItem)
          | _ => cases h
      | object members key =>
          have hMembers := hFrame.insert key hValue
          cases token with
          | comma =>
              cases h
              exact ⟨hMembers, hRest⟩
          | closeObject =>
              cases h
              exact ⟨hMembers, hRest⟩
          | _ => cases h

/- With each token the machine stays ordered. -/
theorem ordered_step?
    {limit : Nat}
    {state next : State}
    {token : Token}
    (hState : state.Ordered)
    (hToken : token.Ordered)
    (h : step? limit state token = some next) :
    next.Ordered := by
  cases state with
  | value stack => exact ordered_stepValue? limit hState hToken h
  | firstItem stack =>
      have hOpen : ∀ frame ∈ Frame.array [] :: stack, frame.Ordered :=
        List.forall_mem_cons.2 ⟨List.forall_mem_nil _, hState⟩
      cases token with
      | closeArray =>
          cases h
          exact ⟨.array (List.forall_mem_nil _), hState⟩
      | _ => exact ordered_stepValue? limit hOpen hToken h
  | firstKey stack =>
      cases token with
      | closeObject =>
          cases h
          exact ⟨ordered_object_nil, hState⟩
      | string key =>
          cases h
          exact ⟨ordered_object_nil, hState⟩
      | _ => cases h
  | key members stack =>
      cases token with
      | string key =>
          cases h
          exact hState
      | _ => cases h
  | colon members key stack =>
      cases token with
      | colon =>
          cases h
          exact List.forall_mem_cons.2 hState
      | _ => cases h
  | after v stack => exact ordered_stepAfter? hState.1 hState.2 h

/- What is left after all tokens is ordered. -/
theorem ordered_run?
    {limit : Nat}
    {state : State}
    {tokens : List Token}
    {document : Json}
    (hState : state.Ordered)
    (hTokens : ∀ token ∈ tokens, token.Ordered)
    (h : run? limit state tokens = some document) :
    document.Ordered := by
  induction tokens generalizing state with
  | nil =>
      unfold run? at h
      split at h <;> cases h
      exact hState.1
  | cons token rest ih =>
      rw [List.forall_mem_cons] at hTokens
      unfold run? at h
      split at h
      · rename_i next hStep
        exact ih (ordered_step? hState hTokens.1 hStep) hTokens.2 h
      · cases h

end Machine

/- Every document that is read from a text is ordered. -/
theorem ordered_of_parse?
    {text : String}
    {document : Json}
    (h : parse? text = some document) :
    document.Ordered := by
  rw [parse?, parseWithin?, Option.bind_eq_some_iff] at h
  rcases h with ⟨tokens, hTokens, hRun⟩
  have hStart : (Machine.State.value []).Ordered :=
    List.forall_mem_nil _
  exact Machine.ordered_run? hStart
    (Scanner.ordered_of_tokens? hTokens) hRun

end Json

end PageExpr
