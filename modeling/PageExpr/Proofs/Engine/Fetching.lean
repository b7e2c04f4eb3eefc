import PageExpr.Engine.Cache

/-
  What a cache can do when it is asked for a template.

  There are four cases: without any room the text is parsed; an
  entry answers; a text that is no template changes nothing but
  a counter; and a new template is stored.  A cache is faithful
  if each entry is the template of its text.  A faithful cache
  stays so and answers what parsing the text would.

  Main declarations:
    * `Cache.Fetches`
    * `Cache.fetches_fetch`
    * `Cache.Faithful`
    * `Cache.Fetches.result_eq`
    * `Cache.Fetches.faithful`
-/

namespace PageExpr

namespace Cache

------------------------------------------------------------
-- Cases
------------------------------------------------------------

/- All that asking for the template of a text can come to. -/
inductive Fetches
    (cache : Cache)
    (text : String) : Fetched → Prop where
  | bypassed
      (hRoom : cache.capacity = 0) :
      Fetches cache text ⟨Template.parse text, cache.miss, []⟩
  | found
      {template : Template}
      (hRoom : cache.capacity ≠ 0)
      (hEntry : cache.entries.lookup text = some template) :
      Fetches cache text
        ⟨.ok template, cache.hit text template, []⟩
  | failed
      {e : SyntaxError}
      (hRoom : cache.capacity ≠ 0)
      (hEntry : cache.entries.lookup text = none)
      (hParse : Template.parse text = .error e) :
      Fetches cache text ⟨.error e, cache.miss, [missLine text]⟩
  | stored
      {template : Template}
      (hRoom : cache.capacity ≠ 0)
      (hEntry : cache.entries.lookup text = none)
      (hParse : Template.parse text = .ok template) :
      Fetches cache text
        ⟨.ok template, cache.miss.store text template,
          missLine text :: (cache.displaced?.map evictionLine).toList⟩

/- Asking comes to one of these cases. -/
theorem fetches_fetch
    (cache : Cache)
    (text : String) :
    cache.Fetches text (cache.fetch text) := by
  unfold fetch
  by_cases hRoom : cache.capacity = 0
  · rw [if_pos hRoom]
    exact .bypassed hRoom
  · rw [if_neg hRoom]
    cases hEntry : cache.entries.lookup text with
    | some template => exact .found hRoom hEntry
    | none =>
        cases hParse : Template.parse text with
        | error e => exact .failed hRoom hEntry hParse
        | ok template => exact .stored hRoom hEntry hParse

/- No request changes the room of a cache. -/
theorem Fetches.capacity_eq
    {cache : Cache}
    {text : String}
    {fetched : Fetched}
    (h : cache.Fetches text fetched) :
    fetched.cache.capacity = cache.capacity := by
  cases h <;> rfl

------------------------------------------------------------
-- Faithful Caches
------------------------------------------------------------

/- Each entry is the template of its text. -/
def Faithful
    (cache : Cache) : Prop :=
  ∀ entry ∈ cache.entries, Template.parse entry.1 = .ok entry.2

/- A new cache is faithful. -/
theorem faithful_ofCapacity
    (capacity : Nat) :
    (ofCapacity capacity).Faithful := by
  simp [Faithful, ofCapacity]

/- An emptied cache is faithful. -/
theorem faithful_clear
    (cache : Cache) :
    cache.clear.Faithful := by
  simp [Faithful, clear]

/- An entry that is found is the template of the text. -/
theorem Faithful.parse_of_lookup
    {cache : Cache}
    {text : String}
    {template : Template}
    (h : cache.Faithful)
    (hEntry : cache.entries.lookup text = some template) :
    Template.parse text = .ok template := by
  rcases List.lookup_eq_some_iff.1 hEntry with
    ⟨before, after, hEntries, -⟩
  have hMem : (text, template) ∈ cache.entries := by
    simp [hEntries]
  exact h _ hMem

/- A faithful cache answers what parsing the text would. -/
theorem Fetches.result_eq
    {cache : Cache}
    {text : String}
    {fetched : Fetched}
    (hFetches : cache.Fetches text fetched)
    (h : cache.Faithful) :
    fetched.result = Template.parse text := by
  cases hFetches with
  | bypassed hRoom => rfl
  | found hRoom hEntry => exact (h.parse_of_lookup hEntry).symm
  | failed hRoom hEntry hParse => exact hParse.symm
  | stored hRoom hEntry hParse => exact hParse.symm

/- A template in front of entries that are kept. -/
theorem Faithful.of_cons
    {cache changed : Cache}
    {text : String}
    {template : Template}
    {kept : List (String × Template)}
    (h : cache.Faithful)
    (hParse : Template.parse text = .ok template)
    (hKept : kept ⊆ cache.entries)
    (hEntries : changed.entries = (text, template) :: kept) :
    changed.Faithful := by
  intro entry hMem
  rw [hEntries] at hMem
  rcases List.mem_cons.1 hMem with rfl | hOld
  · exact hParse
  · exact h entry (hKept hOld)

/- A faithful cache stays so, whatever it is asked for. -/
theorem Fetches.faithful
    {cache : Cache}
    {text : String}
    {fetched : Fetched}
    (hFetches : cache.Fetches text fetched)
    (h : cache.Faithful) :
    fetched.cache.Faithful := by
  cases hFetches with
  | bypassed hRoom => exact h
  | found hRoom hEntry =>
      exact h.of_cons (h.parse_of_lookup hEntry)
        List.filter_sublist.subset rfl
  | failed hRoom hEntry hParse => exact h
  | stored hRoom hEntry hParse =>
      have hKept :
          (if cache.isFull then cache.entries.dropLast
            else cache.entries) ⊆ cache.entries := by
        split
        · exact List.dropLast_subset _
        · exact fun _ hMem => hMem
      exact h.of_cons hParse hKept rfl

end Cache

end PageExpr
