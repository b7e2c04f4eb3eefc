import PageExpr.Evaluation.Diagnostic
import PageExpr.Syntax.Template

/-
  A cache of parsed templates.

  The entry that was used last comes first.  A full cache gives
  up its last entry for a new one.  Texts that are no templates
  are not kept.  A cache without any room always parses.

  The counters are words without a sign.  Behind the last word
  they start again with zero.

  Main declarations:
    * `Cache`
    * `Cache.fetch`
    * `Cache.clear`
    * `Cache.hits`, `Cache.misses`
    * `Cache.hitRatio`
-/

namespace PageExpr

/- Parsed templates by their texts, the last used first. -/
structure Cache where
  capacity : Nat
  entries : List (String × Template)
  hitCount : UInt64
  missCount : UInt64

/- What asking a cache for a template gives. -/
structure Cache.Fetched where
  result : Except SyntaxError Template
  cache : Cache
  log : List LogLine

namespace Cache

/- A cache that nothing has been asked of. -/
def ofCapacity
    (capacity : Nat) : Cache :=
  ⟨capacity, [], 0, 0⟩

/- The texts of the entries, the last used first. -/
def keys
    (cache : Cache) : List String :=
  cache.entries.map Prod.fst

/- Put an entry first, where it may have been before. -/
def touch
    (text : String)
    (template : Template)
    (entries : List (String × Template)) :
    List (String × Template) :=
  (text, template) ::
    entries.filter fun (key, _) => key != text

/- Are all places taken? -/
def isFull
    (cache : Cache) : Bool :=
  cache.entries.length = cache.capacity

/- The text that a new entry displaces. -/
def displaced?
    (cache : Cache) : Option String :=
  if cache.isFull then cache.keys.getLast? else none

/- Put a new entry first; the last one goes if all are taken. -/
def store
    (cache : Cache)
    (text : String)
    (template : Template) : Cache :=
  let kept :=
    if cache.isFull then cache.entries.dropLast
    else cache.entries
  { cache with entries := (text, template) :: kept }

/- Count a request that no entry answered. -/
def miss
    (cache : Cache) : Cache :=
  { cache with missCount := cache.missCount + 1 }

/- Count a request, and put the entry that answered it first. -/
def hit
    (cache : Cache)
    (text : String)
    (template : Template) : Cache :=
  { cache with
    hitCount := cache.hitCount + 1
    entries := touch text template cache.entries }

/- What is logged when a text is not in the cache. -/
def missLine
    (text : String) : LogLine :=
  ⟨.trace, "expression cache miss: " ++ text⟩

/- What is logged when a text is displaced. -/
def evictionLine
    (text : String) : LogLine :=
  ⟨.trace, "expression cache evicting: " ++ text⟩

/- The template of a text, from the cache or parsed. -/
def fetch
    (cache : Cache)
    (text : String) : Fetched :=
  if cache.capacity = 0 then
    ⟨Template.parse text, cache.miss, []⟩
  else
    match cache.entries.lookup text with
    | some template => ⟨.ok template, cache.hit text template, []⟩
    | none =>
        match Template.parse text with
        | .error e => ⟨.error e, cache.miss, [missLine text]⟩
        | .ok template =>
            ⟨.ok template, cache.miss.store text template,
              missLine text ::
                (cache.displaced?.map evictionLine).toList⟩

/- Drop all entries; the counters stay. -/
def clear
    (cache : Cache) : Cache :=
  { cache with entries := [] }

/- The number of entries. -/
def size
    (cache : Cache) : Nat :=
  cache.entries.length

/- The number of requests that were answered, as counted. -/
def hits
    (cache : Cache) : Nat :=
  cache.hitCount.toNat

/- The number of requests that were not, as counted. -/
def misses
    (cache : Cache) : Nat :=
  cache.missCount.toNat

/- The share of requests that were answered, in percent. -/
def hitRatio
    (cache : Cache) : Binary64 :=
  let total := cache.hitCount + cache.missCount
  if total = 0 then Binary64.zero false
  else
    ((Binary64.ofNat cache.hits).div
      (Binary64.ofNat total.toNat)).mul (Binary64.ofNat 100)

end Cache

end PageExpr
