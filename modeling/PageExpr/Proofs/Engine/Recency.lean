import Mathlib.Algebra.Group.Nat.Defs
import Mathlib.Data.List.Basic
import Mathlib.Data.List.Induction
import PageExpr.Proofs.Engine.Fetching

/-
  What a cache holds after any requests.

  The texts that are templates and that have been requested
  since the cache was last cleared, each where it was requested
  last, are the recent texts.  A cache with room for some holds
  as many of them, the last requested first.  So it answers a
  request just if the text is among these, gives up a text just
  when it says so, and a larger cache answers whatever a smaller
  one does.

  Main declarations:
    * `Cache.Call`, `Cache.after`
    * `Cache.requested`, `Cache.recent`
    * `Cache.recent_request`
    * `Cache.Tracks`
    * `Cache.Tracks.request`
    * `Cache.tracks_after`
    * `Cache.mem_log_fetch_iff`
    * `Cache.hits_mono`
    * `Cache.keys_ofCalls_eq_recent`
-/

namespace PageExpr

namespace Cache

------------------------------------------------------------
-- Calls
------------------------------------------------------------

/- What is done with a cache. -/
inductive Call where
  | request (text : String)
  | clear

/- Is the call a request? -/
def Call.isRequest : Call → Bool
  | .request _ => true
  | .clear => false

/- The cache after a call. -/
def call
    (cache : Cache) : Call → Cache
  | .request text => (cache.fetch text).cache
  | .clear => cache.clear

/- The cache after calls, one after the other. -/
def after
    (cache : Cache)
    (calls : List Call) : Cache :=
  calls.foldl call cache

/- Is the request for a text counted as one that is answered? -/
def Hits
    (cache : Cache)
    (text : String) : Prop :=
  (cache.fetch text).cache.hitCount = cache.hitCount + 1

/- Is the request for a text counted as one that is not? -/
def Misses
    (cache : Cache)
    (text : String) : Prop :=
  (cache.fetch text).cache.missCount = cache.missCount + 1

------------------------------------------------------------
-- Recent Texts
------------------------------------------------------------

/- The requests since the last clearing, the last one first. -/
def requested
    (calls : List Call) : List String :=
  calls.foldl
    (fun texts call =>
      match call with
      | .request text => text :: texts
      | .clear => [])
    []

/- Is the text a template? -/
def parses
    (text : String) : Bool :=
  (Template.parse text).isOk

/-
  The distinct texts among these that are templates, each where
  it was requested last.
-/
def recent
    (calls : List Call) : List String :=
  ((requested calls).filter parses).eraseDups

/- Duplicates may be erased before or after a selection. -/
theorem eraseDups_filter
    (keep : String → Bool)
    (texts : List String) :
    (texts.filter keep).eraseDups =
      texts.eraseDups.filter keep := by
  match texts with
  | [] => rfl
  | text :: texts =>
      -- The recursion is on the other texts, not on all the rest.
      let others := texts.filter fun other => !other == text
      have hRest := eraseDups_filter keep others
      rw [List.eraseDups_cons]
      by_cases hKeep : keep text = true
      · rw [List.filter_cons_of_pos hKeep, List.eraseDups_cons,
          List.filter_cons_of_pos hKeep, ← hRest, List.filter_filter,
          List.filter_filter]
        simp only [Bool.and_comm]
      · have hOthers :
            others.filter keep = texts.filter keep := by
          rw [List.filter_filter]
          apply List.filter_congr
          intro other _
          by_cases hOther : other = text
          · simp [hOther, hKeep]
          · simp [hOther]
        rw [List.filter_cons_of_neg hKeep,
          List.filter_cons_of_neg hKeep, ← hRest, hOthers]
termination_by texts.length
decreasing_by
  exact Nat.lt_succ_of_le (List.length_filter_le _ _)

/- Nothing is recent after a clearing. -/
theorem recent_clear
    (calls : List Call) :
    recent (calls ++ [.clear]) = [] := by
  simp [recent, requested]

/- A request comes before the earlier ones. -/
theorem requested_request
    (text : String)
    (calls : List Call) :
    requested (calls ++ [.request text]) =
      text :: requested calls := by
  simp [requested]

/- A template that is requested becomes the most recent text. -/
theorem recent_request
    {text : String}
    (calls : List Call)
    (hParses : parses text = true) :
    recent (calls ++ [.request text]) =
      text :: (recent calls).filter (· != text) := by
  rw [recent, requested_request, List.filter_cons_of_pos hParses,
    List.eraseDups_cons, eraseDups_filter]
  rfl

/- What is no template changes nothing. -/
theorem recent_request_of_not_parses
    {text : String}
    (calls : List Call)
    (hParses : parses text = false) :
    recent (calls ++ [.request text]) = recent calls := by
  rw [recent, requested_request,
    List.filter_cons_of_neg (by simp [hParses]), recent]

/- Recent texts are templates. -/
theorem parses_of_mem_recent
    {calls : List Call}
    {text : String}
    (h : text ∈ recent calls) :
    parses text = true :=
  (List.mem_filter.1 (List.mem_eraseDups.1 h)).2

/- Recent texts are distinct. -/
theorem nodup_recent
    (calls : List Call) :
    (recent calls).Nodup := by
  induction calls using List.reverseRecOn with
  | nil => exact List.nodup_nil
  | append_singleton calls call ih =>
      cases call with
      | clear =>
          rw [recent_clear]
          exact List.nodup_nil
      | request text =>
          cases hParses : parses text with
          | false =>
              rw [recent_request_of_not_parses calls hParses]
              exact ih
          | true =>
              rw [recent_request calls hParses, List.nodup_cons]
              exact ⟨by simp, ih.filter _⟩

------------------------------------------------------------
-- The First of Distinct Texts
------------------------------------------------------------

/- The others among the first are the first of the others. -/
theorem filter_take_of_mem
    {text : String}
    {n : Nat}
    {texts : List String}
    (hNodup : texts.Nodup)
    (hMem : text ∈ texts.take (n + 1)) :
    (texts.take (n + 1)).filter (· != text) =
      (texts.filter (· != text)).take n := by
  induction texts generalizing n with
  | nil => simp
  | cons first texts ih =>
      rcases List.nodup_cons.1 hNodup with ⟨hFirst, hRest⟩
      rw [List.take_succ_cons, List.filter_cons, List.filter_cons]
      by_cases hEq : first = text
      · subst hEq
        have hOthers :
            ∀ other ∈ texts, (other != first) = true := by
          intro other hOther
          rw [bne_iff_ne]
          rintro rfl
          exact hFirst hOther
        have hTaken :
            ∀ other ∈ texts.take n, (other != first) = true :=
          fun other h => hOthers other (List.mem_of_mem_take h)
        rw [bne_self_eq_false, List.filter_eq_self.2 hOthers,
          List.filter_eq_self.2 hTaken]
        rfl
      · have hOther : (first != text) = true := by simpa using hEq
        rw [if_pos hOther, if_pos hOther]
        rw [List.take_succ_cons] at hMem
        have hLater := (List.mem_cons.1 hMem).resolve_left
          (Ne.symm hEq)
        cases n with
        | zero => simp at hLater
        | succ n => rw [List.take_succ_cons, ih hRest hLater]

/-
  If a text is not among the first, then the others begin as
  all texts do.
-/
theorem take_filter_of_not_mem
    {text : String}
    {n : Nat}
    {texts : List String}
    (hMem : text ∉ texts.take (n + 1)) :
    (texts.filter (· != text)).take n = texts.take n := by
  induction texts generalizing n with
  | nil => rfl
  | cons first texts ih =>
      rw [List.take_succ_cons, List.mem_cons, not_or] at hMem
      have hOther : (first != text) = true := by
        simpa using Ne.symm hMem.1
      cases n with
      | zero => rfl
      | succ n =>
          rw [List.filter_cons, if_pos hOther, List.take_succ_cons,
            List.take_succ_cons, ih hMem.2]

/- Without the last of as many as fit, one fewer is left. -/
theorem dropLast_take_of_length
    (n : Nat)
    (texts : List String) :
    (if (texts.take (n + 1)).length = n + 1 then
        (texts.take (n + 1)).dropLast
      else texts.take (n + 1)) = texts.take n := by
  split
  · rename_i hLength
    rw [List.dropLast_eq_take, hLength, Nat.add_sub_cancel,
      List.take_take, Nat.min_eq_left (Nat.le_succ n)]
  · rename_i hLength
    have hShort : texts.length ≤ n := by
      rw [List.length_take] at hLength
      omega
    rw [List.take_of_length_le hShort,
      List.take_of_length_le (Nat.le_succ_of_le hShort)]

------------------------------------------------------------
-- Keys
------------------------------------------------------------

/- There is a key for each entry. -/
theorem length_keys
    (cache : Cache) :
    cache.keys.length = cache.entries.length :=
  List.length_map _

/- In a full cache there is a key for each place. -/
theorem isFull_iff
    (cache : Cache) :
    cache.isFull = true ↔ cache.keys.length = cache.capacity := by
  rw [isFull, decide_eq_true_eq, length_keys]

/- A text without an entry is no key. -/
theorem lookup_eq_none_iff
    {cache : Cache}
    {text : String} :
    cache.entries.lookup text = none ↔ text ∉ cache.keys := by
  rw [List.lookup_eq_none_iff, keys, List.mem_map]
  constructor
  · rintro hNone ⟨entry, hEntry, rfl⟩
    simpa using hNone entry hEntry
  · intro hMem entry hEntry
    rw [bne_iff_ne]
    rintro rfl
    exact hMem ⟨entry, hEntry, rfl⟩

/- A text with an entry is a key. -/
theorem mem_keys_of_lookup
    {cache : Cache}
    {text : String}
    {template : Template}
    (h : cache.entries.lookup text = some template) :
    text ∈ cache.keys := by
  by_contra hMem
  rw [lookup_eq_none_iff.2 hMem] at h
  cases h

/- A hit puts its text first. -/
theorem keys_hit
    (cache : Cache)
    (text : String)
    (template : Template) :
    (cache.hit text template).keys =
      text :: cache.keys.filter (· != text) := by
  simp [keys, hit, touch, List.filter_map, Function.comp_def]

/- A store puts its text first, and the last key may go. -/
theorem keys_store
    (cache : Cache)
    (text : String)
    (template : Template) :
    (cache.miss.store text template).keys =
      text ::
        (if cache.keys.length = cache.capacity then
            cache.keys.dropLast
          else cache.keys) := by
  have hFull : cache.miss.isFull = cache.isFull := rfl
  simp only [← isFull_iff]
  unfold keys store
  rw [hFull]
  split
  · rw [List.map_cons, List.map_dropLast]
    rfl
  · rfl

------------------------------------------------------------
-- Runs
------------------------------------------------------------

/-
  The counters show how many of so many requests were answered
  and how many were not, up to the size of a word.
-/
def Counts
    (cache : Cache)
    (requests : Nat) : Prop :=
  ∃ answered missed, answered + missed = requests ∧
    cache.hitCount = .ofNat answered ∧
    cache.missCount = .ofNat missed

/- As words, the counters add up to the requests. -/
theorem Counts.add_eq
    {cache : Cache}
    {requests : Nat}
    (h : cache.Counts requests) :
    cache.hitCount + cache.missCount = .ofNat requests := by
  rcases h with ⟨answered, missed, rfl, hHits, hMisses⟩
  rw [hHits, hMisses, UInt64.ofNat_add]

/- Requests whose number is a word are all counted. -/
theorem Counts.hits_add_misses
    {cache : Cache}
    {requests : Nat}
    (h : cache.Counts requests)
    (hWord : requests < 2 ^ 64) :
    cache.hits + cache.misses = requests := by
  rcases h with ⟨answered, missed, rfl, hHits, hMisses⟩
  rw [hits, misses, hHits, hMisses, UInt64.toNat_ofNat',
    UInt64.toNat_ofNat', Nat.mod_eq_of_lt (by omega),
    Nat.mod_eq_of_lt (by omega)]

/- One more request may be answered. -/
theorem Counts.hit
    {cache : Cache}
    {requests : Nat}
    (h : cache.Counts requests)
    (text : String)
    (template : Template) :
    (cache.hit text template).Counts (requests + 1) := by
  rcases h with ⟨answered, missed, rfl, hHits, hMisses⟩
  refine ⟨answered + 1, missed, Nat.add_right_comm _ _ _, ?_, hMisses⟩
  rw [Cache.hit, hHits, UInt64.ofNat_add]
  rfl

/- Or it may not be answered. -/
theorem Counts.miss
    {cache : Cache}
    {requests : Nat}
    (h : cache.Counts requests) :
    cache.miss.Counts (requests + 1) := by
  rcases h with ⟨answered, missed, rfl, hHits, hMisses⟩
  refine ⟨answered, missed + 1, rfl, hHits, ?_⟩
  rw [Cache.miss, hMisses, UInt64.ofNat_add]
  rfl

/-
  After the calls a cache with room for one and so many more
  holds the first of the recent texts, and each request has been
  counted.
-/
structure Tracks
    (cache : Cache)
    (calls : List Call)
    (more : Nat) : Prop where
  capacity : cache.capacity = more + 1
  keys : cache.keys = (recent calls).take (more + 1)
  count : cache.Counts (calls.countP Call.isRequest)

/- A new cache holds nothing. -/
theorem tracks_ofCapacity
    (more : Nat) :
    (ofCapacity (more + 1)).Tracks [] more :=
  ⟨rfl, rfl, 0, 0, rfl, rfl, rfl⟩

/- Clearing forgets the texts, but not the counts. -/
theorem Tracks.clear
    {cache : Cache}
    {calls : List Call}
    {more : Nat}
    (h : cache.Tracks calls more) :
    cache.clear.Tracks (calls ++ [.clear]) more := by
  refine ⟨h.capacity, ?_, ?_⟩
  · rw [recent_clear]
    rfl
  · rw [List.countP_append]
    exact h.count

/- A request puts a template first and is counted. -/
theorem Tracks.request
    {cache : Cache}
    {calls : List Call}
    {more : Nat}
    {text : String}
    {fetched : Fetched}
    (h : cache.Tracks calls more)
    (hFetches : cache.Fetches text fetched) :
    fetched.cache.Tracks (calls ++ [.request text]) more := by
  have hCount :
      (calls ++ [Call.request text]).countP Call.isRequest =
        calls.countP Call.isRequest + 1 := by
    rw [List.countP_append]
    rfl
  refine ⟨hFetches.capacity_eq.trans h.capacity, ?_, ?_⟩
  · cases hFetches with
    | bypassed hRoom =>
        rw [h.capacity] at hRoom
        cases hRoom
    | found hRoom hEntry =>
        have hMem := mem_keys_of_lookup hEntry
        rw [h.keys] at hMem
        have hParses :=
          parses_of_mem_recent (List.mem_of_mem_take hMem)
        rw [keys_hit, h.keys, recent_request calls hParses,
          List.take_succ_cons,
          filter_take_of_mem (nodup_recent calls) hMem]
    | failed hRoom hEntry hParse =>
        have hParses : parses text = false := by
          rw [parses, hParse]
          rfl
        rw [recent_request_of_not_parses calls hParses]
        exact h.keys
    | stored hRoom hEntry hParse =>
        have hParses : parses text = true := by
          rw [parses, hParse]
          rfl
        have hMem := lookup_eq_none_iff.1 hEntry
        rw [h.keys] at hMem
        rw [keys_store, h.keys, h.capacity,
          recent_request calls hParses, List.take_succ_cons,
          take_filter_of_not_mem hMem, dropLast_take_of_length]
  · rw [hCount]
    cases hFetches with
    | bypassed hRoom => exact h.count.miss
    | found hRoom hEntry => exact h.count.hit text _
    | failed hRoom hEntry hParse => exact h.count.miss
    | stored hRoom hEntry hParse => exact h.count.miss

/- A cache with room tracks all calls. -/
theorem tracks_after
    (more : Nat)
    (calls : List Call) :
    ((ofCapacity (more + 1)).after calls).Tracks calls more := by
  induction calls using List.reverseRecOn with
  | nil => exact tracks_ofCapacity more
  | append_singleton calls call ih =>
      rw [after, List.foldl_append, ← after]
      cases call with
      | clear => exact ih.clear
      | request text => exact ih.request (fetches_fetch _ text)

------------------------------------------------------------
-- Hits and Misses
------------------------------------------------------------

/- No call changes the room of a cache. -/
theorem capacity_after
    (cache : Cache)
    (calls : List Call) :
    (cache.after calls).capacity = cache.capacity := by
  induction calls generalizing cache with
  | nil => rfl
  | cons call calls ih =>
      rw [after, List.foldl_cons, ← after, ih]
      cases call with
      | clear => rfl
      | request text => exact (cache.fetches_fetch text).capacity_eq

/- One more is never the same count. -/
theorem hitCount_ne
    (cache : Cache) :
    cache.hitCount ≠ cache.hitCount + 1 := by
  simp

/- A cache without any room answers nothing. -/
theorem not_hits_of_capacity_eq_zero
    {cache : Cache}
    (text : String)
    (hRoom : cache.capacity = 0) :
    ¬ cache.Hits text := by
  rw [Hits, fetch, if_pos hRoom]
  exact hitCount_ne cache

/- A cache with room answers just for its keys. -/
theorem hits_iff_mem_keys
    {cache : Cache}
    {text : String}
    (hRoom : cache.capacity ≠ 0) :
    cache.Hits text ↔ text ∈ cache.keys := by
  have hFetches := cache.fetches_fetch text
  unfold Hits
  generalize cache.fetch text = fetched at hFetches ⊢
  have hNever := hitCount_ne cache
  cases hFetches with
  | bypassed hZero => exact absurd hZero hRoom
  | found _ hEntry =>
      exact ⟨fun _ => mem_keys_of_lookup hEntry, fun _ => rfl⟩
  | failed _ hEntry hParse =>
      exact ⟨fun hHit => absurd hHit hNever,
        fun hMem => absurd hMem (lookup_eq_none_iff.1 hEntry)⟩
  | stored _ hEntry hParse =>
      exact ⟨fun hHit => absurd hHit hNever,
        fun hMem => absurd hMem (lookup_eq_none_iff.1 hEntry)⟩

/- What is no template is missed, and no key changes its place. -/
theorem misses_of_parse_error
    {cache : Cache}
    {text : String}
    {e : SyntaxError}
    (hMem : text ∉ cache.keys)
    (hError : Template.parse text = .error e) :
    cache.Misses text ∧
      (cache.fetch text).cache.keys = cache.keys := by
  have hFetches := cache.fetches_fetch text
  unfold Misses
  generalize cache.fetch text = fetched at hFetches ⊢
  cases hFetches with
  | bypassed hRoom => exact ⟨rfl, rfl⟩
  | found _ hEntry => exact absurd (mem_keys_of_lookup hEntry) hMem
  | failed _ hEntry hParse => exact ⟨rfl, rfl⟩
  | stored _ hEntry hParse =>
      rw [hError] at hParse
      cases hParse

------------------------------------------------------------
-- Evictions
------------------------------------------------------------

/- The lines on two displaced texts tell them apart. -/
theorem evictionLine_inj
    {x y : String} :
    evictionLine x = evictionLine y ↔ x = y := by
  simp [evictionLine]

/- A line on a displaced text is not one on a missed text. -/
theorem evictionLine_ne_missLine
    (x text : String) :
    evictionLine x ≠ missLine text := by
  intro hEq
  have hChars :=
    congrArg (fun line => line.text.toList.take 18) hEq
  simp [evictionLine, missLine] at hChars

/- A store into a full cache says which text it displaces. -/
theorem displaced?_eq
    {cache : Cache}
    {front : List String}
    {last : String}
    (hFull : cache.keys.length = cache.capacity)
    (hKeys : cache.keys = front ++ [last]) :
    cache.displaced? = some last := by
  rw [displaced?, if_pos (cache.isFull_iff.2 hFull), hKeys,
    List.getLast?_concat]

/- A store into a cache that is not full displaces nothing. -/
theorem displaced?_eq_none
    {cache : Cache}
    (hFull : cache.keys.length ≠ cache.capacity) :
    cache.displaced? = none := by
  rw [displaced?, if_neg (mt cache.isFull_iff.1 hFull)]

/- Of distinct texts only the last is not in front of it. -/
theorem mem_concat_not_mem_iff
    {front : List String}
    {last x : String}
    (hNodup : (front ++ [last]).Nodup) :
    x ∈ front ++ [last] ∧ x ∉ front ↔ x = last := by
  have hDisjoint := (List.nodup_append.1 hNodup).2.2
  constructor
  · rintro ⟨hMem, hFront⟩
    rcases List.mem_append.1 hMem with hFirst | hEnd
    · exact absurd hFirst hFront
    · exact List.mem_singleton.1 hEnd
  · rintro rfl
    exact ⟨by simp, fun hFront => hDisjoint x hFront x (by simp) rfl⟩

/- What a store displaces is what was a key and is none. -/
theorem displaced?_eq_some_iff
    {cache : Cache}
    {text x : String}
    (template : Template)
    (hRoom : cache.capacity ≠ 0)
    (hNodup : cache.keys.Nodup)
    (hMem : text ∉ cache.keys) :
    cache.displaced? = some x ↔
      x ∈ cache.keys ∧
        x ∉ (cache.miss.store text template).keys := by
  have hOther : x ∈ cache.keys → ¬ x = text := by
    rintro hKey rfl
    exact hMem hKey
  rw [keys_store, List.mem_cons, not_or,
    and_congr_right fun hKey => and_iff_right (hOther hKey)]
  by_cases hFull : cache.keys.length = cache.capacity
  · rcases List.eq_nil_or_concat' cache.keys with
      hNil | ⟨front, last, hKeys⟩
    · rw [hNil] at hFull
      exact absurd hFull.symm hRoom
    · rw [displaced?_eq hFull hKeys, if_pos hFull, hKeys,
        List.dropLast_concat, Option.some_inj, eq_comm]
      rw [hKeys] at hNodup
      exact (mem_concat_not_mem_iff hNodup).symm
  · rw [displaced?_eq_none hFull, if_neg hFull]
    simp

/- A cache says that a text is displaced just when it is. -/
theorem mem_log_fetch_iff
    {cache : Cache}
    (text x : String)
    (hRoom : cache.capacity ≠ 0)
    (hNodup : cache.keys.Nodup) :
    evictionLine x ∈ (cache.fetch text).log ↔
      x ∈ cache.keys ∧ x ∉ (cache.fetch text).cache.keys := by
  have hFetches := cache.fetches_fetch text
  generalize cache.fetch text = fetched at hFetches ⊢
  cases hFetches with
  | bypassed hZero => exact absurd hZero hRoom
  | found _ hEntry =>
      rw [keys_hit]
      constructor
      · rintro ⟨⟩
      · rintro ⟨hKey, hGone⟩
        rw [List.mem_cons, not_or, List.mem_filter] at hGone
        exact absurd ⟨hKey, by simpa using hGone.1⟩ hGone.2
  | failed _ hEntry hParse =>
      constructor
      · intro hLine
        exact absurd (List.mem_singleton.1 hLine)
          (evictionLine_ne_missLine x text)
      · rintro ⟨hKey, hGone⟩
        exact absurd hKey hGone
  | @stored template _ hEntry hParse =>
      rw [← displaced?_eq_some_iff template hRoom hNodup
        (lookup_eq_none_iff.1 hEntry)]
      simp [evictionLine_ne_missLine, evictionLine_inj]

------------------------------------------------------------
-- All Calls
------------------------------------------------------------

/- A new cache with the given room, after calls. -/
def ofCalls
    (room : Nat)
    (calls : List Call) : Cache :=
  (ofCapacity room).after calls

/- A smaller cache answers nothing that a larger one does not. -/
theorem hits_mono
    {room larger : Nat}
    {calls : List Call}
    {text : String}
    (hRoom : room ≤ larger)
    (h : (ofCalls room calls).Hits text) :
    (ofCalls larger calls).Hits text := by
  cases room with
  | zero =>
      have hZero : (ofCalls 0 calls).capacity = 0 :=
        capacity_after _ calls
      exact absurd h (not_hits_of_capacity_eq_zero text hZero)
  | succ more =>
      cases larger with
      | zero => cases hRoom
      | succ most =>
          have hSmall := tracks_after more calls
          have hLarge := tracks_after most calls
          have hSmallRoom : (ofCalls (more + 1) calls).capacity ≠ 0 := by
            rw [ofCalls, hSmall.capacity]
            exact Nat.succ_ne_zero _
          have hLargeRoom : (ofCalls (most + 1) calls).capacity ≠ 0 := by
            rw [ofCalls, hLarge.capacity]
            exact Nat.succ_ne_zero _
          rw [hits_iff_mem_keys hSmallRoom, ofCalls, hSmall.keys] at h
          rw [hits_iff_mem_keys hLargeRoom, ofCalls, hLarge.keys]
          exact List.take_subset_take_left _ hRoom h

/-
  A cache with room holds the most recent texts that are
  templates, as many as there is room for, and answers a request
  just if its text is among them.  What is no template is missed
  and changes nothing.  The room is never exceeded.  Each request
  is counted once; in words, so that the counts of as many
  requests as there are words add up to zero again.  A text is
  said to be displaced just when it is a key before the request
  and none behind it.  With more room, or with any at all, no
  request is answered less.
-/
theorem keys_ofCalls_eq_recent :
    (∀ (room : Nat) (calls : List Call), 1 ≤ room →
      (ofCalls room calls).keys = (recent calls).take room ∧
      (∀ text, (ofCalls room calls).Hits text ↔
        text ∈ (recent calls).take room) ∧
      (∀ text e, Template.parse text = .error e →
        (ofCalls room calls).Misses text ∧
          ((ofCalls room calls).fetch text).cache.keys =
            (ofCalls room calls).keys) ∧
      (ofCalls room calls).size ≤ room ∧
      (ofCalls room calls).hitCount +
          (ofCalls room calls).missCount =
        .ofNat (calls.countP Call.isRequest) ∧
      (calls.countP Call.isRequest < 2 ^ 64 →
        (ofCalls room calls).hits + (ofCalls room calls).misses =
          calls.countP Call.isRequest) ∧
      (∀ text x,
        evictionLine x ∈ ((ofCalls room calls).fetch text).log ↔
          x ∈ (ofCalls room calls).keys ∧
            x ∉ ((ofCalls room calls).fetch text).cache.keys)) ∧
    (∀ (room larger : Nat) (calls : List Call) (text : String),
      room ≤ larger →
      (ofCalls room calls).Hits text →
        (ofCalls larger calls).Hits text) := by
  refine ⟨?_, fun _ _ _ _ => hits_mono⟩
  intro room calls hRoom
  rcases Nat.exists_eq_add_of_le' hRoom with ⟨more, rfl⟩
  have hTracks : (ofCalls (more + 1) calls).Tracks calls more :=
    tracks_after more calls
  have hCapacity : (ofCalls (more + 1) calls).capacity ≠ 0 := by
    rw [hTracks.capacity]
    exact Nat.succ_ne_zero _
  have hNodup : (ofCalls (more + 1) calls).keys.Nodup := by
    rw [hTracks.keys]
    exact (nodup_recent calls).sublist (List.take_sublist _ _)
  refine ⟨hTracks.keys, ?_, ?_, ?_, hTracks.count.add_eq,
    hTracks.count.hits_add_misses, ?_⟩
  · intro text
    rw [hits_iff_mem_keys hCapacity, hTracks.keys]
  · intro text e hError
    refine misses_of_parse_error ?_ hError
    intro hMem
    rw [hTracks.keys] at hMem
    have hParses := parses_of_mem_recent (List.mem_of_mem_take hMem)
    rw [parses, hError] at hParses
    cases hParses
  · have hLength :
        (ofCalls (more + 1) calls).size =
          (ofCalls (more + 1) calls).keys.length :=
      (length_keys _).symm
    rw [hLength, hTracks.keys]
    exact List.length_take_le _ _
  · intro text x
    exact mem_log_fetch_iff text x hCapacity hNodup

/- A text that is asked for again stays, and another one goes. -/
theorem keys_ofCalls_again :
    1 ≤ 2 ∧
      Template.parse "$\x7b" = .error (.unterminated 0) ∧
      (ofCalls 2 [.request "a", .request "b", .request "a",
        .request "$\x7b", .request "c"]).keys = ["c", "a"] ∧
      ¬ (ofCalls 2 [.request "a", .request "b", .request "a",
        .request "$\x7b", .request "c"]).Hits "b" ∧
      (ofCalls 2 [.request "a", .request "b", .request "a",
        .request "$\x7b", .request "c"]).Misses "$\x7b" ∧
      (ofCalls 1 [.request "a", .request "b", .request "a",
        .request "$\x7b", .request "c"]).Hits "c" ∧
      (ofCalls 2 [.request "a", .request "b", .request "a",
        .request "$\x7b", .request "c"]).Hits "c" := by
  have hRecent :
      recent [.request "a", .request "b", .request "a",
        .request "$\x7b", .request "c"] = ["c", "a", "b"] := by
    decide +kernel
  have hParse :
      Template.parse "$\x7b" = .error (.unterminated 0) :=
    rfl
  have hTwo := keys_ofCalls_eq_recent.1 2
    [.request "a", .request "b", .request "a",
      .request "$\x7b", .request "c"] (by decide)
  have hOne := keys_ofCalls_eq_recent.1 1
    [.request "a", .request "b", .request "a",
      .request "$\x7b", .request "c"] (by decide)
  rw [hRecent] at hTwo hOne
  have hSmall := (hOne.2.1 "c").2 (by decide)
  refine ⟨by decide, hParse, hTwo.1, ?_,
    (hTwo.2.2.1 _ _ hParse).1, hSmall,
    keys_ofCalls_eq_recent.2 1 2 _ _ (by decide) hSmall⟩
  rw [hTwo.2.1]
  decide

end Cache

end PageExpr
