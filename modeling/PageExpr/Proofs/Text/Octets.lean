import Mathlib.Algebra.Group.Nat.Defs
import PageExpr.Text.Utf8

/-
  What octets stand for in UTF-8.

  The octets of a character stand for it.  Where there are none,
  the longest start of a character stands for the replacement
  character, and so does an octet that starts none.  The decoder
  follows these rules: while a character is pending it knows the
  numbers of all characters that start with the octets so far.

  Main declarations:
    * `Utf8.Begins`
    * `Utf8.Reads`
    * `Utf8.Owes`
    * `Utf8.Leads`, `Utf8.owes_of_start`
    * `Utf8.decodeFrom_encode`
    * `Utf8.decode_encode`
    * `Utf8.decode_eq_iff`
-/

namespace PageExpr

namespace Utf8

------------------------------------------------------------
-- Rules
------------------------------------------------------------

/- Octets with which the octets of a character begin. -/
def Begins
    (octets : List Nat) : Prop :=
  ∃ c, octets <+: encode [c]

/-
  The characters that octets stand for.  What is broken off is
  not empty and as long as can be: a start of a character, or a
  single octet.
-/
inductive Reads : List Nat → List Char → Prop where
  | nil : Reads [] []
  | char
      {rest : List Nat} {cs : List Char}
      (c : Char)
      (hRest : Reads rest cs) :
      Reads (encode [c] ++ rest) (c :: cs)
  | broken
      {octet : Nat} {more rest : List Nat} {cs : List Char}
      (hNone : ∀ c, ¬ encode [c] <+: octet :: more ++ rest)
      (hStart : more = [] ∨ Begins (octet :: more))
      (hLongest :
        ∀ next ∈ rest.head?, ¬ Begins (octet :: more ++ [next]))
      (hRest : Reads rest cs) :
      Reads (octet :: more ++ rest) (replacement :: cs)

------------------------------------------------------------
-- Octets of Characters
------------------------------------------------------------

/- The last octets of a number, of six bits each. -/
def sextets : Nat → Nat → List Nat
  | 0, _ => []
  | k + 1, n => (0x80 + n / 64 ^ k % 64) :: sextets k n

/- The octets of a character, by its number. -/
theorem encode_char
    (c : Char) :
    encode [c] =
      if c.toNat ≤ 0x7f then [c.toNat]
      else if c.toNat ≤ 0x7ff then
        (0xc0 + c.toNat / 64) :: sextets 1 c.toNat
      else if c.toNat ≤ 0xffff then
        (0xe0 + c.toNat / 4096) :: sextets 2 c.toNat
      else (0xf0 + c.toNat / 262144) :: sextets 3 c.toNat := by
  have hValid := c.valid
  have hNumber : c.val.toNat = c.toNat := rfl
  rw [UInt32.isValidChar, hNumber, Nat.isValidChar] at hValid
  rw [encode, List.flatMap_singleton, String.utf8EncodeChar, hNumber]
  simp only [sextets, apply_ite (List.map UInt8.toNat), List.map_cons,
    List.map_nil, UInt8.toNat_ofNat']
  split
  · rw [Nat.mod_eq_of_lt (by omega)]
  · split
    · simp only [List.cons.injEq, and_true]
      omega
    · split <;> simp only [List.cons.injEq, and_true] <;> omega

/- Each character has a first octet. -/
theorem exists_begins
    (c : Char) :
    ∃ octet, [octet] <+: encode [c] := by
  rw [encode_char]
  split
  · exact ⟨_, List.prefix_refl _⟩
  · split
    · exact ⟨_, List.prefix_append _ _⟩
    · split <;> exact ⟨_, List.prefix_append _ _⟩

/- So it has octets. -/
theorem encode_ne_nil
    (c : Char) :
    encode [c] ≠ [] := by
  rcases exists_begins c with ⟨octet, more, hOctets⟩
  rw [← hOctets]
  exact List.cons_ne_nil _ _

/- The octets of a text, character by character. -/
theorem encode_cons
    (c : Char)
    (cs : List Char) :
    encode (c :: cs) = encode [c] ++ encode cs :=
  encode_append [c] cs

------------------------------------------------------------
-- Pending Characters
------------------------------------------------------------

/-
  The numbers of the characters that may come of a pending one:
  the next six bits are in its range.
-/
def Pending.Covers
    (p : Pending)
    (n : Nat) : Prop :=
  64 * p.bits + p.least ≤ n / 64 ^ (p.needed - 1) + 0x80 ∧
    n / 64 ^ (p.needed - 1) + 0x80 ≤ 64 * p.bits + p.greatest

/-
  What is pending behind octets: the characters that begin with
  them are those it covers, and it needs their other octets.
-/
structure Owes
    (octets : List Nat)
    (p : Pending) : Prop where
  started : octets ≠ []
  needed : 0 < p.needed
  least : 0x80 ≤ p.least
  ordered : p.least ≤ p.greatest
  greatest : p.greatest ≤ 0xbf
  valid : ∀ n, p.Covers n → n.isValidChar
  encode : ∀ c : Char, p.Covers c.toNat →
    encode [c] = octets ++ sextets p.needed c.toNat
  covers : ∀ c : Char, octets <+: Utf8.encode [c] →
    p.Covers c.toNat

/- The pending character once an octet has been read. -/
def Pending.after
    (p : Pending)
    (octet : Nat) : Pending :=
  ⟨p.needed - 1, 0x80, 0xbf, 64 * p.bits + (octet - 0x80)⟩

/- The first of the octets that a number has left. -/
theorem sextets_of_pos
    {k : Nat}
    (h : 0 < k)
    (n : Nat) :
    sextets k n =
      (0x80 + n / 64 ^ (k - 1) % 64) :: sextets (k - 1) n := by
  cases k with
  | zero => exact absurd h (Nat.lt_irrefl 0)
  | succ k => rfl

/- The character of a valid number has that number. -/
theorem toNat_ofNat
    {n : Nat}
    (h : n.isValidChar) :
    (Char.ofNat n).toNat = n := by
  rw [Char.ofNat, dif_pos h]
  rfl

/- Six bits more of a number. -/
theorem div_pow_pred
    {k : Nat}
    (h : 1 < k)
    (n : Nat) :
    n / 64 ^ (k - 1) = n / 64 ^ (k - 1 - 1) / 64 := by
  have hPow : 64 ^ (k - 1) = 64 ^ (k - 1 - 1) * 64 := by
    rw [← Nat.pow_succ]
    congr 1
    omega
  rw [hPow, Nat.div_div_eq_div_mul]

/- After an octet the numbers are covered that go on with it. -/
theorem Pending.covers_after
    {p : Pending}
    {octet n : Nat}
    (hNeeded : 1 < p.needed)
    (hLeast : 0x80 ≤ octet) :
    (p.after octet).Covers n ↔
      n / 64 ^ (p.needed - 1) = 64 * p.bits + (octet - 0x80) := by
  rw [Covers, after, div_pow_pred hNeeded]
  dsimp only
  omega

namespace Owes

variable {octets : List Nat} {p : Pending}

/- The next octet of a character is in the range. -/
theorem next
    (h : Owes octets p)
    {c : Char}
    {octet : Nat}
    (hBegins : octets ++ [octet] <+: Utf8.encode [c]) :
    (p.least ≤ octet ∧ octet ≤ p.greatest) ∧
      c.toNat / 64 ^ (p.needed - 1) =
        64 * p.bits + (octet - 0x80) := by
  have hCovers :=
    h.covers c ((List.prefix_append _ _).trans hBegins)
  rw [h.encode c hCovers, List.prefix_append_right_inj,
    sextets_of_pos h.needed, List.cons_prefix_cons] at hBegins
  have hOctet := hBegins.1
  have hLeast := h.least
  have hGreatest := h.greatest
  unfold Pending.Covers at hCovers
  omega

/- An octet beyond the range belongs to no character. -/
theorem not_begins
    (h : Owes octets p)
    {octet : Nat}
    (hRange : ¬ (p.least ≤ octet ∧ octet ≤ p.greatest)) :
    ¬ Begins (octets ++ [octet]) := by
  rintro ⟨c, hBegins⟩
  exact hRange (h.next hBegins).1

/- A number that is covered has a character. -/
theorem encode_ofNat
    (h : Owes octets p)
    {n : Nat}
    (hCovers : p.Covers n) :
    Utf8.encode [Char.ofNat n] = octets ++ sextets p.needed n := by
  have hNumber := toNat_ofNat (h.valid n hCovers)
  have hEncode := h.encode (Char.ofNat n)
  rw [hNumber] at hEncode
  exact hEncode hCovers

/- Some character begins with the octets. -/
theorem begins
    (h : Owes octets p) :
    Begins octets := by
  have hCovers :
      p.Covers ((64 * p.bits + (p.least - 0x80)) *
        64 ^ (p.needed - 1)) := by
    have hLeast := h.least
    have hOrdered := h.ordered
    unfold Pending.Covers
    rw [Nat.mul_div_cancel _ (Nat.pow_pos (by decide))]
    omega
  exact ⟨_, h.encode_ofNat hCovers ▸ List.prefix_append _ _⟩

/- An octet in the range is followed by others. -/
theorem after
    (h : Owes octets p)
    {octet : Nat}
    (hRange : p.least ≤ octet ∧ octet ≤ p.greatest)
    (hNeeded : 1 < p.needed) :
    Owes (octets ++ [octet]) (p.after octet) := by
  have hLeast := h.least
  have hGreatest := h.greatest
  have hBefore (n : Nat)
      (hAfter : (p.after octet).Covers n) : p.Covers n := by
    rw [Pending.covers_after hNeeded (by omega)] at hAfter
    unfold Pending.Covers
    omega
  constructor
  case started =>
    exact List.append_ne_nil_of_right_ne_nil _ (List.cons_ne_nil _ _)
  case needed => exact Nat.sub_pos_of_lt hNeeded
  case least => exact Nat.le_refl _
  case ordered => exact Nat.le_of_ble_eq_true rfl
  case greatest => exact Nat.le_refl _
  case valid => exact fun n hAfter => h.valid n (hBefore n hAfter)
  case encode =>
    intro c hAfter
    rw [h.encode c (hBefore _ hAfter), sextets_of_pos h.needed,
      List.append_assoc, List.singleton_append]
    rw [Pending.covers_after hNeeded (by omega)] at hAfter
    congr 2
    omega
  case covers =>
    intro c hBegins
    rw [Pending.covers_after hNeeded (by omega)]
    exact (h.next hBegins).2

/- The last octet completes a character. -/
theorem encode_last
    (h : Owes octets p)
    {octet : Nat}
    (hRange : p.least ≤ octet ∧ octet ≤ p.greatest)
    (hNeeded : p.needed = 1) :
    Utf8.encode [Char.ofNat (64 * p.bits + (octet - 0x80))] =
      octets ++ [octet] := by
  have hLeast := h.least
  have hGreatest := h.greatest
  have hCovers : p.Covers (64 * p.bits + (octet - 0x80)) := by
    unfold Pending.Covers
    rw [hNeeded]
    simp only [Nat.sub_self, Nat.pow_zero, Nat.div_one]
    omega
  have hOctet :
      0x80 + (64 * p.bits + (octet - 0x80)) / 64 ^ 0 % 64 =
        octet := by
    rw [Nat.pow_zero, Nat.div_one]
    omega
  rw [h.encode_ofNat hCovers, hNeeded, sextets, hOctet, sextets]

end Owes

------------------------------------------------------------
-- First Octets
------------------------------------------------------------

/- Numbers of characters are no surrogates, and bounded. -/
theorem toNat_valid
    (c : Char) :
    c.toNat < 0xd800 ∨ 0xdfff < c.toNat ∧ c.toNat < 0x110000 :=
  c.valid

/- The numbers of the characters with a first octet. -/
def Leads
    (octet n : Nat) : Prop :=
  (n ≤ 0x7f ∧ octet = n) ∨
    (0x7f < n ∧ n ≤ 0x7ff ∧ octet = 0xc0 + n / 64) ∨
    (0x7ff < n ∧ n ≤ 0xffff ∧ octet = 0xe0 + n / 4096) ∨
    (0xffff < n ∧ octet = 0xf0 + n / 262144)

/- How many octets follow a first one. -/
def following
    (octet : Nat) : Nat :=
  if octet < 0x80 then 0
  else if octet < 0xe0 then 1
  else if octet < 0xf0 then 2
  else 3

/- The first octet of a character, by its number. -/
theorem leads_of_begins
    {octet : Nat}
    {c : Char}
    (h : [octet] <+: encode [c]) :
    Leads octet c.toNat := by
  unfold Leads
  rw [encode_char] at h
  split at h
  · have hOctet := (List.cons_prefix_cons.1 h).1
    omega
  · split at h
    · have hOctet := (List.cons_prefix_cons.1 h).1
      omega
    · split at h <;>
        have hOctet := (List.cons_prefix_cons.1 h).1 <;> omega

/- It tells how many others there are. -/
theorem encode_of_leads
    {octet : Nat}
    {c : Char}
    (h : Leads octet c.toNat) :
    encode [c] = octet :: sextets (following octet) c.toNat := by
  have hValid := toNat_valid c
  rw [encode_char, following]
  rcases h with ⟨hLast, rfl⟩ | ⟨hFirst, hLast, rfl⟩ |
    ⟨hFirst, hLast, rfl⟩ | ⟨hFirst, rfl⟩
  · rw [if_pos (by omega), if_pos (by omega)]
    rfl
  · rw [if_neg (by omega), if_pos (by omega), if_neg (by omega),
      if_pos (by omega)]
  · rw [if_neg (by omega), if_neg (by omega), if_pos (by omega),
      if_neg (by omega), if_neg (by omega), if_pos (by omega)]
  · rw [if_neg (by omega), if_neg (by omega), if_neg (by omega),
      if_neg (by omega), if_neg (by omega), if_neg (by omega)]

/- A first octet that is a character is its number. -/
theorem char_of_start
    {octet : Nat}
    {c : Char}
    (h : start octet = .char c) :
    octet < 0x80 ∧ c = Char.ofNat octet := by
  unfold start at h
  by_cases hOctet : octet < 0x80
  · rw [if_pos hOctet] at h
    cases h
    exact ⟨hOctet, rfl⟩
  · rw [if_neg hOctet] at h
    grind

/- First octets that start a character, and what is pending. -/
theorem pending_of_start
    {octet : Nat}
    {p : Pending}
    (h : start octet = .pending p) :
    (0xc2 ≤ octet ∧ octet < 0xe0 ∧
        p = ⟨1, 0x80, 0xbf, octet - 0xc0⟩) ∨
      (octet = 0xe0 ∧ p = ⟨2, 0xa0, 0xbf, 0⟩) ∨
      (octet = 0xed ∧ p = ⟨2, 0x80, 0x9f, 0xd⟩) ∨
      ((0xe1 ≤ octet ∧ octet < 0xf0 ∧ octet ≠ 0xed) ∧
        p = ⟨2, 0x80, 0xbf, octet - 0xe0⟩) ∨
      (octet = 0xf0 ∧ p = ⟨3, 0x90, 0xbf, 0⟩) ∨
      (0xf1 ≤ octet ∧ octet < 0xf4 ∧
        p = ⟨3, 0x80, 0xbf, octet - 0xf0⟩) ∨
      (octet = 0xf4 ∧ p = ⟨3, 0x80, 0x8f, 4⟩) := by
  unfold start at h
  grind

/- First octets that start nothing. -/
theorem bounds_of_start
    {octet : Nat}
    (h : start octet = .invalid) :
    0x80 ≤ octet ∧ (octet < 0xc2 ∨ 0xf4 < octet) := by
  unfold start at h
  grind

/- A first octet that is a character has no others. -/
theorem encode_of_start
    {octet : Nat}
    {c : Char}
    (h : start octet = .char c) :
    encode [c] = [octet] := by
  rcases char_of_start h with ⟨hOctet, rfl⟩
  have hValid : octet.isValidChar := by
    unfold Nat.isValidChar
    omega
  rw [encode_char, toNat_ofNat hValid, if_pos (by omega)]

/- No other character begins with it. -/
theorem eq_of_start
    {octet : Nat}
    {c d : Char}
    (h : start octet = .char c)
    (hBegins : [octet] <+: encode [d]) :
    d = c := by
  rcases char_of_start h with ⟨hOctet, rfl⟩
  have hNumber : d.toNat = octet := by
    have hLeads := leads_of_begins hBegins
    unfold Leads at hLeads
    omega
  rw [← hNumber, Char.ofNat_toNat]

/- As many octets are needed as follow the first one. -/
theorem needed_of_start
    {octet : Nat}
    {p : Pending}
    (h : start octet = .pending p) :
    0 < p.needed ∧ p.needed = following octet := by
  have hPending := pending_of_start h
  unfold following
  grind

/- The next one is in a range of octets that start nothing. -/
theorem range_of_start
    {octet : Nat}
    {p : Pending}
    (h : start octet = .pending p) :
    0x80 ≤ p.least ∧ p.least ≤ p.greatest ∧ p.greatest ≤ 0xbf := by
  have hPending := pending_of_start h
  grind

/- The characters with the first octet are covered. -/
theorem covers_of_start
    {octet : Nat}
    {p : Pending}
    (h : start octet = .pending p)
    (n : Nat) :
    p.Covers n ↔ n.isValidChar ∧ Leads octet n := by
  unfold Pending.Covers Nat.isValidChar Leads
  rcases pending_of_start h with ⟨hFirst, hLast, rfl⟩ | ⟨rfl, rfl⟩ |
    ⟨rfl, rfl⟩ | ⟨hOctet, rfl⟩ | ⟨rfl, rfl⟩ |
    ⟨hFirst, hLast, rfl⟩ | ⟨rfl, rfl⟩ <;>
    simp only [Nat.reduceSub, Nat.reducePow, Nat.div_one] <;> omega

/- So the first octet owes the others. -/
theorem owes_of_start
    {octet : Nat}
    {p : Pending}
    (h : start octet = .pending p) :
    Owes [octet] p := by
  rcases needed_of_start h with ⟨hPositive, hNeeded⟩
  rcases range_of_start h with ⟨hLeast, hOrdered, hGreatest⟩
  have hCovers := covers_of_start h
  constructor
  case started => exact List.cons_ne_nil _ _
  case needed => exact hPositive
  case least => exact hLeast
  case ordered => exact hOrdered
  case greatest => exact hGreatest
  case valid => exact fun n hCovered => ((hCovers n).1 hCovered).1
  case encode =>
    intro c hCovered
    rw [encode_of_leads ((hCovers _).1 hCovered).2, hNeeded]
    rfl
  case covers =>
    exact fun c hBegins =>
      (hCovers _).2 ⟨c.valid, leads_of_begins hBegins⟩

/- Other first octets start no character. -/
theorem not_begins_of_start
    {octet : Nat}
    (h : start octet = .invalid) :
    ¬ Begins [octet] := by
  rintro ⟨c, hBegins⟩
  have hValid := toNat_valid c
  have hLeads := leads_of_begins hBegins
  have hBounds := bounds_of_start h
  unfold Leads at hLeads
  omega

------------------------------------------------------------
-- Decoding
------------------------------------------------------------

/- An octet beyond the range is the first one of what follows. -/
theorem decodeFrom_refused
    {p : Pending}
    {octet : Nat}
    (hRange : ¬ (p.least ≤ octet ∧ octet ≤ p.greatest))
    (rest : List Nat) :
    decodeFrom (some p) (octet :: rest) =
      replacement :: decodeFrom none (octet :: rest) := by
  have hTest :
      (p.least ≤ octet && octet ≤ p.greatest) = false := by
    rw [← Bool.not_eq_true, Bool.and_eq_true, decide_eq_true_eq,
      decide_eq_true_eq]
    exact hRange
  simp only [decodeFrom, hTest, Bool.false_eq_true, if_false]
  cases start octet <;> rfl

/- An octet in the range completes the character or goes on. -/
theorem decodeFrom_taken
    {p : Pending}
    {octet : Nat}
    (hRange : p.least ≤ octet ∧ octet ≤ p.greatest)
    (rest : List Nat) :
    decodeFrom (some p) (octet :: rest) =
      if p.needed ≤ 1 then
        Char.ofNat (64 * p.bits + (octet - 0x80)) ::
          decodeFrom none rest
      else decodeFrom (some (p.after octet)) rest := by
  simp only [decodeFrom, hRange, decide_true, Bool.and_self, if_true]
  rfl

/- The other octets of a character complete it. -/
theorem decodeFrom_sextets
    {octets : List Nat}
    {p : Pending}
    (h : Owes octets p)
    {c : Char}
    (hCovers : p.Covers c.toNat)
    (rest : List Nat) :
    decodeFrom (some p) (sextets p.needed c.toNat ++ rest) =
      c :: decodeFrom none rest := by
  generalize hLeft : p.needed = k
  induction k generalizing octets p with
  | zero => exact absurd hLeft (Nat.ne_of_gt h.needed)
  | succ k ih =>
      have hBegins :
          octets ++ [0x80 + c.toNat / 64 ^ k % 64] <+:
            encode [c] := by
        rw [h.encode c hCovers, hLeft, sextets,
          List.prefix_append_right_inj, List.cons_prefix_cons]
        exact ⟨rfl, List.nil_prefix⟩
      have hOctet := h.next hBegins
      rw [sextets, List.cons_append, decodeFrom_taken hOctet.1,
        hLeft]
      split
      · rename_i hLast
        obtain rfl : k = 0 := by omega
        have hNumber := hOctet.2
        rw [hLeft, Nat.sub_self, Nat.pow_zero, Nat.div_one] at hNumber
        rw [sextets, Nat.pow_zero, Nat.div_one, ← hNumber,
          Char.ofNat_toNat, List.nil_append]
      · have hNeeded : 1 < p.needed := by omega
        have hAfter := h.after hOctet.1 hNeeded
        exact ih hAfter (hAfter.covers c hBegins)
          (Nat.sub_eq_of_eq_add hLeft)

/- The octets of a character are read as it. -/
theorem decodeFrom_encode
    (c : Char)
    (rest : List Nat) :
    decodeFrom none (encode [c] ++ rest) =
      c :: decodeFrom none rest := by
  rcases exists_begins c with ⟨octet, hOctet⟩
  cases hStart : start octet with
  | char d =>
      obtain rfl := eq_of_start hStart hOctet
      rw [encode_of_start hStart, List.singleton_append, decodeFrom,
        hStart]
  | pending p =>
      have hOwes := owes_of_start hStart
      have hCovers := hOwes.covers c hOctet
      rw [hOwes.encode c hCovers, List.append_assoc,
        List.singleton_append, decodeFrom, hStart]
      exact decodeFrom_sextets hOwes hCovers rest
  | invalid =>
      exact absurd ⟨c, hOctet⟩ (not_begins_of_start hStart)

/- The octets of a text are read as the text. -/
theorem decode_encode
    (cs : List Char)
    (rest : List Nat) :
    decode (encode cs ++ rest) = cs ++ decode rest := by
  induction cs with
  | nil => rfl
  | cons c cs ih =>
      rw [encode_cons, List.append_assoc, decode, decodeFrom_encode]
      exact congrArg (c :: ·) ih

/- A character is what begins with its octets. -/
theorem eq_of_prefix_encode
    {c d : Char}
    (h : encode [c] <+: encode [d]) :
    c = d := by
  rcases h with ⟨rest, hRest⟩
  have hBoth := congrArg decode hRest
  have hSecond := decode_encode [d] []
  rw [List.append_nil] at hSecond
  rw [decode_encode, hSecond] at hBoth
  exact (List.cons.inj hBoth).1

------------------------------------------------------------
-- The Decoder and the Rules
------------------------------------------------------------

/- What a character begins with, its own start begins with. -/
theorem Begins.shorten
    {octets others : List Nat}
    (h : Begins others)
    (hPrefix : octets <+: others) :
    Begins octets := by
  rcases h with ⟨c, hBegins⟩
  exact ⟨c, hPrefix.trans hBegins⟩

/- No character stands where a pending one is broken off. -/
theorem Owes.not_encode
    {octets rest : List Nat}
    {p : Pending}
    (h : Owes octets p)
    (hRefused :
      ∀ next ∈ rest.head?, ¬ (p.least ≤ next ∧ next ≤ p.greatest))
    (c : Char) :
    ¬ Utf8.encode [c] <+: octets ++ rest := by
  intro hPrefix
  have hBegins : octets <+: Utf8.encode [c] := by
    rcases List.prefix_or_prefix_of_prefix hPrefix
        (List.prefix_append octets rest) with hShort | hLong
    · rcases h.begins with ⟨d, hBegins⟩
      obtain rfl := eq_of_prefix_encode (hShort.trans hBegins)
      exact hBegins
    · exact hLong
  -- The next octet of the character would be in the range.
  have hCovers := h.covers c hBegins
  rw [h.encode c hCovers, List.prefix_append_right_inj,
    sextets_of_pos h.needed] at hPrefix
  cases rest with
  | nil => exact absurd (List.prefix_nil.1 hPrefix) nofun
  | cons next rest =>
      obtain ⟨rfl, -⟩ := List.cons_prefix_cons.1 hPrefix
      refine hRefused _ rfl (h.next (c := c) ?_).1
      rw [h.encode c hCovers, List.prefix_append_right_inj,
        sextets_of_pos h.needed, List.cons_prefix_cons]
      exact ⟨rfl, List.nil_prefix⟩

/- A pending character that is broken off is replaced. -/
theorem Owes.reads_broken
    {octets rest : List Nat}
    {p : Pending}
    {cs : List Char}
    (h : Owes octets p)
    (hRefused :
      ∀ next ∈ rest.head?, ¬ (p.least ≤ next ∧ next ≤ p.greatest))
    (hRest : Reads rest cs) :
    Reads (octets ++ rest) (replacement :: cs) := by
  rcases List.exists_cons_of_ne_nil h.started with
    ⟨octet, more, rfl⟩
  exact .broken (h.not_encode hRefused) (.inr h.begins)
    (fun next hNext => h.not_begins (hRefused next hNext)) hRest

/- An octet that starts no character is replaced. -/
theorem reads_invalid
    {octet : Nat}
    {rest : List Nat}
    {cs : List Char}
    (h : ¬ Begins [octet])
    (hRest : Reads rest cs) :
    Reads (octet :: rest) (replacement :: cs) := by
  have hNone (c : Char) : ¬ encode [c] <+: [octet] ++ rest := by
    intro hPrefix
    rcases exists_begins c with ⟨first, hFirst⟩
    obtain ⟨rfl, -⟩ :=
      List.cons_prefix_cons.1 (hFirst.trans hPrefix)
    exact h ⟨c, hFirst⟩
  exact .broken hNone (.inl rfl)
    (fun _ _ hNext => h (hNext.shorten (List.prefix_append _ _)))
    hRest

/- What the decoder gives, the rules give. -/
theorem reads_decodeFrom
    (octets : List Nat) :
    Reads octets (decodeFrom none octets) ∧
      ∀ (seen : List Nat) (p : Pending), Owes seen p →
        Reads (seen ++ octets) (decodeFrom (some p) octets) := by
  induction octets with
  | nil => exact ⟨.nil, fun seen p h => h.reads_broken nofun .nil⟩
  | cons octet rest ih =>
      have hNone :
          Reads (octet :: rest) (decodeFrom none (octet :: rest)) := by
        rw [decodeFrom]
        cases hStart : start octet with
        | char c =>
            have hRead := ih.1.char c
            rwa [encode_of_start hStart] at hRead
        | pending p => exact ih.2 [octet] p (owes_of_start hStart)
        | invalid =>
            exact reads_invalid (not_begins_of_start hStart) ih.1
      refine ⟨hNone, fun seen p h => ?_⟩
      by_cases hRange : p.least ≤ octet ∧ octet ≤ p.greatest
      · rw [decodeFrom_taken hRange]
        split
        · rename_i hLast
          have hNeeded : p.needed = 1 :=
            Nat.le_antisymm hLast h.needed
          have hRead :=
            ih.1.char (Char.ofNat (64 * p.bits + (octet - 0x80)))
          rwa [h.encode_last hRange hNeeded, List.append_assoc]
            at hRead
        · rename_i hMore
          have hAfter := h.after hRange (Nat.lt_of_not_le hMore)
          have hRead := ih.2 _ _ hAfter
          rwa [List.append_assoc] at hRead
      · rw [decodeFrom_refused hRange]
        refine h.reads_broken (fun next hNext => ?_) hNone
        obtain rfl := Option.some.inj hNext
        exact hRange

/- What is broken off as long as can be does not go on. -/
theorem eq_nil_of_longest
    {octet : Nat}
    {more extra rest : List Nat}
    (hLongest :
      ∀ next ∈ (extra ++ rest).head?,
        ¬ Begins (octet :: more ++ [next]))
    (hStart :
      more ++ extra = [] ∨ Begins (octet :: (more ++ extra))) :
    extra = [] := by
  cases extra with
  | nil => rfl
  | cons next extra =>
      rcases hStart with hEmpty | hBegins
      · exact absurd hEmpty
          (List.append_ne_nil_of_right_ne_nil _
            (List.cons_ne_nil _ _))
      · refine absurd (hBegins.shorten ?_) (hLongest next rfl)
        exact ⟨extra, by simp⟩

/- The rules leave no choice. -/
theorem Reads.unique
    {octets : List Nat}
    {cs ds : List Char}
    (h : Reads octets cs)
    (hOther : Reads octets ds) :
    cs = ds := by
  induction h generalizing ds with
  | nil =>
      generalize hOctets : [] = octets at hOther
      cases hOther with
      | nil => rfl
      | char c hRest =>
          exact absurd hOctets.symm
            (List.append_ne_nil_of_left_ne_nil (encode_ne_nil c) _)
      | broken => exact absurd hOctets nofun
  | @char rest cs c hRest ih =>
      generalize hOctets : encode [c] ++ rest = octets at hOther
      cases hOther with
      | nil =>
          exact absurd hOctets
            (List.append_ne_nil_of_left_ne_nil (encode_ne_nil c) _)
      | @char others ds d hOthers =>
          have hSame : c = d := by
            rcases List.prefix_or_prefix_of_prefix ⟨rest, hOctets⟩
                (List.prefix_append (encode [d]) others) with h | h
            · exact eq_of_prefix_encode h
            · exact (eq_of_prefix_encode h).symm
          subst hSame
          rw [ih (List.append_cancel_left hOctets ▸ hOthers)]
      | broken hNone => exact absurd ⟨rest, hOctets⟩ (hNone c)
  | @broken octet more rest cs hNone hStart hLongest hRest ih =>
      generalize hOctets : octet :: more ++ rest = octets at hOther
      cases hOther with
      | nil => exact absurd hOctets nofun
      | @char others ds d hOthers =>
          exact absurd ⟨others, hOctets.symm⟩ (hNone d)
      | @broken octet extra others ds hNone' hStart' hLongest'
          hOthers =>
          obtain ⟨rfl, hMore⟩ := List.cons.inj hOctets
          rcases List.append_eq_append_iff.1 hMore with
            ⟨longer, rfl, rfl⟩ | ⟨longer, rfl, rfl⟩
          · obtain rfl := eq_nil_of_longest hLongest hStart'
            rw [ih hOthers]
          · obtain rfl := eq_nil_of_longest hLongest' hStart
            rw [ih hOthers]

/- The decoder gives what the rules say, and nothing else. -/
theorem decode_eq_iff
    {octets : List Nat}
    {cs : List Char} :
    decode octets = cs ↔ Reads octets cs := by
  have hDecode := (reads_decodeFrom octets).1
  exact ⟨fun h => h ▸ hDecode, fun h => hDecode.unique h⟩

end Utf8

end PageExpr
