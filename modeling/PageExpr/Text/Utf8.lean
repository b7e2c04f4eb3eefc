/-
  Reading octets as UTF-8.  Octets that are no character give
  the replacement character U+FFFD, one for each longest start
  of a character that is broken off.

  Main declarations:
    * `Utf8.Pending`
    * `Utf8.decode`
    * `Utf8.encode`
-/

namespace PageExpr

namespace Utf8

/-
  A character whose first octets have been read: the number of
  octets it still needs, the range of the next one, and the
  bits so far.
-/
structure Pending where
  needed : Nat
  least : Nat
  greatest : Nat
  bits : Nat

/- What stands for octets that are no character. -/
def replacement : Char :=
  '\ufffd'

/- What the first octet of a character starts. -/
inductive Start where
  | char (c : Char)
  | pending (p : Pending)
  | invalid

/-
  The octet after the first is restricted where a shorter form
  or a surrogate would come out, and at the end of the code
  space.
-/
def start
    (octet : Nat) : Start :=
  if octet < 0x80 then .char (Char.ofNat octet)
  else if octet < 0xc2 then .invalid
  else if octet < 0xe0 then .pending ⟨1, 0x80, 0xbf, octet - 0xc0⟩
  else if octet = 0xe0 then .pending ⟨2, 0xa0, 0xbf, 0⟩
  else if octet = 0xed then .pending ⟨2, 0x80, 0x9f, 0xd⟩
  else if octet < 0xf0 then .pending ⟨2, 0x80, 0xbf, octet - 0xe0⟩
  else if octet = 0xf0 then .pending ⟨3, 0x90, 0xbf, 0⟩
  else if octet < 0xf4 then .pending ⟨3, 0x80, 0xbf, octet - 0xf0⟩
  else if octet = 0xf4 then .pending ⟨3, 0x80, 0x8f, 4⟩
  else .invalid

/- What the octets stand for, after a pending character. -/
def decodeFrom
    (pending : Option Pending) : List Nat → List Char
  | [] =>
      match pending with
      | none => []
      | some _ => [replacement]
  | octet :: rest =>
      match pending with
      | none =>
          match start octet with
          | .char c => c :: decodeFrom none rest
          | .pending p => decodeFrom (some p) rest
          | .invalid => replacement :: decodeFrom none rest
      | some p =>
          if p.least ≤ octet && octet ≤ p.greatest then
            let bits := 64 * p.bits + (octet - 0x80)
            if p.needed ≤ 1 then
              Char.ofNat bits :: decodeFrom none rest
            else
              decodeFrom
                (some ⟨p.needed - 1, 0x80, 0xbf, bits⟩) rest
          else
            match start octet with
            | .char c => replacement :: c :: decodeFrom none rest
            | .pending q => replacement :: decodeFrom (some q) rest
            | .invalid =>
                replacement :: replacement :: decodeFrom none rest

/- The characters of octets. -/
def decode
    (octets : List Nat) : List Char :=
  decodeFrom none octets

/- The octets of characters. -/
def encode
    (cs : List Char) : List Nat :=
  cs.flatMap fun c =>
    (String.utf8EncodeChar c).map UInt8.toNat

/- The octets of a text are those of its parts. -/
theorem encode_append
    (s t : List Char) :
    encode (s ++ t) = encode s ++ encode t := by
  simp [encode]

end Utf8

end PageExpr
