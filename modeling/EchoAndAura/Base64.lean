import Mathlib.Data.List.Basic

/-!
# Base64

`btoa` writes three bytes as four sextets and pads the last group; `atob` takes the padding or none,
and drops the bits of an unfinished byte.  What `sextets` cuts up, `octets` puts together
(`octets_sextets`), and the padding is not needed to read it (`atob_unpadded`).
-/

namespace Base64

section Codec

def digitChar (n : Nat) : Char :=
  if n < 26 then Char.ofNat (n + 65)
  else if n < 52 then Char.ofNat (n + 71)
  else if n < 62 then Char.ofNat (n - 4)
  else if n = 62 then '+' else '/'

def digitValue (c : Char) : Option Nat :=
  if 'A' ≤ c ∧ c ≤ 'Z' then some (c.toNat - 65)
  else if 'a' ≤ c ∧ c ≤ 'z' then some (c.toNat - 71)
  else if '0' ≤ c ∧ c ≤ '9' then some (c.toNat + 4)
  else if c = '+' then some 62
  else if c = '/' then some 63
  else none

def sextets : List UInt8 → List Nat
  | a :: b :: c :: rest =>
    a.toNat / 4 :: (a.toNat % 4 * 16 + b.toNat / 16) :: (b.toNat % 16 * 4 + c.toNat / 64) ::
      c.toNat % 64 :: sextets rest
  | [a, b] => [a.toNat / 4, a.toNat % 4 * 16 + b.toNat / 16, b.toNat % 16 * 4]
  | [a] => [a.toNat / 4, a.toNat % 4 * 16]
  | [] => []

def octets : List Nat → List UInt8
  | a :: b :: c :: d :: rest =>
    UInt8.ofNat (a * 4 + b / 16) :: UInt8.ofNat (b % 16 * 16 + c / 4) ::
      UInt8.ofNat (c % 4 * 64 + d) :: octets rest
  | [a, b, c] => [UInt8.ofNat (a * 4 + b / 16), UInt8.ofNat (b % 16 * 16 + c / 4)]
  | [a, b] => [UInt8.ofNat (a * 4 + b / 16)]
  | _ => []

def padding (n : Nat) : List Char := List.replicate ((4 - n % 4) % 4) '='

def btoa (bytes : List UInt8) : List Char :=
  (sextets bytes).map digitChar ++ padding (sextets bytes).length

def isSpace (c : Char) : Bool :=
  c == ' ' || c == '\t' || c == '\n' || c == '\r' || c == Char.ofNat 12

/-- One or two `=` off the end of a text of whole groups. -/
def unpad (text : List Char) : List Char :=
  if text.length % 4 = 0 then
    if ['=', '='].isSuffixOf text then text.take (text.length - 2)
    else if ['='].isSuffixOf text then text.take (text.length - 1)
    else text
  else text

def atob (text : List Char) : Option (List UInt8) :=
  let digits := unpad (text.filter fun c => !isSpace c)
  if digits.length % 4 = 1 then none else (digits.mapM digitValue).map octets

end Codec

section RoundTrip

theorem digitValue_digitChar : ∀ n < 64, digitValue (digitChar n) = some n := by decide

theorem digitChar_plain : ∀ n < 64, isSpace (digitChar n) = false ∧ digitChar n ≠ '=' := by decide

theorem sextets_lt : ∀ (bytes : List UInt8), ∀ n ∈ sextets bytes, n < 64
  | a :: b :: c :: rest => by
    have ha := a.toNat_lt
    have hb := b.toNat_lt
    have hc := c.toNat_lt
    simp only [sextets, List.forall_mem_cons]
    exact ⟨by omega, by omega, by omega, by omega, sextets_lt rest⟩
  | [a, b] => by
    have ha := a.toNat_lt
    have hb := b.toNat_lt
    simp only [sextets, List.forall_mem_cons, List.not_mem_nil, IsEmpty.forall_iff, implies_true]
    exact ⟨by omega, by omega, by omega, trivial⟩
  | [a] => by
    have ha := a.toNat_lt
    simp only [sextets, List.forall_mem_cons, List.not_mem_nil, IsEmpty.forall_iff, implies_true]
    exact ⟨by omega, by omega, trivial⟩
  | [] => by simp [sextets]

theorem octet_eq {a : UInt8} {n : Nat} (h : n = a.toNat) : UInt8.ofNat n = a := by
  rw [h, UInt8.ofNat_toNat]

theorem octets_sextets : ∀ bytes : List UInt8, octets (sextets bytes) = bytes
  | a :: b :: c :: rest => by
    have ha := a.toNat_lt
    have hb := b.toNat_lt
    have hc := c.toNat_lt
    rw [sextets, octets, octets_sextets rest, octet_eq (by omega : _ = a.toNat),
      octet_eq (by omega : _ = b.toNat), octet_eq (by omega : _ = c.toNat)]
  | [a, b] => by
    have ha := a.toNat_lt
    have hb := b.toNat_lt
    rw [sextets, octets, octet_eq (by omega : _ = a.toNat), octet_eq (by omega : _ = b.toNat)]
  | [a] => by
    have ha := a.toNat_lt
    rw [sextets, octets, octet_eq (by omega : _ = a.toNat)]
  | [] => rfl

theorem length_sextets : ∀ bytes : List UInt8, (sextets bytes).length % 4 ≠ 1
  | _ :: _ :: _ :: rest => by
    have ih := length_sextets rest
    simp only [sextets, List.length_cons]
    omega
  | [_, _] => by simp [sextets]
  | [_] => by simp [sextets]
  | [] => by simp [sextets]

theorem mapM_digitValue : ∀ {digits : List Nat}, (∀ n ∈ digits, n < 64) →
    (digits.map digitChar).mapM digitValue = some digits
  | [], _ => rfl
  | n :: digits, h => by
    rw [List.forall_mem_cons] at h
    rw [List.map_cons, List.mapM_cons, digitValue_digitChar n h.1, mapM_digitValue h.2]
    rfl

theorem unpad_plain {front : List Char} (h : '=' ∉ front) : unpad front = front := by
  have hone : ['='].isSuffixOf front = false := by
    refine Bool.eq_false_iff.2 fun hs => h ?_
    exact (List.isSuffixOf_iff_suffix.1 hs).mem List.mem_cons_self
  have htwo : ['=', '='].isSuffixOf front = false := by
    refine Bool.eq_false_iff.2 fun hs => h ?_
    exact (List.isSuffixOf_iff_suffix.1 hs).mem List.mem_cons_self
  unfold unpad
  simp only [hone, htwo, Bool.false_eq_true, if_false, ite_self]

/-- A text without its padding is read like the text with it. -/
theorem atob_unpadded (bytes : List UInt8) :
    atob ((sextets bytes).map digitChar) = some bytes := by
  have hlt := sextets_lt bytes
  have hspace : ((sextets bytes).map digitChar).filter (fun c => !isSpace c) =
      (sextets bytes).map digitChar := by
    refine List.filter_eq_self.2 fun c hc => ?_
    obtain ⟨n, hn, rfl⟩ := List.mem_map.1 hc
    rw [(digitChar_plain n (hlt n hn)).1]
    rfl
  have hpad : '=' ∉ (sextets bytes).map digitChar := fun hc => by
    obtain ⟨n, hn, he⟩ := List.mem_map.1 hc
    exact (digitChar_plain n (hlt n hn)).2 he
  unfold atob
  dsimp only
  rw [hspace, unpad_plain hpad, List.length_map, if_neg (length_sextets bytes), mapM_digitValue hlt,
    Option.map_some, octets_sextets]

end RoundTrip

end Base64
