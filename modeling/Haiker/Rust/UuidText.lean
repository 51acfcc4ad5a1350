import Mathlib.Data.Nat.Bitwise
import Haiker.Ids

/-!
This module contains the hyphenated text of a UUID.
-/

namespace Uuid

-- the hexadecimal digits from the left
def hexDigit (uuid : Uuid) (i : Nat) : Char :=
  Nat.digitChar (uuid.bits.toNat / 2 ^ (4 * (31 - i)) % 2 ^ 4)

def hexDigits (uuid : Uuid) (from_ count : Nat) : List Char :=
  (List.range' from_ count).map uuid.hexDigit

def hyphenated (uuid : Uuid) : String :=
  String.ofList (uuid.hexDigits 0 8 ++ '-' :: (uuid.hexDigits 8 4 ++ '-' :: (uuid.hexDigits 12 4
    ++ '-' :: (uuid.hexDigits 16 4 ++ '-' :: uuid.hexDigits 20 12))))

example : (⟨0x67e5504410b1426f9247bb680e5fe0c8⟩ : Uuid).hyphenated
    = "67e55044-10b1-426f-9247-bb680e5fe0c8" := by decide

theorem length_hexDigits (uuid : Uuid) (from_ count : Nat)
    : (uuid.hexDigits from_ count).length = count := by
  rw [hexDigits, List.length_map, List.length_range']

theorem length_hyphenated (uuid : Uuid) : uuid.hyphenated.length = 36 := by
  rw [hyphenated, String.length_ofList]
  simp only [List.length_append, List.length_cons, length_hexDigits]

theorem mem_hyphenated {uuid : Uuid} {c : Char} (h : c ∈ uuid.hyphenated.toList)
    : c = '-' ∨ ∃ n < 16, c = Nat.digitChar n := by
  have hdigit : ∀ {from_ count : Nat}, c ∈ uuid.hexDigits from_ count → ∃ n < 16, c = Nat.digitChar n := by
    intro from_ count hc
    obtain ⟨i, _, rfl⟩ := List.mem_map.mp hc
    exact ⟨_, Nat.mod_lt _ (by decide), rfl⟩
  rw [hyphenated, String.toList_ofList] at h
  simp only [List.mem_append, List.mem_cons] at h
  rcases h with hc | rfl | hc | rfl | hc | rfl | hc | rfl | hc
  . exact .inr (hdigit hc)
  . exact .inl rfl
  . exact .inr (hdigit hc)
  . exact .inl rfl
  . exact .inr (hdigit hc)
  . exact .inl rfl
  . exact .inr (hdigit hc)
  . exact .inl rfl
  . exact .inr (hdigit hc)

theorem digitChar_inj {a b : Nat} (ha : a < 16) (hb : b < 16)
    (h : Nat.digitChar a = Nat.digitChar b) : a = b := by
  have hall : ∀ a < 16, ∀ b < 16, Nat.digitChar a = Nat.digitChar b → a = b := by decide
  exact hall a ha b hb h

theorem hexDigit_eq_of_hexDigits {uuid uuid' : Uuid} {from_ count i : Nat}
    (h : uuid.hexDigits from_ count = uuid'.hexDigits from_ count)
    (hfrom : from_ ≤ i) (hi : i < from_ + count) : uuid.hexDigit i = uuid'.hexDigit i :=
  List.map_inj_left.mp h i (List.mem_range'_1.mpr ⟨hfrom, hi⟩)

-- the digit that has a bit
theorem testBit_digit (n : Nat) {j : Nat} (hj : j < 128)
    : (n / 2 ^ (4 * (31 - (31 - j / 4))) % 2 ^ 4).testBit (j % 4) = n.testBit j := by
  have hlt : j % 4 < 4 := Nat.mod_lt _ (by decide)
  have hj' : j % 4 + 4 * (31 - (31 - j / 4)) = j := by omega
  rw [Nat.testBit_mod_two_pow, Nat.testBit_div_two_pow, hj', decide_eq_true hlt, Bool.true_and]

theorem eq_of_hexDigit {uuid uuid' : Uuid} (h : ∀ i < 32, uuid.hexDigit i = uuid'.hexDigit i)
    : uuid = uuid' := by
  have hbits : uuid.bits = uuid'.bits := by
    apply BitVec.eq_of_getLsbD_eq
    intro j hj
    have hdigit : uuid.bits.toNat / 2 ^ (4 * (31 - (31 - j / 4))) % 2 ^ 4
        = uuid'.bits.toNat / 2 ^ (4 * (31 - (31 - j / 4))) % 2 ^ 4 :=
      digitChar_inj (Nat.mod_lt _ (by decide)) (Nat.mod_lt _ (by decide)) (h (31 - j / 4) (by omega))
    rw [BitVec.getLsbD, BitVec.getLsbD, ← testBit_digit _ hj, hdigit, testBit_digit _ hj]
  exact congrArg Uuid.mk hbits

theorem hyphenated_injective : Function.Injective hyphenated := by
  intro uuid uuid' h
  have hchars := String.ofList_inj.mp h
  have hlength : ∀ from_ count,
      (uuid.hexDigits from_ count).length = (uuid'.hexDigits from_ count).length := by
    intro from_ count
    rw [length_hexDigits, length_hexDigits]
  obtain ⟨h₀, hchars⟩ := List.append_inj hchars (hlength _ _)
  obtain ⟨h₁, hchars⟩ := List.append_inj (List.cons.inj hchars).2 (hlength _ _)
  obtain ⟨h₂, hchars⟩ := List.append_inj (List.cons.inj hchars).2 (hlength _ _)
  obtain ⟨h₃, hchars⟩ := List.append_inj (List.cons.inj hchars).2 (hlength _ _)
  have h₄ := (List.cons.inj hchars).2
  apply eq_of_hexDigit
  intro i hi
  by_cases hi₁ : i < 8
  . exact hexDigit_eq_of_hexDigits h₀ (Nat.zero_le _) hi₁
  . by_cases hi₂ : i < 12
    . exact hexDigit_eq_of_hexDigits h₁ (Nat.le_of_not_lt hi₁) hi₂
    . by_cases hi₃ : i < 16
      . exact hexDigit_eq_of_hexDigits h₂ (Nat.le_of_not_lt hi₂) hi₃
      . by_cases hi₄ : i < 20
        . exact hexDigit_eq_of_hexDigits h₃ (Nat.le_of_not_lt hi₃) hi₄
        . exact hexDigit_eq_of_hexDigits h₄ (Nat.le_of_not_lt hi₄) hi

end Uuid
