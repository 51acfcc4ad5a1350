import Mathlib.Data.Nat.Bitwise
import Haiker.Rust.Str

/-!
This module contains the base64 encoding of the cursors. What the encoder pushes to its output is ASCII, and
counts as characters here.
-/

open Rust

namespace ActivityCatalog

def BASE64_CHARS : List Char := "ABCDEFGHIJKLMNOPQRSTUVWXYZabcdefghijklmnopqrstuvwxyz0123456789+/".toList

-- `BASE64_CHARS[i]`, which is never out of range
def base64Char (i : Nat) : Char := BASE64_CHARS.getD i '='

/--
`buffer` is the first `buffer_len` bytes of the buffer, which are the ones that count.
-/
structure Base64Encoder where
  output : List Char
  buffer : List UInt8

namespace Base64Encoder

def new : Base64Encoder := ⟨[], []⟩

def encodeBlock (encoder : Base64Encoder) : Base64Encoder :=
  match encoder.buffer with
  | [b₀] =>
    let i₀ := (b₀ >>> 2).toNat
    let i₁ := ((b₀ &&& 0x03) <<< 4).toNat
    { encoder with output := encoder.output ++ [base64Char i₀, base64Char i₁, '=', '='] }
  | [b₀, b₁] =>
    let i₀ := (b₀ >>> 2).toNat
    let i₁ := ((b₀ &&& 0x03) <<< 4 ||| b₁ >>> 4).toNat
    let i₂ := ((b₁ &&& 0x0f) <<< 2).toNat
    { encoder with output := encoder.output ++ [base64Char i₀, base64Char i₁, base64Char i₂, '='] }
  | [b₀, b₁, b₂] =>
    let i₀ := (b₀ >>> 2).toNat
    let i₁ := ((b₀ &&& 0x03) <<< 4 ||| b₁ >>> 4).toNat
    let i₂ := ((b₁ &&& 0x0f) <<< 2 ||| b₂ >>> 6).toNat
    let i₃ := (b₂ &&& 0x3f).toNat
    {
      output := encoder.output ++ [base64Char i₀, base64Char i₁, base64Char i₂, base64Char i₃]
      buffer := []
    }
  | _ => encoder

-- one byte of `write`
def write (encoder : Base64Encoder) (byte : UInt8) : Base64Encoder :=
  let encoder := { encoder with buffer := encoder.buffer ++ [byte] }
  if encoder.buffer.length = 3 then encoder.encodeBlock else encoder

def finish (encoder : Base64Encoder) : Base64Encoder :=
  if 0 < encoder.buffer.length then encoder.encodeBlock else encoder

end Base64Encoder

def base64Encode (input : String) : String :=
  String.ofList (input.toUTF8.data.toList.foldl Base64Encoder.write .new).finish.output

def base64Value (c : Char) : Option Nat :=
  if 'A' ≤ c ∧ c ≤ 'Z' then
    some (c.toNat - 'A'.toNat)
  else if 'a' ≤ c ∧ c ≤ 'z' then
    some (c.toNat - 'a'.toNat + 26)
  else if '0' ≤ c ∧ c ≤ '9' then
    some (c.toNat - '0'.toNat + 52)
  else if c = '+' then
    some 62
  else if c = '/' then
    some 63
  else
    none

/--
The variables of the loop of `base64_decode_bytes`, two of them of type `u32`.
-/
structure Base64Decoder where
  output : List UInt8
  buffer : Nat
  bitsCollected : Nat

namespace Base64Decoder

def new : Base64Decoder := ⟨[], 0, 0⟩

-- `<<` drops what is shifted out of the 32 bits
def push (decoder : Base64Decoder) (val : Nat) : Base64Decoder :=
  let buffer := decoder.buffer <<< 6 % UInt32.size ||| val
  let bitsCollected := decoder.bitsCollected + 6
  if 8 ≤ bitsCollected then
    let bitsCollected := bitsCollected - 8
    {
      output := decoder.output ++ [UInt8.ofNat (buffer >>> bitsCollected)]
      buffer := buffer &&& (1 <<< bitsCollected - 1)
      bitsCollected
    }
  else
    { decoder with buffer, bitsCollected }

def next (decoder : Base64Decoder) (c : Char) : Except String Base64Decoder :=
  match base64Value c with
  | some val => .ok (decoder.push val)
  | none => .error "invalid base64 character"

end Base64Decoder

-- `trim_end_matches('=')`
def trimPadding (cs : List Char) : List Char := (cs.reverse.dropWhile (· = '=')).reverse

def base64DecodeBytes (input : String) : Except String (List UInt8) :=
  ((trimPadding input.toList).foldlM Base64Decoder.next .new).map (·.output)

def base64Decode (input : String) : Except String String := do
  let bytes ← base64DecodeBytes input
  match String.fromUTF8? ⟨bytes.toArray⟩ with
  | some s => .ok s
  | none => .error "invalid utf8"

example : base64Encode "foob" = "Zm9vYg==" := by decide

/-
What is encoded, as numbers of six bits.
-/

def sextets : List UInt8 → List Nat
  | [] => []
  | [b₀] => [b₀.toNat / 4, b₀.toNat % 4 * 16]
  | [b₀, b₁] => [b₀.toNat / 4, b₀.toNat % 4 * 16 + b₁.toNat / 16, b₁.toNat % 16 * 4]
  | b₀ :: b₁ :: b₂ :: bytes => [b₀.toNat / 4, b₀.toNat % 4 * 16 + b₁.toNat / 16,
      b₁.toNat % 16 * 4 + b₂.toNat / 64, b₂.toNat % 64] ++ sextets bytes

def padding : List UInt8 → List Char
  | [] => []
  | [_] => ['=', '=']
  | [_, _] => ['=']
  | _ :: _ :: _ :: bytes => padding bytes

/-
The operations on bits, as arithmetic.
-/

theorem or_eq_add {a b : Nat} (k : Nat) (ha : a % 2 ^ k = 0) (hb : b < 2 ^ k) : a ||| b = a + b := by
  have hshift : (a / 2 ^ k) <<< k = a := by
    rw [Nat.shiftLeft_eq, Nat.div_mul_cancel (Nat.dvd_of_mod_eq_zero ha)]
  rw [← hshift, Nat.shiftLeft_add_eq_or_of_lt hb]

theorem first_bits (m : Nat) : m >>> 2 = m / 4 := Nat.shiftRight_eq_div_pow m 2

theorem last_bits (m : Nat) : m &&& 63 = m % 64 := Nat.and_two_pow_sub_one_eq_mod m 6

theorem low_two_bits (m : Nat) : (m &&& 3) <<< 4 % 256 = m % 4 * 16 := by
  rw [Nat.and_two_pow_sub_one_eq_mod m 2, Nat.shiftLeft_eq]
  omega

theorem low_four_bits (m : Nat) : (m &&& 15) <<< 2 % 256 = m % 16 * 4 := by
  rw [Nat.and_two_pow_sub_one_eq_mod m 4, Nat.shiftLeft_eq]
  omega

theorem second_bits (m : Nat) {n : Nat} (hn : n < 256)
    : (m &&& 3) <<< 4 % 256 ||| n >>> 4 = m % 4 * 16 + n / 16 := by
  rw [low_two_bits, Nat.shiftRight_eq_div_pow]
  exact or_eq_add 4 (by omega) (by omega)

theorem third_bits (m : Nat) {n : Nat} (hn : n < 256)
    : (m &&& 15) <<< 2 % 256 ||| n >>> 6 = m % 16 * 4 + n / 64 := by
  rw [low_four_bits, Nat.shiftRight_eq_div_pow]
  exact or_eq_add 2 (by omega) (by omega)

/-
The loop of the encoder.
-/

/--
Three bytes are pushed as soon as they are there, and what is left at the end.
-/
theorem Base64Encoder.run_write (output : List Char) (bytes : List UInt8)
    : (bytes.foldl write ⟨output, []⟩).finish.output = output ++ (sextets bytes).map base64Char ++ padding bytes := by
  induction bytes using sextets.induct generalizing output with
  | case1 => simp [sextets, padding, finish]
  | case2 b₀ =>
    simp [sextets, padding, finish, write, encodeBlock, first_bits, low_two_bits]
  | case3 b₀ b₁ =>
    simp [sextets, padding, finish, write, encodeBlock, first_bits, second_bits b₀.toNat b₁.toNat_lt, low_four_bits]
  | case4 b₀ b₁ b₂ bytes ih =>
    have hblock : [b₀, b₁, b₂].foldl write ⟨output, []⟩ = ⟨output ++ (sextets [b₀, b₁, b₂]).map base64Char, []⟩ := by
      simp [sextets, write, encodeBlock, first_bits, second_bits b₀.toNat b₁.toNat_lt,
        third_bits b₁.toNat b₂.toNat_lt, last_bits]
    have hsplit : (b₀ :: b₁ :: b₂ :: bytes).foldl write ⟨output, []⟩
        = bytes.foldl write ([b₀, b₁, b₂].foldl write ⟨output, []⟩) := rfl
    rw [hsplit, hblock, ih]
    simp [sextets, padding]

theorem toList_base64Encode (input : String)
    : (base64Encode input).toList
        = (sextets input.toUTF8.data.toList).map base64Char ++ padding input.toUTF8.data.toList := by
  unfold base64Encode Base64Encoder.new
  rw [String.toList_ofList, Base64Encoder.run_write, List.nil_append]

/-
The loop of the decoder.
-/

set_option maxRecDepth 1000 in
theorem base64Value_base64Char {i : Nat} (hi : i < 64) : base64Value (base64Char i) = some i := by
  have hall : ∀ i < 64, base64Value (base64Char i) = some i := by decide
  exact hall i hi

theorem base64Char_ne {i : Nat} (hi : i < 64) : base64Char i ≠ '=' := by
  intro hpad
  have hvalue := base64Value_base64Char hi
  rw [hpad] at hvalue
  cases hvalue

theorem sextets_lt (bytes : List UInt8) : ∀ i ∈ sextets bytes, i < 64 := by
  induction bytes using sextets.induct with
  | case1 => simp [sextets]
  | case2 b₀ =>
    have h₀ := b₀.toNat_lt
    intro i hi
    simp only [sextets, List.mem_cons, List.not_mem_nil, or_false] at hi
    omega
  | case3 b₀ b₁ =>
    have h₀ := b₀.toNat_lt
    have h₁ := b₁.toNat_lt
    intro i hi
    simp only [sextets, List.mem_cons, List.not_mem_nil, or_false] at hi
    omega
  | case4 b₀ b₁ b₂ bytes ih =>
    have h₀ := b₀.toNat_lt
    have h₁ := b₁.toNat_lt
    have h₂ := b₂.toNat_lt
    intro i hi
    simp only [sextets, List.cons_append, List.nil_append, List.mem_cons] at hi
    rcases hi with rfl | rfl | rfl | rfl | hi
    . omega
    . omega
    . omega
    . omega
    . exact ih i hi

namespace Base64Decoder

/--
Fewer than eight bits are left over, and the buffer has no others.
-/
structure Fits (decoder : Base64Decoder) : Prop where
  bitsCollected : decoder.bitsCollected < 8
  buffer : decoder.buffer < 2 ^ decoder.bitsCollected

theorem fits_mk {output : List UInt8} {buffer bitsCollected : Nat} (hbits : bitsCollected < 8)
    (hbuffer : buffer < 2 ^ bitsCollected) : Fits ⟨output, buffer, bitsCollected⟩ := ⟨hbits, hbuffer⟩

-- nothing is shifted out of the buffer
theorem buffer_eq {u v : Nat} (hu : u < 256) (hv : v < 64) : u <<< 6 % UInt32.size ||| v = u * 64 + v := by
  have hsize : UInt32.size = 4294967296 := rfl
  have hshift : u <<< 6 = u * 64 := Nat.shiftLeft_eq u 6
  rw [hshift, hsize, Nat.mod_eq_of_lt (by omega)]
  exact or_eq_add 6 (by omega) hv

theorem push_eq {decoder : Base64Decoder} (h : decoder.Fits) {val : Nat} (hval : val < 64)
    : decoder.push val
        = if 2 ≤ decoder.bitsCollected then
            {
              output := decoder.output
                ++ [UInt8.ofNat ((decoder.buffer * 64 + val) / 2 ^ (decoder.bitsCollected - 2))]
              buffer := (decoder.buffer * 64 + val) % 2 ^ (decoder.bitsCollected - 2)
              bitsCollected := decoder.bitsCollected - 2
            }
          else
            {
              output := decoder.output
              buffer := decoder.buffer * 64 + val
              bitsCollected := decoder.bitsCollected + 6
            } := by
  have hbuffer : decoder.buffer < 256 :=
    Nat.lt_trans h.buffer (Nat.pow_lt_pow_right (by decide) h.bitsCollected)
  have hbits : decoder.bitsCollected + 6 - 8 = decoder.bitsCollected - 2 := by omega
  have hshift : ∀ n k : Nat, n &&& (1 <<< k - 1) = n % 2 ^ k := by
    intro n k
    rw [Nat.one_shiftLeft, Nat.and_two_pow_sub_one_eq_mod]
  unfold push
  simp only [buffer_eq hbuffer hval, hbits, hshift, Nat.shiftRight_eq_div_pow]
  by_cases henough : 2 ≤ decoder.bitsCollected
  . rw [if_pos henough, if_pos (by omega)]
  . rw [if_neg henough, if_neg (by omega)]

section Block

variable (output : List UInt8) {u v : Nat} (hv : v < 64)
include hv

theorem push_zero : (⟨output, 0, 0⟩ : Base64Decoder).push v = ⟨output, v, 6⟩ := by
  rw [push_eq (fits_mk (by decide) Nat.one_pos) hv]
  simp

theorem push_six (hu : u < 64)
    : (⟨output, u, 6⟩ : Base64Decoder).push v
        = ⟨output ++ [UInt8.ofNat ((u * 64 + v) / 16)], (u * 64 + v) % 16, 4⟩ :=
  push_eq (fits_mk (by decide) hu) hv

theorem push_four (hu : u < 16)
    : (⟨output, u, 4⟩ : Base64Decoder).push v
        = ⟨output ++ [UInt8.ofNat ((u * 64 + v) / 4)], (u * 64 + v) % 4, 2⟩ :=
  push_eq (fits_mk (by decide) hu) hv

theorem push_two (hu : u < 4)
    : (⟨output, u, 2⟩ : Base64Decoder).push v = ⟨output ++ [UInt8.ofNat (u * 64 + v)], 0, 0⟩ := by
  rw [push_eq (fits_mk (by decide) hu) hv]
  simp [Nat.mod_one]

end Block

theorem ofNat_eq {n : Nat} {b : UInt8} (h : n % 256 = b.toNat) : UInt8.ofNat n = b := by
  apply UInt8.toNat_inj.mp
  rw [UInt8.toNat_ofNat']
  exact h

/--
The bytes come out again.
-/
theorem run_push (bytes output : List UInt8)
    : ((sextets bytes).foldl push ⟨output, 0, 0⟩).output = output ++ bytes := by
  induction bytes using sextets.induct generalizing output with
  | case1 => simp [sextets]
  | case2 b₀ =>
    have h₀ := b₀.toNat_lt
    simp only [sextets, List.foldl_cons, List.foldl_nil]
    rw [push_zero output (by omega), push_six output (by omega) (by omega), ofNat_eq (b := b₀) (by omega)]
  | case3 b₀ b₁ =>
    have h₀ := b₀.toNat_lt
    have h₁ := b₁.toNat_lt
    simp only [sextets, List.foldl_cons, List.foldl_nil]
    rw [push_zero output (by omega), push_six output (by omega) (by omega), push_four _ (by omega) (by omega),
      ofNat_eq (b := b₀) (by omega), ofNat_eq (b := b₁) (by omega)]
    simp
  | case4 b₀ b₁ b₂ bytes ih =>
    have h₀ := b₀.toNat_lt
    have h₁ := b₁.toNat_lt
    have h₂ := b₂.toNat_lt
    simp only [sextets, List.cons_append, List.nil_append, List.foldl_cons]
    rw [push_zero output (by omega), push_six output (by omega) (by omega), push_four _ (by omega) (by omega),
      push_two _ (by omega) (by omega), ofNat_eq (b := b₀) (by omega), ofNat_eq (b := b₁) (by omega),
      ofNat_eq (b := b₂) (by omega), ih]
    simp

-- a text of the alphabet is read to its end
theorem foldlM_next {values : List Nat} (h : ∀ i ∈ values, i < 64) (decoder : Base64Decoder)
    : (values.map base64Char).foldlM next decoder = .ok (values.foldl push decoder) := by
  induction values generalizing decoder with
  | nil => rfl
  | cons i values ih =>
    have hnext : decoder.next (base64Char i) = .ok (decoder.push i) := by
      unfold next
      rw [base64Value_base64Char (h i List.mem_cons_self)]
    rw [List.map_cons, List.foldlM_cons, hnext, List.foldl_cons]
    exact ih (fun j hj => h j (List.mem_cons_of_mem _ hj)) (decoder.push i)

end Base64Decoder

/-
Encoding and decoding.
-/

theorem trimPadding_append {cs pad : List Char} (hcs : ∀ c ∈ cs, c ≠ '=') (hpad : ∀ c ∈ pad, c = '=')
    : trimPadding (cs ++ pad) = cs := by
  unfold trimPadding
  rw [List.reverse_append, List.dropWhile_append_of_pos (by simpa using hpad)]
  cases hreverse : cs.reverse with
  | nil => simpa using hreverse.symm
  | cons c rest =>
    have hc : c ≠ '=' := hcs c (List.mem_reverse.mp (hreverse ▸ List.mem_cons_self))
    rw [List.dropWhile_cons_of_neg (by simpa using hc), ← hreverse, List.reverse_reverse]

theorem eq_of_mem_padding (bytes : List UInt8) : ∀ c ∈ padding bytes, c = '=' := by
  induction bytes using padding.induct with
  | case1 => simp [padding]
  | case2 b₀ => simp [padding]
  | case3 b₀ b₁ => simp [padding]
  | case4 b₀ b₁ b₂ bytes ih => simpa [padding] using ih

theorem base64DecodeBytes_base64Encode (input : String)
    : base64DecodeBytes (base64Encode input) = .ok input.toUTF8.data.toList := by
  have hlt := sextets_lt input.toUTF8.data.toList
  have hne : ∀ c ∈ (sextets input.toUTF8.data.toList).map base64Char, c ≠ '=' := by
    intro c hc
    obtain ⟨i, hi, rfl⟩ := List.mem_map.mp hc
    exact base64Char_ne (hlt i hi)
  unfold base64DecodeBytes
  rw [toList_base64Encode, trimPadding_append hne (eq_of_mem_padding _), Base64Decoder.foldlM_next hlt]
  exact congrArg Except.ok (Base64Decoder.run_push input.toUTF8.data.toList [])

theorem base64Decode_base64Encode (input : String) : base64Decode (base64Encode input) = .ok input := by
  unfold base64Decode
  rw [base64DecodeBytes_base64Encode]
  show (match String.fromUTF8? ⟨input.toUTF8.data.toList.toArray⟩ with
    | some s => Except.ok s
    | none => Except.error "invalid utf8") = _
  rw [fromUTF8?_toUTF8]

end ActivityCatalog
