import Haiker.ActivityCatalog.ActivityListing

/-!
This module contains that cursors are decoded to what has been encoded, how the encoding looks, and that the
decoder has room for its bits whatever it reads.
-/

open Rust

namespace ActivityCatalog

/-
What the encoder writes.
-/

/--
A text in base64 of `n` bytes, by the standard alphabet.
-/
structure IsBase64 (n : Nat) (text : String) : Prop where
  length : text.toList.length = 4 * ((n + 2) / 3)
  alphabet : ∃ digits, text.toList = digits ++ List.replicate ((3 - n % 3) % 3) '=' ∧ ∀ c ∈ digits, c ∈ BASE64_CHARS

theorem length_sextets (bytes : List UInt8) : (sextets bytes).length = bytes.length + (bytes.length + 2) / 3 := by
  induction bytes using sextets.induct with
  | case1 => rfl
  | case2 b₀ => simp [sextets]
  | case3 b₀ b₁ => simp [sextets]
  | case4 b₀ b₁ b₂ bytes ih =>
    rw [sextets, List.length_append, ih]
    simp only [List.length_cons, List.length_nil]
    omega

theorem padding_eq (bytes : List UInt8) : padding bytes = List.replicate ((3 - bytes.length % 3) % 3) '=' := by
  induction bytes using padding.induct with
  | case1 => rfl
  | case2 b₀ => rfl
  | case3 b₀ b₁ => rfl
  | case4 b₀ b₁ b₂ bytes ih =>
    have hlength : (b₀ :: b₁ :: b₂ :: bytes).length % 3 = bytes.length % 3 := by
      simp only [List.length_cons]
      omega
    rw [padding, ih, hlength]

theorem base64Char_mem {i : Nat} (hi : i < 64) : base64Char i ∈ BASE64_CHARS := by
  have hlength : i < BASE64_CHARS.length := hi
  rw [base64Char, List.getD_eq_getElem _ _ hlength]
  exact List.getElem_mem hlength

theorem isBase64_base64Encode (input : String) : IsBase64 input.utf8ByteSize (base64Encode input) := by
  have hsize : input.toUTF8.data.toList.length = input.utf8ByteSize := Array.length_toList
  constructor
  . rw [toList_base64Encode, List.length_append, List.length_map, length_sextets, padding_eq, List.length_replicate,
      hsize]
    omega
  . refine ⟨(sextets input.toUTF8.data.toList).map base64Char, ?_, ?_⟩
    . rw [toList_base64Encode, padding_eq, hsize]
    . intro c hc
      obtain ⟨i, hi, rfl⟩ := List.mem_map.mp hc
      exact base64Char_mem (sextets_lt _ i hi)

/-
What the decoder holds.
-/

theorem toNat_le {c d : Char} (h : c ≤ d) : c.toNat ≤ d.toNat := UInt32.le_iff_toNat_le.mp (Char.le_def.mp h)

theorem base64Value_lt {c : Char} {val : Nat} (h : base64Value c = some val) : val < 64 := by
  have hupper : 'Z'.toNat = 90 ∧ 'A'.toNat = 65 := by decide
  have hlower : 'z'.toNat = 122 ∧ 'a'.toNat = 97 := by decide
  have hdigit : '9'.toNat = 57 ∧ '0'.toNat = 48 := by decide
  unfold base64Value at h
  split at h
  . next hc =>
    have := toNat_le hc.2
    obtain rfl := Option.some.inj h
    omega
  split at h
  . next hc =>
    have := toNat_le hc.2
    obtain rfl := Option.some.inj h
    omega
  split at h
  . next hc =>
    have := toNat_le hc.2
    obtain rfl := Option.some.inj h
    omega
  split at h
  . obtain rfl := Option.some.inj h
    decide
  split at h
  . obtain rfl := Option.some.inj h
    decide
  . cases h

namespace Base64Decoder

/--
There are fewer than eight bits left over, and six more fit into the `u32`s.
-/
structure HasRoom (decoder : Base64Decoder) : Prop extends Fits decoder where
  shift : ∀ val < 64, decoder.buffer <<< 6 ||| val < UInt32.size
  count : decoder.bitsCollected + 6 < UInt32.size

theorem Fits.buffer_lt {decoder : Base64Decoder} (h : decoder.Fits) : decoder.buffer < 256 :=
  Nat.lt_trans h.buffer (Nat.pow_lt_pow_right (by decide) h.bitsCollected)

theorem Fits.hasRoom {decoder : Base64Decoder} (h : decoder.Fits) : decoder.HasRoom where
  toFits := h
  shift val hval := by
    have hbuffer := h.buffer_lt
    have hsize : UInt32.size = 4294967296 := rfl
    have hshift : decoder.buffer <<< 6 = decoder.buffer * 64 := Nat.shiftLeft_eq decoder.buffer 6
    rw [hshift, or_eq_add 6 (by omega) hval]
    omega
  count := by
    have hbits := h.bitsCollected
    have hsize : UInt32.size = 4294967296 := rfl
    omega

theorem Fits.push {decoder : Base64Decoder} (h : decoder.Fits) {val : Nat} (hval : val < 64)
    : (decoder.push val).Fits := by
  have hbits := h.bitsCollected
  rw [push_eq h hval]
  split
  . exact fits_mk (by omega) (Nat.mod_lt _ (Nat.two_pow_pos _))
  . apply fits_mk (by omega)
    have hbuffer := h.buffer
    rw [Nat.pow_add]
    omega

theorem Fits.foldlM {cs : List Char} {decoder decoder' : Base64Decoder} (h : decoder.Fits)
    (hread : cs.foldlM next decoder = .ok decoder') : decoder'.Fits := by
  induction cs generalizing decoder with
  | nil =>
    obtain rfl := Except.ok.inj hread
    exact h
  | cons c cs ih =>
    rw [List.foldlM_cons] at hread
    unfold next at hread
    cases hvalue : base64Value c with
    | none =>
      rw [hvalue] at hread
      cases hread
    | some val =>
      rw [hvalue] at hread
      exact ih (h.push (base64Value_lt hvalue)) hread

theorem fits_new : new.Fits := fits_mk (by decide) Nat.one_pos

end Base64Decoder

/--
What has been encoded is decoded, in base64 and as a cursor, and the decoder has room in every round of its
loop.
-/
theorem cursor_codec_round_trip (externals : CursorExternals)
    : (∀ input, base64Decode (base64Encode input) = .ok input ∧ IsBase64 input.utf8ByteSize (base64Encode input))
        ∧ (∀ (input : String) read, read <+: trimPadding input.toList →
          ∀ decoder, read.foldlM Base64Decoder.next .new = .ok decoder → decoder.HasRoom)
        ∧ ∀ payload, externals.payloadFromString (externals.payloadToString payload) = some payload →
          decodeCursor externals (encodeCursor externals payload) = .ok payload := by
  refine ⟨?_, ?_, ?_⟩
  . intro input
    exact ⟨base64Decode_base64Encode input, isBase64_base64Encode input⟩
  . intro input read _ decoder hread
    exact (Base64Decoder.fits_new.foldlM hread).hasRoom
  . intro payload hjson
    exact decodeCursor_encodeCursor hjson

def listedPayload : CursorPayload := ⟨some "1970-01-01T00:00:00+00:00", (⟨10⟩ : Uuid).hyphenated⟩

theorem cursor_codec_round_trip_listedPayload
    : decodeCursor listedExternals (encodeCursor listedExternals listedPayload) = .ok listedPayload :=
  (cursor_codec_round_trip listedExternals).2.2 listedPayload (by decide)

end ActivityCatalog
