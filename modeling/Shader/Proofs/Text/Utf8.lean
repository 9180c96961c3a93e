import Mathlib
import Shader.Text.Utf8

namespace Shader.Text.Utf8

open List

variable {b low high : UInt8} {owed payload n v : Nat} {rest : List UInt8}

theorem first_of_two (hl : 0xC2 ≤ n) (hh : n ≤ 0xDF) :
    first (.ofNat n) = ([], .within 1 0x80 0xBF (n % 0x20)) := by
  interval_cases n <;> rfl

theorem first_of_three (hl : 0xE0 ≤ n) (hh : n ≤ 0xEF) : first (.ofNat n) =
    ([], .within 2 (if n = 0xE0 then 0xA0 else 0x80) (if n = 0xED then 0x9F else 0xBF)
      (n % 0x10)) := by
  interval_cases n <;> rfl

theorem first_of_four (hl : 0xF0 ≤ n) (hh : n ≤ 0xF4) : first (.ofNat n) =
    ([], .within 3 (if n = 0xF0 then 0x90 else 0x80) (if n = 0xF4 then 0x8F else 0xBF)
      (n % 0x08)) := by
  interval_cases n <;> rfl

theorem decodeFrom_first {s : State} (h : first b = ([], s)) :
    decodeFrom .start (b :: rest) = decodeFrom s rest := by
  rw [decodeFrom, feed, h, nil_append]

theorem feed_sixBits (hl : low.toNat ≤ v % 64 + 128) (hh : v % 64 + 128 ≤ high.toNat) :
    feed (.within owed low high payload) (.ofNat (v % 64 + 128))
      = if owed = 1 then ([.ofNat (payload * 64 + v % 64)], .start)
        else ([], .within (owed - 1) 0x80 0xBF (payload * 64 + v % 64)) := by
  have hb : (UInt8.ofNat (v % 64 + 128)).toNat = v % 64 + 128 :=
    UInt8.toNat_ofNat_of_lt' (show _ < 256 by omega)
  have hm : (v % 64 + 128) % 64 = v % 64 := by omega
  rw [feed, if_pos ⟨UInt8.le_iff_toNat_le.mpr (by rwa [hb]),
    UInt8.le_iff_toNat_le.mpr (by rwa [hb])⟩, hb, hm]

theorem decodeFrom_sixBits (hl : low.toNat ≤ v % 64 + 128) (hh : v % 64 + 128 ≤ high.toNat) :
    decodeFrom (.within (owed + 2) low high payload) (.ofNat (v % 64 + 128) :: rest)
      = decodeFrom (.within (owed + 1) 0x80 0xBF (payload * 64 + v % 64)) rest := by
  rw [decodeFrom, feed_sixBits hl hh]
  rfl

theorem decodeFrom_lastBits :
    decodeFrom (.within 1 0x80 0xBF payload) (.ofNat (v % 64 + 128) :: rest)
      = .ofNat (payload * 64 + v % 64) :: decodeFrom .start rest := by
  rw [decodeFrom, feed_sixBits (by simp) (by simp; omega)]
  rfl

theorem decodeFrom_one (h : v < 0x80) :
    decodeFrom .start (.ofNat v :: rest) = .ofNat v :: decodeFrom .start rest := by
  have hb : (UInt8.ofNat v).toNat = v := UInt8.toNat_ofNat_of_lt' (show _ < 256 by omega)
  rw [decodeFrom, feed, first, if_pos (UInt8.lt_iff_toNat_lt.mpr (by rwa [hb])), hb]
  rfl

theorem decodeFrom_two (hl : 0x80 ≤ v) (hh : v < 0x800) :
    decodeFrom .start (.ofNat (v / 64 % 32 + 192) :: .ofNat (v % 64 + 128) :: rest)
      = .ofNat v :: decodeFrom .start rest := by
  have hp : (v / 64 % 32 + 192) % 32 * 64 + v % 64 = v := by omega
  rw [decodeFrom_first (first_of_two (by omega) (by omega)), decodeFrom_lastBits, hp]

-- Only the second byte is held to less than six bits, so that nothing is written longer than need
-- be and no surrogate is read.
theorem decodeFrom_three (hl : 0x800 ≤ v) (hh : v < 0x10000) (hs : v < 0xD800 ∨ 0xDFFF < v) :
    decodeFrom .start (.ofNat (v / 4096 % 16 + 224) :: .ofNat (v / 64 % 64 + 128)
      :: .ofNat (v % 64 + 128) :: rest)
      = .ofNat v :: decodeFrom .start rest := by
  have hp : ((v / 4096 % 16 + 224) % 16 * 64 + v / 64 % 64) * 64 + v % 64 = v := by omega
  rw [decodeFrom_first (first_of_three (by omega) (by omega)), decodeFrom_sixBits,
    decodeFrom_lastBits, hp]
  · split <;> simp; omega
  · split <;> simp <;> omega

theorem decodeFrom_four (hl : 0x10000 ≤ v) (hh : v < 0x110000) :
    decodeFrom .start (.ofNat (v / 262144 % 8 + 240) :: .ofNat (v / 4096 % 64 + 128)
      :: .ofNat (v / 64 % 64 + 128)
        :: .ofNat (v % 64 + 128) :: rest)
      = .ofNat v :: decodeFrom .start rest := by
  have hp : (((v / 262144 % 8 + 240) % 8 * 64 + v / 4096 % 64) * 64 + v / 64 % 64) * 64 + v % 64
    = v := by omega
  rw [decodeFrom_first (first_of_four (by omega) (by omega)), decodeFrom_sixBits,
    decodeFrom_sixBits, decodeFrom_lastBits, hp]
  · simp
  · simp; omega
  · split <;> simp; omega
  · split <;> simp <;> omega

theorem decodeFrom_encodeChar (c : Char) (rest : List UInt8) :
    decodeFrom .start (String.utf8EncodeChar c ++ rest) = c :: decodeFrom .start rest := by
  have hc : Char.ofNat c.val.toNat = c := Char.ofNat_toNat c
  have hv : c.val.toNat < 0xD800 ∨ 0xDFFF < c.val.toNat ∧ c.val.toNat < 0x110000 := c.valid
  rw [String.utf8EncodeChar]
  split_ifs with h₁ h₂ h₃
  all_goals simp only [cons_append, nil_append]
  · rw [decodeFrom_one (by omega), hc]
  · rw [decodeFrom_two (by omega) (by omega), hc]
  · rw [decodeFrom_three (by omega) (by omega) (by omega), hc]
  · rw [decodeFrom_four (by omega) (by omega), hc]

theorem decode_encode (text : List Char) : decode (text.flatMap String.utf8EncodeChar) = text := by
  unfold decode
  induction text
  case nil => rfl
  case cons c text hi => rw [flatMap_cons, decodeFrom_encodeChar, hi]

theorem ne_zero_of_mem_encodeChar {c : Char} (hc : c ≠ '\x00') (h : b ∈ String.utf8EncodeChar c) :
    b ≠ 0 := by
  have hv : c.val.toNat ≠ 0 := fun h => hc (Char.ext (UInt32.toNat_inj.mp h))
  rintro rfl
  rw [String.utf8EncodeChar] at h
  split_ifs at h
  all_goals
    simp only [mem_cons, not_mem_nil, or_false, ← UInt8.toNat_inj, UInt8.toNat_ofNat',
      UInt8.toNat_zero] at h
    omega

end Shader.Text.Utf8
