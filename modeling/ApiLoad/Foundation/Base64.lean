import Mathlib
import ApiLoad.Foundation.Bytes

/-!
# Base64

The encoding of bytes by the URL-safe alphabet of 64 characters without padding, and its strict
decoder, which refuses characters outside the alphabet and unused bits that are not zero. The
standard alphabet has two other characters; its decoder is lenient, as it skips line ends and
ignores unused bits. Decoding inverts encoding.
-/
namespace ApiLoad.Foundation.Base64
open List

def isURLByte (c : UInt8) : Bool :=
  (65 ≤ c && c ≤ 90) || (97 ≤ c && c ≤ 122) || (48 ≤ c && c ≤ 57) || c = 45 || c = 95

def encodeSextet (n : Nat) : UInt8 :=
  if n < 26 then UInt8.ofNat (65 + n)
  else if n < 52 then UInt8.ofNat (97 + (n - 26))
  else if n < 62 then UInt8.ofNat (48 + (n - 52))
  else if n = 62 then 45
  else 95

def decodeSextet (c : UInt8) : Option Nat :=
  if 65 ≤ c && c ≤ 90 then some (c.toNat - 65)
  else if 97 ≤ c && c ≤ 122 then some (c.toNat - 97 + 26)
  else if 48 ≤ c && c ≤ 57 then some (c.toNat - 48 + 52)
  else if c = 45 then some 62
  else if c = 95 then some 63
  else none

def encodedLen (n : Nat) : Nat := n / 3 * 4 + (n % 3 * 8 + 5) / 6

def encode : Bytes → Bytes
  | [] => []
  | [a] =>
    let v := a.toNat
    [encodeSextet (v / 4), encodeSextet (v % 4 * 16)]
  | [a, b] =>
    let v := a.toNat * 256 + b.toNat
    [encodeSextet (v / 1024), encodeSextet (v / 16 % 64), encodeSextet (v % 16 * 4)]
  | a :: b :: c :: rest =>
    let v := a.toNat * 65536 + b.toNat * 256 + c.toNat
    encodeSextet (v / 262144) :: encodeSextet (v / 4096 % 64) :: encodeSextet (v / 64 % 64) ::
      encodeSextet (v % 64) :: encode rest

def decode : Bytes → Option Bytes
  | [] => some []
  | [_] => none
  | [x, y] => do
    let x ← decodeSextet x
    let y ← decodeSextet y
    if y % 16 = 0 then some [UInt8.ofNat (x * 4 + y / 16)] else none
  | [x, y, z] => do
    let x ← decodeSextet x
    let y ← decodeSextet y
    let z ← decodeSextet z
    if z % 4 = 0 then some [UInt8.ofNat (x * 4 + y / 16), UInt8.ofNat (y % 16 * 16 + z / 4)]
    else none
  | x :: y :: z :: w :: rest => do
    let x ← decodeSextet x
    let y ← decodeSextet y
    let z ← decodeSextet z
    let w ← decodeSextet w
    let bytes ← decode rest
    some (UInt8.ofNat (x * 4 + y / 16) :: UInt8.ofNat (y % 16 * 16 + z / 4) ::
      UInt8.ofNat (z % 4 * 64 + w) :: bytes)

theorem sextet_lawful : ∀ n < 64, decodeSextet (encodeSextet n) = some n ∧
    isURLByte (encodeSextet n) = true := by decide

theorem ofNat_eq {n : Nat} {a : UInt8} (h : n = a.toNat) : UInt8.ofNat n = a := by
  rw [h, UInt8.ofNat_toNat]

theorem encode_urlBytes (bytes : Bytes) : ∀ c ∈ encode bytes, isURLByte c = true := by
  have lawful {n : Nat} (h : n < 64) : isURLByte (encodeSextet n) = true := (sextet_lawful n h).2
  have small (a : UInt8) : a.toNat < 256 := a.toNat_lt
  fun_induction encode bytes with
  | case1 => simp
  | case2 a v =>
    have := small a
    simp only [forall_mem_cons, not_mem_nil, false_implies, implies_true, and_true]
    exact ⟨lawful (by omega), lawful (by omega)⟩
  | case3 a b v =>
    have := small a
    have := small b
    simp only [forall_mem_cons, not_mem_nil, false_implies, implies_true, and_true]
    exact ⟨lawful (by omega), lawful (by omega), lawful (by omega)⟩
  | case4 a b c rest v ih =>
    have := small a
    have := small b
    have := small c
    simp only [forall_mem_cons]
    exact ⟨lawful (by omega), lawful (by omega), lawful (by omega), lawful (by omega), ih⟩

/-! ## The standard alphabet -/

def stdByte (c : UInt8) : UInt8 := if c = 45 then 43 else if c = 95 then 47 else c

def urlByte (c : UInt8) : UInt8 := if c = 43 then 45 else if c = 47 then 95 else c

def padByte : UInt8 := 61

def encodeStd (bytes : Bytes) : Bytes := (encode bytes).map stdByte

def padding (length : Nat) : Bytes := List.replicate ((3 - length % 3) % 3) padByte

def encodePadded (bytes : Bytes) : Bytes := encodeStd bytes ++ padding bytes.length

def decodeStdSextet (c : UInt8) : Option Nat :=
  if c = 43 then some 62
  else if c = 47 then some 63
  else if c = 45 || c = 95 then none
  else decodeSextet c

def decodeSextets : List Nat → Option Bytes
  | [] => some []
  | [_] => none
  | [x, y] => some [UInt8.ofNat (x * 4 + y / 16)]
  | [x, y, z] => some [UInt8.ofNat (x * 4 + y / 16), UInt8.ofNat (y % 16 * 16 + z / 4)]
  | x :: y :: z :: w :: rest =>
    (decodeSextets rest).map fun bytes => UInt8.ofNat (x * 4 + y / 16) ::
      UInt8.ofNat (y % 16 * 16 + z / 4) :: UInt8.ofNat (z % 4 * 64 + w) :: bytes

def decodeRawStd (text : Bytes) : Option Bytes :=
  ((text.filter fun c => c ≠ 10 ∧ c ≠ 13).mapM decodeStdSextet).bind decodeSextets

/-- A text in the standard alphabet without padding, from either alphabet with any padding. -/
def normalize (text : Bytes) : Bytes := (text.rdropWhile (· = padByte)).map stdByte

/-- A text written again with either alphabet, with its padding or without. -/
def reencode (urlSafe padded : Bool) (text : Bytes) : Bytes :=
  let text := if padded then text else text.rdropWhile (· = padByte)
  if urlSafe then text.map urlByte else text

def sextets : Bytes → List Nat
  | [] => []
  | [a] => [a.toNat / 4, a.toNat % 4 * 16]
  | [a, b] =>
    let v := a.toNat * 256 + b.toNat
    [v / 1024, v / 16 % 64, v % 16 * 4]
  | a :: b :: c :: rest =>
    let v := a.toNat * 65536 + b.toNat * 256 + c.toNat
    v / 262144 :: v / 4096 % 64 :: v / 64 % 64 :: v % 64 :: sextets rest

theorem encode_eq_map (bytes : Bytes) : encode bytes = (sextets bytes).map encodeSextet := by
  fun_induction sextets bytes with
  | case1 | case2 | case3 => rfl
  | case4 a b c rest v ih => simp only [encode, ih, map_cons, v]

theorem sextets_lt (bytes : Bytes) : ∀ n ∈ sextets bytes, n < 64 := by
  have small (a : UInt8) : a.toNat < 256 := a.toNat_lt
  fun_induction sextets bytes with
  | case1 => simp
  | case2 a =>
    have := small a
    simp only [forall_mem_cons, not_mem_nil, false_implies, implies_true, and_true]
    omega
  | case3 a b v =>
    have := small a
    have := small b
    simp only [forall_mem_cons, not_mem_nil, false_implies, implies_true, and_true]
    omega
  | case4 a b c rest v ih =>
    have := small a
    have := small b
    have := small c
    simp only [forall_mem_cons]
    exact ⟨by omega, by omega, by omega, by omega, ih⟩

theorem decodeSextets_sextets (bytes : Bytes) : decodeSextets (sextets bytes) = some bytes := by
  have small (a : UInt8) : a.toNat < 256 := a.toNat_lt
  fun_induction sextets bytes with
  | case1 => rfl
  | case2 a =>
    have := small a
    rw [decodeSextets, ofNat_eq (a := a) (by omega)]
  | case3 a b v =>
    have := small a
    have := small b
    rw [decodeSextets, ofNat_eq (a := a) (by omega), ofNat_eq (a := b) (by omega)]
  | case4 a b c rest v ih =>
    have := small a
    have := small b
    have := small c
    rw [decodeSextets, ih, Option.map_some, ofNat_eq (a := a) (by omega),
      ofNat_eq (a := b) (by omega), ofNat_eq (a := c) (by omega)]

theorem std_lawful : ∀ n < 64, decodeStdSextet (stdByte (encodeSextet n)) = some n := by decide

theorem url_lawful (c : UInt8) (h : isURLByte c = true) :
    c ≠ padByte ∧ stdByte c ≠ 10 ∧ stdByte c ≠ 13 := by
  revert h
  revert c
  decide +kernel

theorem stdByte_urlByte (c : UInt8) : stdByte (urlByte c) = stdByte c := by
  revert c
  decide +kernel

theorem stdByte_stdByte (c : UInt8) : stdByte (stdByte c) = stdByte c := by
  revert c
  decide +kernel

theorem stdByte_eq_pad (c : UInt8) : stdByte c = padByte ↔ c = padByte := by
  revert c
  decide +kernel

theorem urlByte_eq_pad (c : UInt8) : urlByte c = padByte ↔ c = padByte := by
  revert c
  decide +kernel

/-- Lenient decoding inverts the encoding with the standard alphabet. -/
theorem decodeRawStd_encodeStd (bytes : Bytes) : decodeRawStd (encodeStd bytes) = some bytes := by
  have no_line_end : (encodeStd bytes).filter (fun c => c ≠ 10 ∧ c ≠ 13) = encodeStd bytes := by
    rw [filter_eq_self]
    intro c hc
    obtain ⟨d, hd, rfl⟩ := mem_map.mp hc
    have := url_lawful d (encode_urlBytes bytes d hd)
    simpa using this.2
  have numbers : (encodeStd bytes).mapM decodeStdSextet = some (sextets bytes) := by
    rw [encodeStd, encode_eq_map]
    generalize hs : sextets bytes = numbers
    have bound : ∀ n ∈ numbers, n < 64 := hs ▸ sextets_lt bytes
    clear hs no_line_end
    induction numbers with
    | nil => rfl
    | cons n numbers ih =>
      rw [map_cons, map_cons, mapM_cons, std_lawful n (bound n (by simp)),
        ih fun m hm => bound m (by simp [hm])]
      rfl
  rw [decodeRawStd, no_line_end, numbers, Option.bind_some, decodeSextets_sextets]

/-! ## Padding and alphabets do not matter to a normalized text -/

theorem map_rdropWhile_pad (f : UInt8 → UInt8) (h : ∀ c, f c = padByte ↔ c = padByte)
    (text : Bytes) :
    (text.map f).rdropWhile (· = padByte) = (text.rdropWhile (· = padByte)).map f := by
  have same : ((fun c => decide (c = padByte)) ∘ f) = fun c => decide (c = padByte) := by
    funext c
    simp [h c]
  rw [rdropWhile, rdropWhile, ← map_reverse, dropWhile_map, same,
    map_reverse]

theorem normalize_reencode (urlSafe padded : Bool) (text : Bytes) :
    normalize (reencode urlSafe padded text) = normalize text := by
  have unpadded (text : Bytes) : normalize (text.rdropWhile (· = padByte)) = normalize text := by
    rw [normalize, rdropWhile_idempotent, normalize]
  have other_alphabet (text : Bytes) : normalize (text.map urlByte) = normalize text := by
    rw [normalize, map_rdropWhile_pad _ urlByte_eq_pad, map_map, normalize]
    exact map_congr_left fun c _ => stdByte_urlByte c
  cases urlSafe <;> cases padded <;>
    simp only [reencode, Bool.false_eq_true, if_false, if_true, unpadded, other_alphabet]

theorem normalize_encodePadded (bytes : Bytes) :
    normalize (encodePadded bytes) = encodeStd bytes := by
  have no_pad : ∀ c ∈ encodeStd bytes, c ≠ padByte := by
    intro c hc
    obtain ⟨d, hd, rfl⟩ := mem_map.mp hc
    rw [ne_eq, stdByte_eq_pad]
    exact (url_lawful d (encode_urlBytes bytes d hd)).1
  have trimmed : (encodePadded bytes).rdropWhile (· = padByte) = encodeStd bytes := by
    rw [rdropWhile, encodePadded, reverse_append, padding, reverse_replicate,
      dropWhile_append_of_pos (by simp [mem_replicate])]
    rw [dropWhile_eq_self_iff.mpr, reverse_reverse]
    intro hl
    simpa using no_pad _ (mem_reverse.mp (getElem_mem hl))
  rw [normalize, trimmed, encodeStd, map_map]
  exact map_congr_left fun c _ => stdByte_stdByte c

end ApiLoad.Foundation.Base64
