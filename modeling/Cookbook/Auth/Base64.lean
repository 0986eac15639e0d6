import Cookbook.Library.Text
import Mathlib.Data.List.DropRight

/-!
# Base64

Tokens are written in the URL-safe alphabet without padding; the `Basic` scheme uses the standard
alphabet. Both decoders work on groups of four characters and stop writing when the destination is
full, so decoding an encoded text gives back as much of it as the destination holds.
-/
namespace Cookbook.Auth

open Library.Text

/-! ## Alphabets -/

/-- Consecutive characters. -/
def charRange (first : UInt8) (count : Nat) : Bytes :=
  (List.range count).map fun index => first + UInt8.ofNat index

/-- `b64url_chars`: the letters, the digits, `-` and `_`. -/
def b64urlChars : Bytes :=
  charRange 0x41 26 ++ (charRange 0x61 26 ++ (charRange 0x30 10 ++ [0x2D, 0x5F]))

/-- The character of a six-bit value. -/
def b64urlChar (value : Nat) : UInt8 := b64urlChars.getD value 0

/-- The letters and digits that both alphabets share. -/
def b64Val (c sixtyTwo sixtyThree : UInt8) : Option Nat :=
  if 0x41 ≤ c ∧ c ≤ 0x5A then some (c.toNat - 0x41)
  else if 0x61 ≤ c ∧ c ≤ 0x7A then some (c.toNat - 0x61 + 26)
  else if 0x30 ≤ c ∧ c ≤ 0x39 then some (c.toNat - 0x30 + 52)
  else if c = sixtyTwo then some 62
  else if c = sixtyThree then some 63
  else none

/-- `b64url_val` -/
def b64urlVal (c : UInt8) : Option Nat := b64Val c 0x2D 0x5F

/-- `b64std_val` -/
def b64stdVal (c : UInt8) : Option Nat := b64Val c 0x2B 0x2F

/-! ## Encoding -/

/-- The loop of `cookbook_base64url_encode` at the position `out` of the destination, none where the
source returns zero. -/
def base64urlEncodeFrom (dstLen : Nat) : Nat → Bytes → Option Bytes
  | _, [] => some []
  | out, [a] =>
    if dstLen < out + 4 then none
    else
      let v := a.toNat * 65536
      some [b64urlChar (v / 262144 % 64), b64urlChar (v / 4096 % 64)]
  | out, [a, b] =>
    if dstLen < out + 4 then none
    else
      let v := a.toNat * 65536 + b.toNat * 256
      some [b64urlChar (v / 262144 % 64), b64urlChar (v / 4096 % 64), b64urlChar (v / 64 % 64)]
  | out, a :: b :: c :: rest =>
    if dstLen < out + 4 then none
    else
      let v := a.toNat * 65536 + b.toNat * 256 + c.toNat
      (base64urlEncodeFrom dstLen (out + 4) rest).map fun coded =>
        b64urlChar (v / 262144 % 64) :: b64urlChar (v / 4096 % 64) ::
          b64urlChar (v / 64 % 64) :: b64urlChar (v % 64) :: coded

/-- `cookbook_base64url_encode`: empty where the destination is too small. -/
def base64urlEncode (src : Bytes) (dstLen : Nat) : Bytes :=
  (base64urlEncodeFrom dstLen 0 src).getD []

/-! ## Decoding -/

/-- The bytes of one group. An absent or unknown third or fourth character is skipped; in front of a
valid fourth one an unknown third one still contributes its sign bits. -/
def quad (v0 v1 : Nat) (v2 v3 : Option Nat) : Bytes :=
  UInt8.ofNat (v0 * 4 + v1 / 16) ::
    ((v2.map fun v2 => UInt8.ofNat (v1 % 16 * 16 + v2 / 4)).toList ++
      (v3.map fun v3 => UInt8.ofNat (v2.getD 3 % 4 * 64 + v3)).toList)

/-- The groups of a text, none where the first or second character of a group is unknown. -/
def decodeQuads (val : UInt8 → Option Nat) : Bytes → Option Bytes
  | [] => some []
  | [c0] => (val c0).map fun v0 => quad v0 0 none none
  | [c0, c1] => (val c0).bind fun v0 => (val c1).map fun v1 => quad v0 v1 none none
  | [c0, c1, c2] => (val c0).bind fun v0 => (val c1).map fun v1 => quad v0 v1 (val c2) none
  | c0 :: c1 :: c2 :: c3 :: rest =>
    (val c0).bind fun v0 => (val c1).bind fun v1 =>
      (decodeQuads val rest).map fun bytes => quad v0 v1 (val c2) (val c3) ++ bytes

/-- Both decoders: the padding is stripped, and a write behind the end of the destination is
skipped. Empty where the source returns zero. -/
def base64DecodeWith (val : UInt8 → Option Nat) (src : Bytes) (dstLen : Nat) : Bytes :=
  ((decodeQuads val (src.rdropWhile (· == 0x3D))).getD []).take dstLen

/-- `cookbook_base64url_decode` -/
def base64urlDecode (src : Bytes) (dstLen : Nat) : Bytes := base64DecodeWith b64urlVal src dstLen

/-- `cookbook_base64_decode` -/
def base64Decode (src : Bytes) (dstLen : Nat) : Bytes := base64DecodeWith b64stdVal src dstLen

/-! ## Round trip -/

/-- An alphabet character has its value, and is neither the padding nor a dot. -/
theorem b64urlChar_spec {value : Nat} (small : value < 64) :
    b64urlVal (b64urlChar value) = some value ∧ b64urlChar value ≠ 0x3D ∧
      b64urlChar value ≠ dot := by
  revert value
  decide +kernel

/-- The three bytes of a full group. -/
theorem quad_bytes (a b c : UInt8) :
    quad ((a.toNat * 65536 + b.toNat * 256 + c.toNat) / 262144 % 64)
      ((a.toNat * 65536 + b.toNat * 256 + c.toNat) / 4096 % 64)
      (some ((a.toNat * 65536 + b.toNat * 256 + c.toNat) / 64 % 64))
      (some ((a.toNat * 65536 + b.toNat * 256 + c.toNat) % 64)) = [a, b, c] := by
  have aSmall := a.toNat_lt
  have bSmall := b.toNat_lt
  have cSmall := c.toNat_lt
  generalize shape : a.toNat * 65536 + b.toNat * 256 + c.toNat = v
  have first : v / 262144 % 64 * 4 + v / 4096 % 64 / 16 = a.toNat := by omega
  have second : v / 4096 % 64 % 16 * 16 + v / 64 % 64 / 4 = b.toNat := by omega
  have third : v / 64 % 64 % 4 * 64 + v % 64 = c.toNat := by omega
  simp only [quad, Option.map_some, Option.toList_some, Option.getD_some, List.cons_append,
    List.nil_append, first, second, third, UInt8.ofNat_toNat]

/-- A destination of four bytes for every started group holds the encoding, which decodes to the
source and has neither dots nor padding. -/
theorem base64urlEncodeFrom_spec (dstLen : Nat) (out : Nat) (src : Bytes)
    (room : out + 4 * ((src.length + 2) / 3) ≤ dstLen) :
    ∃ coded, base64urlEncodeFrom dstLen out src = some coded ∧
      decodeQuads b64urlVal coded = some src ∧ (∀ c ∈ coded, c ≠ 0x3D ∧ c ≠ dot) := by
  have known (value : Nat) := b64urlChar_spec (Nat.mod_lt value (by decide : 0 < 64))
  induction out, src using base64urlEncodeFrom.induct dstLen with
  | case1 out => exact ⟨[], rfl, rfl, by simp⟩
  | case2 out a full => simp at room; omega
  | case3 out a fits =>
    refine ⟨_, by simp only [base64urlEncodeFrom, if_neg fits]; rfl, ?_, by simp [known]⟩
    have small := a.toNat_lt
    have first : a.toNat * 65536 / 262144 % 64 * 4 + a.toNat * 65536 / 4096 % 64 / 16 =
        a.toNat := by omega
    simp only [decodeQuads, (known _).1, Option.bind_some, Option.map_some, quad, Option.map_none,
      Option.toList_none, List.append_nil, first, UInt8.ofNat_toNat]
  | case4 out a b full => simp at room; omega
  | case5 out a b fits =>
    refine ⟨_, by simp only [base64urlEncodeFrom, if_neg fits]; rfl, ?_, by simp [known]⟩
    have aSmall := a.toNat_lt
    have bSmall := b.toNat_lt
    generalize shape : a.toNat * 65536 + b.toNat * 256 = v
    have first : v / 262144 % 64 * 4 + v / 4096 % 64 / 16 = a.toNat := by omega
    have second : v / 4096 % 64 % 16 * 16 + v / 64 % 64 / 4 = b.toNat := by omega
    simp only [decodeQuads, (known _).1, Option.bind_some, Option.map_some, quad, Option.map_none,
      Option.toList_none, Option.toList_some, List.append_nil, first, second, UInt8.ofNat_toNat]
  | case6 out a b c rest full => simp at room; omega
  | case7 out a b c rest fits ih =>
    obtain ⟨coded, encoded, decoded, clean⟩ := ih (by simp at room; omega)
    refine ⟨_, by simp only [base64urlEncodeFrom, if_neg fits, encoded, Option.map_some]; rfl, ?_, ?_⟩
    · simp only [decodeQuads, (known _).1, Option.bind_some, decoded, Option.map_some, quad_bytes,
        List.cons_append, List.nil_append]
    · simpa [known] using clean

/-- An encoding is short and written in the alphabet. -/
theorem base64urlEncodeFrom_chars {dstLen out : Nat} {src coded : Bytes}
    (encoded : base64urlEncodeFrom dstLen out src = some coded) :
    coded.length ≤ 4 * ((src.length + 2) / 3) ∧ ∀ c ∈ coded, ∃ value < 64, c = b64urlChar value := by
  have known (value : Nat) : value % 64 < 64 := Nat.mod_lt value (by decide)
  induction out, src using base64urlEncodeFrom.induct dstLen generalizing coded with
  | case1 out => cases encoded; simp
  | case2 out a full => simp [base64urlEncodeFrom, full] at encoded
  | case3 out a fits =>
    simp only [base64urlEncodeFrom, if_neg fits, Option.some.injEq] at encoded
    subst encoded
    simp only [List.mem_cons, List.not_mem_nil, or_false]
    exact ⟨by simp, by rintro c (rfl | rfl) <;> exact ⟨_, known _, rfl⟩⟩
  | case4 out a b full => simp [base64urlEncodeFrom, full] at encoded
  | case5 out a b fits =>
    simp only [base64urlEncodeFrom, if_neg fits, Option.some.injEq] at encoded
    subst encoded
    simp only [List.mem_cons, List.not_mem_nil, or_false]
    exact ⟨by simp, by rintro c (rfl | rfl | rfl) <;> exact ⟨_, known _, rfl⟩⟩
  | case6 out a b c rest full => simp [base64urlEncodeFrom, full] at encoded
  | case7 out a b c rest fits ih =>
    simp only [base64urlEncodeFrom, if_neg fits, Option.map_eq_some_iff] at encoded
    obtain ⟨more, encoded, rfl⟩ := encoded
    have behind := ih encoded
    constructor
    · have short := behind.1
      simp only [List.length_cons] at short ⊢
      omega
    · simp only [List.mem_cons]
      rintro c (rfl | rfl | rfl | rfl | member)
      · exact ⟨_, known _, rfl⟩
      · exact ⟨_, known _, rfl⟩
      · exact ⟨_, known _, rfl⟩
      · exact ⟨_, known _, rfl⟩
      · exact behind.2 c member

/-- An encoded text decodes to what the destination holds of its source. -/
theorem base64url_roundTrip (src : Bytes) (dstLen : Nat) (size : Nat)
    (room : 4 * ((src.length + 2) / 3) ≤ dstLen) :
    base64urlDecode (base64urlEncode src dstLen) size = src.take size ∧
      dot ∉ base64urlEncode src dstLen ∧ (src ≠ [] → base64urlEncode src dstLen ≠ []) := by
  obtain ⟨coded, encoded, decoded, clean⟩ :=
    base64urlEncodeFrom_spec dstLen 0 src (by omega)
  have text : base64urlEncode src dstLen = coded := by simp [base64urlEncode, encoded]
  rw [text]
  refine ⟨?_, fun member => (clean _ member).2 rfl, ?_⟩
  · have unpadded : coded.rdropWhile (· == 0x3D) = coded := by
      rw [List.rdropWhile_eq_self_iff]
      intro nonempty last
      exact (clean _ (List.getLast_mem nonempty)).1 (by simpa using last)
    simp [base64urlDecode, base64DecodeWith, unpadded, decoded]
  · rintro nonempty rfl
    exact nonempty (by simpa [decodeQuads] using decoded.symm)

end Cookbook.Auth
