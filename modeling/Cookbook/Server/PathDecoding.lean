import Cookbook.Server.Url

/-!
# Decoding paths

A path is written in octets: characters that stand for themselves, and escapes. `path_after` decodes
every escape as the octet it stands for and every character as itself, except for a plus sign: that one
is taken for a space, as in a form.
-/
namespace Cookbook.Server

open Library.Text

/-- `+`, as it stands in a path. -/
@[simp] abbrev plusSign : UInt8 := 0x2B

/-- What a path has besides escapes: unreserved characters, delimiters inside a segment, and the slashes
between the segments. -/
def isPathChar (c : UInt8) : Bool :=
  isDecimal c || decide (0x41 ≤ c ∧ c ≤ 0x5A) || decide (0x61 ≤ c ∧ c ≤ 0x7A) ||
    (ascii "-._~!$&'()*+,;=:@/").contains c

/-- An octet of a path as it is written. -/
inductive PathOctet
  /-- A character that stands for itself. -/
  | literal (c : UInt8) (allowed : isPathChar c = true)
  /-- A percent sign and two hexadecimal digits, not of the zero octet. -/
  | escape (high low : UInt8) (digits : isHex high = true ∧ isHex low = true)
      (nonzero : 16 * hexValue high + hexValue low ≠ 0)

namespace PathOctet

/-- The characters of an octet. -/
def text : PathOctet → Bytes
  | literal c _ => [c]
  | escape high low _ _ => [0x25, high, low]

/-- What an octet stands for. -/
def value : PathOctet → UInt8
  | literal c _ => c
  | escape high low _ _ => UInt8.ofNat (16 * hexValue high + hexValue low)

/-- A plus sign that stands for itself. -/
def IsPlus : PathOctet → Prop
  | literal c _ => c = plusSign
  | escape _ _ _ _ => False

instance (octet : PathOctet) : Decidable octet.IsPlus :=
  match octet with
  | literal c _ => inferInstanceAs (Decidable (c = plusSign))
  | escape _ _ _ _ => .isFalse id

/-- What `url_decode` makes of an octet. -/
def decoded (octet : PathOctet) : UInt8 := if octet.IsPlus then space else octet.value

end PathOctet

/-- The hexadecimal digits. -/
def hexDigits : Bytes := ascii "0123456789ABCDEFabcdef"

/-- There are no others. -/
theorem mem_hexDigits : ∀ c : UInt8, isHex c = true → c ∈ hexDigits :=
  byte_forall (by decide +kernel)

/-- Two hexadecimal digits are read as their octet. -/
theorem strtolPair_hex {high low : UInt8} (first : isHex high = true) (second : isHex low = true) :
    strtolPair high low = UInt8.ofNat (16 * hexValue high + hexValue low) := by
  have all : ∀ a ∈ hexDigits, ∀ b ∈ hexDigits,
      strtolPair a b = UInt8.ofNat (16 * hexValue a + hexValue b) := by decide +kernel
  exact all high (mem_hexDigits high first) low (mem_hexDigits low second)

/-- A hexadecimal digit is below sixteen. -/
theorem hexValue_lt : ∀ c : UInt8, isHex c = true → hexValue c < 16 :=
  byte_forall (by decide +kernel)

/-- No character of a path is a percent sign or the zero octet. -/
theorem pathChar_spec : ∀ c : UInt8, isPathChar c = true → c ≠ 0x25 ∧ c ≠ 0 :=
  byte_forall (by decide +kernel)

/-- A character that is no percent sign is decoded by itself. -/
theorem urlDecode_cons {c : UInt8} (other : c ≠ 0x25) (rest : Bytes) :
    urlDecode (c :: rest) = (if c = plusSign then space else c) :: urlDecode rest := by
  rw [urlDecode]
  rintro first second rest rfl
  exact absurd rfl other

/-- One octet is decoded by itself. -/
theorem urlDecode_octet (octet : PathOctet) (rest : Bytes) :
    urlDecode (octet.text ++ rest) = octet.decoded :: urlDecode rest := by
  cases octet with
  | literal c allowed => exact urlDecode_cons (pathChar_spec c allowed).1 rest
  | escape high low digits nonzero =>
    have other : ¬ (PathOctet.escape high low digits nonzero).IsPlus := id
    rw [PathOctet.decoded, if_neg other, PathOctet.value, ← strtolPair_hex digits.1 digits.2]
    rfl

/-- All octets are decoded one by one. -/
theorem urlDecode_octets (octets : List PathOctet) :
    urlDecode (octets.flatMap PathOctet.text) = octets.map PathOctet.decoded := by
  induction octets with
  | nil => rfl
  | cons octet octets ih => rw [List.flatMap_cons, urlDecode_octet, ih, List.map_cons]

/-- No octet is decoded as the zero octet. -/
theorem decoded_ne_zero (octet : PathOctet) : octet.decoded ≠ 0 := by
  unfold PathOctet.decoded
  split
  · decide
  · cases octet with
    | literal c allowed => exact (pathChar_spec c allowed).2
    | escape high low digits nonzero =>
      have first := hexValue_lt high digits.1
      have second := hexValue_lt low digits.2
      intro zero
      have number := congrArg UInt8.toNat zero
      rw [PathOctet.value, UInt8.toNat_ofNat'] at number
      have none : (0 : UInt8).toNat = 0 := rfl
      omega

/-- `path_after` decodes the octets behind the prefix. -/
theorem pathAfter_octets (pre : Bytes) (octets : List PathOctet) :
    pathAfter (pre ++ octets.flatMap PathOctet.text) pre = some (octets.map PathOctet.decoded) := by
  have terminated : 0 ∉ octets.map PathOctet.decoded := by
    rintro zero
    obtain ⟨octet, -, none⟩ := List.mem_map.mp zero
    exact decoded_ne_zero octet none
  rw [pathAfter, if_pos (List.prefix_append _ _), List.drop_left, urlDecode_octets,
    cString_terminated terminated]

/-- An octet is decoded as what it stands for, unless it is a plus sign. -/
theorem decoded_eq_value_iff (octet : PathOctet) : octet.decoded = octet.value ↔ ¬ octet.IsPlus := by
  unfold PathOctet.decoded
  split
  · rename_i isPlus
    refine iff_of_false (fun same => ?_) (fun no => no isPlus)
    cases octet with
    | literal c allowed =>
      cases isPlus
      cases same
    | escape => exact isPlus
  · rename_i no
    exact iff_of_true rfl no

/-- The octets are decoded as what they stand for exactly if none is a plus sign. -/
theorem decoded_eq_values_iff (octets : List PathOctet) :
    octets.map PathOctet.decoded = octets.map PathOctet.value ↔ ∀ octet ∈ octets, ¬ octet.IsPlus := by
  rw [List.map_inj_left]
  simp only [decoded_eq_value_iff]

/-- The text behind the prefix is decoded as the path syntax has it exactly if it has no literal plus
sign; and of such texts, those that stand for different octets stay different. -/
theorem pathAfter_decoded_iff (pre : Bytes) (octets : List PathOctet) :
    (pathAfter (pre ++ octets.flatMap PathOctet.text) pre = some (octets.map PathOctet.value) ∧
      ∀ others : List PathOctet, (∀ octet ∈ others, ¬ octet.IsPlus) →
        others.map PathOctet.value ≠ octets.map PathOctet.value →
        pathAfter (pre ++ others.flatMap PathOctet.text) pre ≠
          pathAfter (pre ++ octets.flatMap PathOctet.text) pre) ↔
      ∀ octet ∈ octets, ¬ octet.IsPlus := by
  rw [pathAfter_octets, Option.some.injEq, decoded_eq_values_iff]
  refine ⟨And.left, fun free => ⟨free, fun others clear different same => different ?_⟩⟩
  rw [pathAfter_octets, Option.some.injEq] at same
  rw [← (decoded_eq_values_iff others).mpr clear, same, (decoded_eq_values_iff octets).mpr free]

/-- A version with build metadata loses its plus sign, and another path takes its place. -/
theorem pathAfter_plus :
    pathAfter (ascii "/resolve/1.0.0+1") (ascii "/resolve/") = some (ascii "1.0.0 1") ∧
      pathAfter (ascii "/resolve/1.0.0%201") (ascii "/resolve/") = some (ascii "1.0.0 1") ∧
      ¬ ∀ (pre : Bytes) (octets : List PathOctet),
        pathAfter (pre ++ octets.flatMap PathOctet.text) pre = some (octets.map PathOctet.value) := by
  refine ⟨by decide +kernel, by decide +kernel, fun all => ?_⟩
  have one := all [] [.literal plusSign (by decide)]
  revert one
  decide +kernel

end Cookbook.Server
