import Cookbook.Auth.Base64

/-!
# Canonical base64 texts

A decoder accepts many texts for one byte string: it skips unknown characters in the second half
of a group, drops the unused bits of the last character and stops writing at the end of the
destination. The canonical texts are those that an encoder writes, and the law that re-encoding
a result gives its text back holds of these and of the texts with an empty result alone.
-/
namespace Cookbook.Auth

open Library.Text

/-! ## Alphabets -/

/-- An alphabet of sixty-four characters, each with its value. -/
structure Alphabet where
  /-- The value of a character. -/
  val : UInt8 → Option Nat
  /-- The character of a value. -/
  char : Nat → UInt8
  val_char : ∀ value < 64, val (char value) = some value
  val_some : ∀ c value, val c = some value → value < 64 ∧ char value = c

/-- The characters of the standard alphabet. -/
def b64stdChars : Bytes :=
  charRange 0x41 26 ++ (charRange 0x61 26 ++ (charRange 0x30 10 ++ [0x2B, 0x2F]))

/-- The character of a six-bit value in the standard alphabet. -/
def b64stdChar (value : Nat) : UInt8 := b64stdChars.getD value 0

theorem b64urlVal_some (c : UInt8) (value : Nat) (known : b64urlVal c = some value) :
    value < 64 ∧ b64urlChar value = c := by
  have all : ∀ n < 256, (b64urlVal (UInt8.ofNat n)).all
      (fun value => decide (value < 64 ∧ b64urlChar value = UInt8.ofNat n)) = true := by
    decide +kernel
  simpa [known] using all c.toNat c.toNat_lt

theorem b64stdVal_some (c : UInt8) (value : Nat) (known : b64stdVal c = some value) :
    value < 64 ∧ b64stdChar value = c := by
  have all : ∀ n < 256, (b64stdVal (UInt8.ofNat n)).all
      (fun value => decide (value < 64 ∧ b64stdChar value = UInt8.ofNat n)) = true := by
    decide +kernel
  simpa [known] using all c.toNat c.toNat_lt

/-- The URL-safe alphabet. -/
def b64url : Alphabet where
  val := b64urlVal
  char := b64urlChar
  val_char := fun _ small => (b64urlChar_spec small).1
  val_some := b64urlVal_some

/-- The standard alphabet. -/
def b64std : Alphabet where
  val := b64stdVal
  char := b64stdChar
  val_char := by decide +kernel
  val_some := b64stdVal_some

/-! ## Encoding in an alphabet -/

/-- The text of a byte string, without padding and with no destination to fill. -/
def encodeText (char : Nat → UInt8) : Bytes → Bytes
  | [] => []
  | [a] =>
    let v := a.toNat * 65536
    [char (v / 262144 % 64), char (v / 4096 % 64)]
  | [a, b] =>
    let v := a.toNat * 65536 + b.toNat * 256
    [char (v / 262144 % 64), char (v / 4096 % 64), char (v / 64 % 64)]
  | a :: b :: c :: rest =>
    let v := a.toNat * 65536 + b.toNat * 256 + c.toNat
    char (v / 262144 % 64) :: char (v / 4096 % 64) :: char (v / 64 % 64) :: char (v % 64) ::
      encodeText char rest

/-- The text has four characters for three bytes, with the last group cut short. -/
theorem encodeText_length (char : Nat → UInt8) (src : Bytes) :
    (encodeText char src).length = (4 * src.length + 2) / 3 := by
  induction src using encodeText.induct with
  | case1 => rfl
  | case2 a => simp [encodeText]
  | case3 a b => simp [encodeText]
  | case4 a b c rest ih =>
    simp only [encodeText, List.length_cons, ih]
    omega

/-- The encoder writes the whole text where four places are free for every begun group, and gives
up otherwise. -/
theorem base64urlEncodeFrom_eq (dstLen out : Nat) (src : Bytes) :
    base64urlEncodeFrom dstLen out src =
      if src = [] ∨ out + 4 * ((src.length + 2) / 3) ≤ dstLen then
        some (encodeText b64urlChar src)
      else none := by
  induction out, src using base64urlEncodeFrom.induct dstLen with
  | case1 out => simp [base64urlEncodeFrom, encodeText]
  | case2 out a full => simp [base64urlEncodeFrom, full]
  | case3 out a fits => simp [base64urlEncodeFrom, encodeText, fits, Nat.not_lt.mp fits]
  | case4 out a b full => simp [base64urlEncodeFrom, full]
  | case5 out a b fits => simp [base64urlEncodeFrom, encodeText, fits, Nat.not_lt.mp fits]
  | case6 out a b c rest full =>
    have crowded : ¬ out + 4 * ((rest.length + 1 + 1 + 1 + 2) / 3) ≤ dstLen := by omega
    simp [base64urlEncodeFrom, full, crowded]
  | case7 out a b c rest fits ih =>
    have room : rest = [] ∨ out + 4 + 4 * ((rest.length + 2) / 3) ≤ dstLen ↔
        out + 4 * ((rest.length + 1 + 1 + 1 + 2) / 3) ≤ dstLen := by
      constructor
      · rintro (rfl | behind)
        · simpa using fits
        · omega
      · intro whole
        exact .inr (by omega)
    simp only [base64urlEncodeFrom, if_neg fits, ih, encodeText, List.length_cons, reduceCtorEq,
      false_or, room]
    split <;> rfl

/-- With four places for every begun group the text is whole and decodes to its source; with too
few for the text, or for its last group padded, the encoder returns nothing. -/
theorem base64url_decode_encode (src : Bytes) (dstLen size : Nat) :
    (4 * ((src.length + 2) / 3) ≤ dstLen → base64urlEncode src dstLen = encodeText b64urlChar src) ∧
    (4 * ((src.length + 2) / 3) ≤ dstLen → src.length ≤ size →
      base64urlDecode (base64urlEncode src dstLen) size = src) ∧
    (dstLen < 4 * ((src.length + 2) / 3) → base64urlEncode src dstLen = []) ∧
    (dstLen < (encodeText b64urlChar src).length → base64urlEncode src dstLen = []) := by
  have written := base64urlEncodeFrom_eq dstLen 0 src
  have crowded (few : dstLen < 4 * ((src.length + 2) / 3)) : base64urlEncode src dstLen = [] := by
    have nonempty : src ≠ [] := by rintro rfl; simp at few
    rw [if_neg (by simp only [nonempty, false_or]; omega)] at written
    rw [base64urlEncode, written, Option.getD_none]
  refine ⟨fun room => ?_, fun room large => ?_, crowded, fun few => crowded ?_⟩
  · rw [if_pos (.inr (by omega))] at written
    rw [base64urlEncode, written, Option.getD_some]
  · rw [(base64url_roundTrip src dstLen size room).1, List.take_of_length_le large]
  · rw [encodeText_length] at few
    omega

/-- Five bytes in a destination of eight. -/
theorem base64url_decode_encode_five :
    base64urlDecode (base64urlEncode [1, 2, 3, 254, 255] 8) 5 = [1, 2, 3, 254, 255] ∧
      base64urlEncode [1, 2, 3, 254, 255] 6 = [] :=
  ⟨(base64url_decode_encode [1, 2, 3, 254, 255] 8 5).2.1 (by decide) (by decide),
    (base64url_decode_encode [1, 2, 3, 254, 255] 6 5).2.2.2 (by decide)⟩

/-! ## Canonical and refused texts -/

variable (alphabet : Alphabet)

/-- A text of known characters, its last group not a single character and with no bit set that
belongs to no byte. -/
def Canonical : Bytes → Prop
  | [] => True
  | [_] => False
  | [c0, c1] => (alphabet.val c0).isSome ∧ ∃ v1, alphabet.val c1 = some v1 ∧ v1 % 16 = 0
  | [c0, c1, c2] =>
    (alphabet.val c0).isSome ∧ (alphabet.val c1).isSome ∧
      ∃ v2, alphabet.val c2 = some v2 ∧ v2 % 4 = 0
  | c0 :: c1 :: c2 :: c3 :: rest =>
    (alphabet.val c0).isSome ∧ (alphabet.val c1).isSome ∧ (alphabet.val c2).isSome ∧
      (alphabet.val c3).isSome ∧ Canonical rest

/-- A text with an unknown first or second character in some group. -/
def Refused : Bytes → Prop
  | [] => False
  | [c0] => alphabet.val c0 = none
  | [c0, c1] => alphabet.val c0 = none ∨ alphabet.val c1 = none
  | [c0, c1, _] => alphabet.val c0 = none ∨ alphabet.val c1 = none
  | c0 :: c1 :: _ :: _ :: rest => alphabet.val c0 = none ∨ alphabet.val c1 = none ∨ Refused rest

/-- The bytes of a group of known values lie below their bounds. -/
theorem toNat_ofNat_small {n : Nat} (small : n < 256) : (UInt8.ofNat n).toNat = n := by
  rw [UInt8.toNat_ofNat', Nat.mod_eq_of_lt (by simpa using small)]

variable {alphabet}

/-- A refused text decodes to nothing, and no other one does but the empty one. -/
theorem decodeQuads_none_iff (text : Bytes) :
    decodeQuads alphabet.val text = none ↔ Refused alphabet text := by
  induction text using decodeQuads.induct with
  | case1 => simp [decodeQuads, Refused]
  | case2 c0 => simp [decodeQuads, Refused]
  | case3 c0 c1 => cases first : alphabet.val c0 <;> simp [decodeQuads, Refused, first]
  | case4 c0 c1 c2 => cases first : alphabet.val c0 <;> simp [decodeQuads, Refused, first]
  | case5 c0 c1 c2 c3 rest ih =>
    cases first : alphabet.val c0 with
    | none => simp [decodeQuads, Refused, first]
    | some v0 =>
      cases second : alphabet.val c1 with
      | none => simp [decodeQuads, Refused, first, second]
      | some v1 => simp [decodeQuads, Refused, first, second, ih]

/-- Every group has a byte. -/
theorem decodeQuads_nonempty {text bytes : Bytes} (nonempty : text ≠ [])
    (decoded : decodeQuads alphabet.val text = some bytes) : bytes ≠ [] := by
  rintro rfl
  induction text using decodeQuads.induct with
  | case1 => exact nonempty rfl
  | case2 c0 => simp [decodeQuads, quad] at decoded
  | case3 c0 c1 => simp [decodeQuads, quad, Option.bind_eq_some_iff] at decoded
  | case4 c0 c1 c2 => simp [decodeQuads, quad, Option.bind_eq_some_iff] at decoded
  | case5 c0 c1 c2 c3 rest ih => simp [decodeQuads, quad, Option.bind_eq_some_iff] at decoded

/-- A canonical text decodes, to a byte string of its length whose text it is. -/
theorem Canonical.decoded {text : Bytes} (canonical : Canonical alphabet text) :
    ∃ bytes, decodeQuads alphabet.val text = some bytes ∧
      bytes.length = text.length * 3 / 4 ∧ encodeText alphabet.char bytes = text := by
  induction text using decodeQuads.induct with
  | case1 => exact ⟨[], rfl, rfl, rfl⟩
  | case2 c0 => exact canonical.elim
  | case3 c0 c1 =>
    obtain ⟨first, v1, second, unused⟩ := canonical
    obtain ⟨v0, first⟩ := Option.isSome_iff_exists.mp first
    obtain ⟨small0, char0⟩ := alphabet.val_some c0 v0 first
    obtain ⟨small1, char1⟩ := alphabet.val_some c1 v1 second
    refine ⟨quad v0 v1 none none, by simp [decodeQuads, first, second], by simp [quad], ?_⟩
    have high : (v0 * 4 + v1 / 16) * 65536 / 262144 % 64 = v0 := by omega
    have low : (v0 * 4 + v1 / 16) * 65536 / 4096 % 64 = v1 := by omega
    simp only [quad, Option.map_none, Option.toList_none, List.append_nil, encodeText,
      toNat_ofNat_small (show v0 * 4 + v1 / 16 < 256 by omega), high, low, char0, char1]
  | case4 c0 c1 c2 =>
    obtain ⟨first, second, v2, third, unused⟩ := canonical
    obtain ⟨v0, first⟩ := Option.isSome_iff_exists.mp first
    obtain ⟨v1, second⟩ := Option.isSome_iff_exists.mp second
    obtain ⟨small0, char0⟩ := alphabet.val_some c0 v0 first
    obtain ⟨small1, char1⟩ := alphabet.val_some c1 v1 second
    obtain ⟨small2, char2⟩ := alphabet.val_some c2 v2 third
    refine ⟨quad v0 v1 (some v2) none, by simp [decodeQuads, first, second, third],
      by simp [quad], ?_⟩
    have value0 := toNat_ofNat_small (show v0 * 4 + v1 / 16 < 256 by omega)
    have value1 := toNat_ofNat_small (show v1 % 16 * 16 + v2 / 4 < 256 by omega)
    generalize whole : (v0 * 4 + v1 / 16) * 65536 + (v1 % 16 * 16 + v2 / 4) * 256 = v
    have high : v / 262144 % 64 = v0 := by omega
    have middle : v / 4096 % 64 = v1 := by omega
    have low : v / 64 % 64 = v2 := by omega
    simp only [quad, Option.map_some, Option.map_none, Option.toList_some, Option.toList_none,
      List.append_nil, encodeText, value0, value1, whole, high, middle, low, char0, char1, char2]
  | case5 c0 c1 c2 c3 rest ih =>
    obtain ⟨first, second, third, fourth, behind⟩ := canonical
    obtain ⟨v0, first⟩ := Option.isSome_iff_exists.mp first
    obtain ⟨v1, second⟩ := Option.isSome_iff_exists.mp second
    obtain ⟨v2, third⟩ := Option.isSome_iff_exists.mp third
    obtain ⟨v3, fourth⟩ := Option.isSome_iff_exists.mp fourth
    obtain ⟨small0, char0⟩ := alphabet.val_some c0 v0 first
    obtain ⟨small1, char1⟩ := alphabet.val_some c1 v1 second
    obtain ⟨small2, char2⟩ := alphabet.val_some c2 v2 third
    obtain ⟨small3, char3⟩ := alphabet.val_some c3 v3 fourth
    obtain ⟨bytes, decoded, length, text⟩ := ih behind
    refine ⟨quad v0 v1 (some v2) (some v3) ++ bytes,
      by simp [decodeQuads, first, second, third, fourth, decoded], ?_, ?_⟩
    · simp only [quad, Option.map_some, Option.toList_some, List.length_append, List.length_cons,
        List.length_nil, length]
      omega
    · have value0 := toNat_ofNat_small (show v0 * 4 + v1 / 16 < 256 by omega)
      have value1 := toNat_ofNat_small (show v1 % 16 * 16 + v2 / 4 < 256 by omega)
      have value2 := toNat_ofNat_small (show v2 % 4 * 64 + v3 < 256 by omega)
      generalize whole : (v0 * 4 + v1 / 16) * 65536 + (v1 % 16 * 16 + v2 / 4) * 256 +
        (v2 % 4 * 64 + v3) = v
      have part0 : v / 262144 % 64 = v0 := by omega
      have part1 : v / 4096 % 64 = v1 := by omega
      have part2 : v / 64 % 64 = v2 := by omega
      have part3 : v % 64 = v3 := by omega
      simp only [quad, Option.map_some, Option.toList_some, Option.getD_some, List.cons_append,
        List.nil_append, encodeText, value0, value1, value2, whole, part0, part1, part2, part3,
        char0, char1, char2, char3, text]

variable (alphabet) in
/-- A text is canonical, and decodes to its source. -/
theorem encodeText_canonical (src : Bytes) :
    Canonical alphabet (encodeText alphabet.char src) ∧
      decodeQuads alphabet.val (encodeText alphabet.char src) = some src := by
  have known (value : Nat) := alphabet.val_char (value % 64) (Nat.mod_lt value (by decide))
  induction src using encodeText.induct with
  | case1 => exact ⟨trivial, rfl⟩
  | case2 a =>
    have small := a.toNat_lt
    have first : a.toNat * 65536 / 262144 % 64 * 4 + a.toNat * 65536 / 4096 % 64 / 16 =
        a.toNat := by omega
    constructor
    · exact ⟨by simp [known], _, known _, by omega⟩
    · simp only [encodeText, decodeQuads, known, Option.bind_some, Option.map_some, quad,
        Option.map_none, Option.toList_none, List.append_nil, first, UInt8.ofNat_toNat]
  | case3 a b =>
    have aSmall := a.toNat_lt
    have bSmall := b.toNat_lt
    have unused : (a.toNat * 65536 + b.toNat * 256) / 64 % 64 % 4 = 0 := by omega
    constructor
    · exact ⟨by simp [known], by simp [known], _, known _, unused⟩
    · generalize shape : a.toNat * 65536 + b.toNat * 256 = w
      have first : w / 262144 % 64 * 4 + w / 4096 % 64 / 16 = a.toNat := by omega
      have second : w / 4096 % 64 % 16 * 16 + w / 64 % 64 / 4 = b.toNat := by omega
      simp only [encodeText, shape, decodeQuads, known, Option.bind_some, Option.map_some, quad,
        Option.map_none, Option.toList_none, Option.toList_some, List.append_nil, first, second,
        UInt8.ofNat_toNat]
  | case4 a b c rest ih =>
    constructor
    · exact ⟨by simp [known], by simp [known], by simp [known], by simp [known], ih.1⟩
    · simp only [encodeText, decodeQuads, known, Option.bind_some, ih.2, Option.map_some,
        quad_bytes, List.cons_append, List.nil_append]

/-- The characters of a canonical text are known. -/
theorem Canonical.known {text : Bytes} (canonical : Canonical alphabet text) :
    ∀ c ∈ text, (alphabet.val c).isSome := by
  induction text using decodeQuads.induct with
  | case1 => simp
  | case2 c0 => exact canonical.elim
  | case3 c0 c1 =>
    obtain ⟨first, v1, second, -⟩ := canonical
    simp [first, second]
  | case4 c0 c1 c2 =>
    obtain ⟨first, second, v2, third, -⟩ := canonical
    simp [first, second, third]
  | case5 c0 c1 c2 c3 rest ih =>
    obtain ⟨first, second, third, fourth, behind⟩ := canonical
    simpa [first, second, third, fourth] using ih behind

/-! ## One text for one byte string -/

/-- A text without the padding behind it. -/
def unpadded (src : Bytes) : Bytes := src.rdropWhile (· == 0x3D)

/-- The law of a decoder: a result is all of what its text holds, and no other text has it. -/
def DecodesExactly (char : Nat → UInt8) (val : UInt8 → Option Nat) (decode : Bytes → Nat → Bytes)
    (src : Bytes) (dstLen : Nat) : Prop :=
  decode src dstLen ≠ [] →
    (∀ c ∈ unpadded src, (val c).isSome) ∧ encodeText char (decode src dstLen) = unpadded src

variable (alphabet) in
/-- The texts that a decoder treats as the law asks: those without a result, and the canonical ones
whose bytes the destination holds. -/
def Exact (src : Bytes) (dstLen : Nat) : Prop :=
  dstLen = 0 ∨ unpadded src = [] ∨ Refused alphabet (unpadded src) ∨
    (Canonical alphabet (unpadded src) ∧ (unpadded src).length * 3 / 4 ≤ dstLen)

variable (alphabet) in
/-- The law of the decoder of an alphabet. -/
theorem base64DecodeWith_exactly_iff (src : Bytes) (dstLen : Nat) :
    DecodesExactly alphabet.char alphabet.val (base64DecodeWith alphabet.val) src dstLen ↔
      Exact alphabet src dstLen := by
  have meaning : base64DecodeWith alphabet.val src dstLen =
      ((decodeQuads alphabet.val (unpadded src)).getD []).take dstLen := rfl
  constructor
  · intro law
    by_cases none : dstLen = 0
    · exact .inl none
    by_cases blank : unpadded src = []
    · exact .inr (.inl blank)
    cases decoded : decodeQuads alphabet.val (unpadded src) with
    | none => exact .inr (.inr (.inl ((decodeQuads_none_iff _).mp decoded)))
    | some bytes =>
      have filled : bytes.take dstLen ≠ [] := by
        simpa [List.take_eq_nil_iff, none] using decodeQuads_nonempty blank decoded
      rw [DecodesExactly, meaning, decoded, Option.getD_some] at law
      have again := (law filled).2
      -- the text of the result is its own text, so the result is all of the decoded bytes
      have whole := encodeText_canonical alphabet (bytes.take dstLen)
      rw [again, decoded] at whole
      obtain ⟨other, decodedOther, length, -⟩ := whole.1.decoded
      cases decoded.symm.trans decodedOther
      refine .inr (.inr (.inr ⟨whole.1, ?_⟩))
      have cut := congrArg List.length (Option.some.inj whole.2)
      rw [List.length_take, length] at cut
      omega
  · rintro (rfl | blank | refused | ⟨canonical, room⟩) result
    · simp [meaning] at result
    · simp [meaning, blank, decodeQuads] at result
    · simp [meaning, (decodeQuads_none_iff _).mpr refused] at result
    · obtain ⟨bytes, decoded, length, text⟩ := canonical.decoded
      refine ⟨canonical.known, ?_⟩
      rw [meaning, decoded, Option.getD_some, List.take_of_length_le (by omega), text]

/-- Both decoders follow the law at exactly these texts. -/
theorem base64_decodes_exactly_iff (src : Bytes) (dstLen : Nat) :
    (DecodesExactly b64urlChar b64urlVal base64urlDecode src dstLen ↔ Exact b64url src dstLen) ∧
      (DecodesExactly b64stdChar b64stdVal base64Decode src dstLen ↔ Exact b64std src dstLen) :=
  ⟨base64DecodeWith_exactly_iff b64url src dstLen, base64DecodeWith_exactly_iff b64std src dstLen⟩

/-- `QR` decodes to the letter whose text is `QQ`. -/
theorem base64_decodes_other :
    ¬ ∀ src dstLen, DecodesExactly b64urlChar b64urlVal base64urlDecode src dstLen := by
  intro law
  have again := (law [0x51, 0x52] 1 (by decide +kernel)).2
  revert again
  decide +kernel

end Cookbook.Auth
