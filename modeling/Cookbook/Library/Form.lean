import Cookbook.Library.Text
import Mathlib.Data.List.Infix

/-!
# Form documents

A document of the type `application/x-www-form-urlencoded` is cut at every ampersand, and each piece at its
first equals sign. A plus sign stands for a space, and a percent sign in front of two hexadecimal digits
for their byte; every other byte stands for itself.
-/
namespace Library.Form

open Library.Text

/-- `&` -/
@[simp] abbrev ampersand : UInt8 := 0x26
/-- `=` -/
@[simp] abbrev equals : UInt8 := 0x3D
/-- `+` -/
@[simp] abbrev plus : UInt8 := 0x2B
/-- `%` -/
@[simp] abbrev percent : UInt8 := 0x25

/-- The value of a hexadecimal digit. -/
def hexDigit (c : UInt8) : Option UInt8 :=
  if 0x30 ≤ c ∧ c ≤ 0x39 then some (c - 0x30)
  else if 0x41 ≤ c ∧ c ≤ 0x46 then some (c - 0x37)
  else if 0x61 ≤ c ∧ c ≤ 0x66 then some (c - 0x57)
  else none

/-- A hexadecimal digit. -/
def IsHex (c : UInt8) : Prop := (hexDigit c).isSome

instance (c : UInt8) : Decidable (IsHex c) := inferInstanceAs (Decidable (_ = true))

/-- Escapes are replaced by their bytes. -/
def percentDecode : Bytes → Bytes
  | [] => []
  | c :: a :: b :: rest =>
    if c = percent ∧ IsHex a ∧ IsHex b then
      ((hexDigit a).getD 0 * 16 + (hexDigit b).getD 0) :: percentDecode rest
    else c :: percentDecode (a :: b :: rest)
  | c :: rest => c :: percentDecode rest

/-- A plus sign is a space. -/
def spaced (text : Bytes) : Bytes := text.map fun c => if c = plus then space else c

/-- A name or a value. -/
def decodeText (text : Bytes) : Bytes := percentDecode (spaced text)

/-- A name and its value: a piece without an equals sign is a name. -/
def decodePair (piece : Bytes) : Bytes × Bytes :=
  (decodeText (piece.takeWhile (· != equals)), decodeText ((piece.dropWhile (· != equals)).drop 1))

/-- The pairs of a document: an empty piece is none. -/
def pairs (document : Bytes) : List (Bytes × Bytes) :=
  ((document.splitOn ampersand).filter (· ≠ [])).map decodePair

/-! ## Texts that stand for themselves -/

/-- No escape stands in a text. -/
def EscapeFree (text : Bytes) : Prop :=
  ∀ a b, IsHex a → IsHex b → ¬ [percent, a, b] <:+: text

/-- The rest of a text without escapes has none. -/
theorem EscapeFree.tail {c : UInt8} {text : Bytes} (free : EscapeFree (c :: text)) : EscapeFree text :=
  fun a b first second inside => free a b first second (inside.trans (List.suffix_cons c text).isInfix)

/-- A text without escapes is decoded as itself. -/
theorem percentDecode_free {text : Bytes} (free : EscapeFree text) : percentDecode text = text := by
  induction text using percentDecode.induct with
  | case1 => rfl
  | case2 c a b rest escaped =>
    obtain ⟨rfl, first, second⟩ := escaped
    exact absurd (List.prefix_append [percent, a, b] rest).isInfix (free a b first second)
  | case3 c a b rest other ih => rw [percentDecode, if_neg other, ih free.tail]
  | case4 c rest short ih =>
    rw [percentDecode, ih free.tail]
    exact short

/-- A character in front of a text without escapes, when no escape begins there. -/
theorem EscapeFree.cons {c : UInt8} {text : Bytes} (free : EscapeFree text)
    (here : ∀ a b, IsHex a → IsHex b → ¬ [percent, a, b] <+: c :: text) : EscapeFree (c :: text) := by
  intro a b first second inside
  rcases List.infix_cons_iff.mp inside with front | behind
  · exact here a b first second front
  · exact free a b first second behind

/-- Decoding makes a text no longer, and shorter unless it has no escape. -/
theorem percentDecode_length (text : Bytes) :
    (percentDecode text).length ≤ text.length ∧
      ((percentDecode text).length = text.length → EscapeFree text) := by
  induction text using percentDecode.induct with
  | case1 =>
    refine ⟨le_rfl, fun _ a b _ _ inside => ?_⟩
    cases List.infix_nil.mp inside
  | case2 c a b rest escaped ih =>
    rw [percentDecode, if_pos escaped]
    simp only [List.length_cons]
    exact ⟨by omega, fun even => by omega⟩
  | case3 c a b rest other ih =>
    rw [percentDecode, if_neg other, List.length_cons, List.length_cons]
    refine ⟨Nat.succ_le_succ ih.1, fun even => ?_⟩
    refine (ih.2 (Nat.succ.inj even)).cons fun d e first second front => ?_
    simp only [List.cons_prefix_cons, List.nil_prefix, and_true] at front
    obtain ⟨rfl, rfl, rfl⟩ := front
    exact other ⟨rfl, first, second⟩
  | case4 c rest short ih =>
    have step : percentDecode (c :: rest) = c :: percentDecode rest := by
      rw [percentDecode]
      exact short
    rw [step, List.length_cons, List.length_cons]
    refine ⟨Nat.succ_le_succ ih.1, fun even => ?_⟩
    refine (ih.2 (Nat.succ.inj even)).cons fun d e first second front => ?_
    obtain ⟨last, same⟩ := front
    cases same
    exact short d e last rfl

/-- A text without plus signs keeps its characters. -/
theorem spaced_eq_iff (text : Bytes) : spaced text = text ↔ plus ∉ text := by
  induction text with
  | nil => simp [spaced]
  | cons c text ih =>
    rw [spaced, List.map_cons, List.cons.injEq, show text.map _ = spaced text from rfl, ih,
      List.mem_cons, not_or]
    refine and_congr_left fun _ => ?_
    by_cases here : c = plus
    · rw [if_pos here, here]
      decide
    · rw [if_neg here]
      exact iff_of_true rfl (Ne.symm here)

/-- A text stands for itself exactly if it has no plus sign and no escape. -/
theorem decodeText_eq_iff (text : Bytes) :
    decodeText text = text ↔ plus ∉ text ∧ EscapeFree text := by
  constructor
  · intro same
    have free : EscapeFree (spaced text) := (percentDecode_length (spaced text)).2 (by
      rw [show (spaced text).length = text.length from List.length_map _]
      exact congrArg List.length same)
    rw [decodeText, percentDecode_free free] at same
    exact ⟨(spaced_eq_iff text).mp same, same ▸ free⟩
  · rintro ⟨free, unescaped⟩
    rw [decodeText, (spaced_eq_iff text).mpr free, percentDecode_free unescaped]

/-- A decoded text is no longer than the text. -/
theorem decodeText_length (text : Bytes) : (decodeText text).length ≤ text.length := by
  calc (decodeText text).length ≤ (spaced text).length := (percentDecode_length (spaced text)).1
    _ = text.length := List.length_map _

/-! ## Documents -/

/-- The first piece of a document. -/
theorem pairs_cons {piece : Bytes} (free : ampersand ∉ piece) (filled : piece ≠ []) (rest : Bytes) :
    pairs (piece ++ ampersand :: rest) = decodePair piece :: pairs rest := by
  rw [pairs, List.splitOn_append_cons_self, List.splitOn_eq_singleton free, List.singleton_append,
    List.filter_cons_of_pos (by simpa using filled), List.map_cons, pairs]

/-- The last piece of a document. -/
theorem pairs_single {piece : Bytes} (free : ampersand ∉ piece) (filled : piece ≠ []) :
    pairs piece = [decodePair piece] := by
  rw [pairs, List.splitOn_eq_singleton free, List.filter_cons_of_pos (by simpa using filled),
    List.filter_nil, List.map_cons, List.map_nil]

/-- A name and its value. -/
theorem decodePair_equals {name : Bytes} (free : equals ∉ name) (value : Bytes) :
    decodePair (name ++ equals :: value) = (decodeText name, decodeText value) := by
  rw [decodePair, takeWhile_ne_stop free, dropWhile_ne_stop free, List.drop_one, List.tail_cons]

end Library.Form
