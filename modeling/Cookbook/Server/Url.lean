import Cookbook.Library.Number
import Cookbook.Server.Machine

/-!
# Request paths and header fields

The part of a request path behind a handler's prefix is decoded, and then read as a C string: what
stands behind a decoded zero byte is not seen.
-/
namespace Cookbook.Server

open Library.Text

/-! ## Hexadecimal numbers -/

/-- A hexadecimal digit. -/
def isHex (c : UInt8) : Bool :=
  isDecimal c || (decide (0x41 ≤ c) && decide (c ≤ 0x46)) ||
    (decide (0x61 ≤ c) && decide (c ≤ 0x66))

/-- The value of a hexadecimal digit. -/
def hexValue (c : UInt8) : Nat :=
  if isDecimal c then c.toNat - 0x30 else if c ≤ 0x46 then c.toNat - 0x37 else c.toNat - 0x57

/-- The value of a hexadecimal digit string. -/
def readHex (digits : Bytes) : Nat := digits.foldl (fun number c => number * 16 + hexValue c) 0

/-- The number that a text of at most two characters starts with, none without a digit. -/
def hexPair (text : Bytes) : Option Int :=
  let signed := readSign text
  let digits := signed.2.takeWhile isHex
  if digits = [] then none
  else some (if signed.1 then -(readHex digits : Int) else readHex digits)

/-- The lowest byte of a number. -/
def lowByte (number : Int) : UInt8 := UInt8.ofNat (number % 256).toNat

/-- `sscanf(text, "%2x", &byte)`: blanks in front do not count. -/
def scanHexPair (text : Bytes) : Option UInt8 :=
  (hexPair ((text.dropWhile isSpace).take 2)).map lowByte

/-- `(char)strtol(hex, NULL, 16)` on two characters. -/
def strtolPair (first second : UInt8) : UInt8 :=
  lowByte ((hexPair ((cString [first, second]).dropWhile isSpace)).getD 0)

/-! ## Paths -/

/-- `url_decode` -/
def urlDecode : Bytes → Bytes
  | 0x25 :: first :: second :: rest => strtolPair first second :: urlDecode rest
  | c :: rest => (if c = 0x2B then space else c) :: urlDecode rest
  | [] => []

/-- `path_after`: the decoded path behind a prefix, as the string functions see it. -/
def pathAfter (uri pre : Bytes) : Option Bytes :=
  if pre <+: uri then some (cString (urlDecode (uri.drop pre.length))) else none

/-- What stands in front of and behind the last slash, none without a slash. -/
def lastSlash (path : Bytes) : Option (Bytes × Bytes) :=
  match strchr slash path.reverse with
  | none => none
  | some before => some ((before.drop 1).reverse, path.drop before.length)

/-- Slashes become dots. -/
def dotted (path : Bytes) : Bytes := path.map fun c => if c = slash then dot else c

/-- A path is cut at its last slash. -/
theorem lastSlash_cut {front tail : Bytes} (free : slash ∉ tail) :
    lastSlash (front ++ slash :: tail) = some (front, tail) := by
  have turned : (front ++ slash :: tail).reverse = tail.reverse ++ slash :: front.reverse := by simp
  have found : strchr slash (front ++ slash :: tail).reverse = some (slash :: front.reverse) := by
    rw [turned]
    exact strchr_stop _ (by simpa using free)
  have behind : (front ++ slash :: tail).drop (slash :: front.reverse).length = tail := by
    rw [List.append_cons]
    exact List.drop_left' (by simp)
  simp only [lastSlash, found, behind, List.drop_succ_cons, List.drop_zero, List.reverse_reverse]

/-- A path without a slash is not cut. -/
theorem lastSlash_none {path : Bytes} (free : slash ∉ path) : lastSlash path = none := by
  simp only [lastSlash, strchr_none (show slash ∉ path.reverse by simpa using free)]

/-- A path has no slash, or has a last one. -/
theorem lastSlash_cases (path : Bytes) :
    slash ∉ path ∨ ∃ front tail, path = front ++ slash :: tail ∧ slash ∉ tail := by
  by_cases member : slash ∈ path
  · obtain ⟨tail, front, turned, free⟩ :=
      List.eq_append_cons_of_mem (List.mem_reverse.mpr member)
    refine .inr ⟨front.reverse, tail.reverse, ?_, by simpa using free⟩
    rw [← List.reverse_reverse path, turned]
    simp
  · exact .inl member

/-! ## Segments -/

/-- The segments of a path. -/
def segments (path : Bytes) : List Bytes := path.splitOn slash

/-- The last segment. -/
theorem segments_cut {front tail : Bytes} (free : slash ∉ tail) :
    segments (front ++ slash :: tail) = segments front ++ [tail] := by
  rw [segments, List.splitOn_append_cons_self, List.splitOn_eq_singleton free, segments]

/-- A path without a slash is one segment. -/
theorem segments_free {path : Bytes} (free : slash ∉ path) : segments path = [path] :=
  List.splitOn_eq_singleton free

/-- There is a first segment. -/
theorem segments_ne_nil (path : Bytes) : segments path ≠ [] := List.splitOn_ne_nil _ _

/-- With dots for slashes, a path is its segments with dots between them. -/
theorem dotted_segments (path : Bytes) : dotted path = [dot].intercalate (segments path) := by
  induction path with
  | nil => rfl
  | cons c rest ih =>
    obtain ⟨first, others, shape⟩ := List.exists_cons_of_ne_nil (segments_ne_nil rest)
    rw [segments] at shape
    rw [segments, shape] at ih
    rw [segments, List.splitOn_cons_eq_if_modifyHead, shape]
    by_cases cut : c = slash
    · simp only [dotted, List.map_cons, cut] at ih ⊢
      simp only [↓reduceIte, beq_self_eq_true, List.intercalate_cons_cons, List.nil_append]
      rw [ih]
      rfl
    · have other : (c == slash) = false := by simpa using cut
      simp only [dotted, List.map_cons, cut, ↓reduceIte, other, List.modifyHead_cons] at ih ⊢
      rw [ih]
      cases others <;> simp [List.intercalate]

end Cookbook.Server
