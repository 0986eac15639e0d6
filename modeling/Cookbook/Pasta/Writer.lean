import Cookbook.Pasta.Parser
import Mathlib.Algebra.GroupWithZero.Nat
import Mathlib.Data.List.Sort

/-!
# Writing Pasta

The writer in its compact form, with the keys of a map in their order or sorted. How a number is
printed is left to its caller: the value of a literal may be a floating point number.
-/
namespace Cookbook.Pasta

open Library.Text

/-- The words that are no label. -/
def reservedWords : List Bytes :=
  [ascii "true", ascii "false", ascii "null", ascii "Inf", ascii "NaN"]

/-- A character of a quoted label. -/
def escapeLabel (c : UInt8) : Bytes :=
  if c = quote ∨ c = 0x5C then [0x5C, c]
  else if c = newline then [0x5C, 0x6E]
  else if c = carriageReturn then [0x5C, 0x72]
  else if c = tab then [0x5C, 0x74]
  else [c]

/-- `emit_label` -/
def emitLabel (name : Bytes) : Bytes :=
  if name = [] ∨ name.all isLabelChar = false ∨ name ∈ reservedWords then
    quote :: (name.flatMap escapeLabel ++ [quote])
  else name

/-- `emit_string` -/
def emitString (data : Bytes) : Bytes :=
  let three := [quote, quote, quote]
  if (newline ∈ data ∨ quote ∈ data) ∧ strstr three data = none then three ++ data ++ three
  else quote :: (data ++ [quote])

/-- The eight bytes of a length, the highest first. -/
def lengthBytes (length : Nat) : Bytes :=
  [56, 48, 40, 32, 24, 16, 8, 0].map fun shift => UInt8.ofNat (length / 2 ^ shift % 256)

/-- `emit_blob` -/
def emitBlob (data : Bytes) : Bytes := 0 :: (lengthBytes data.length ++ data)

/-- `sort_cmp`: a key is not behind another one. -/
def keyLe : Bytes → Bytes → Bool
  | [], _ => true
  | _ :: _, [] => false
  | a :: left, b :: right => if a = b then keyLe left right else decide (a < b)

/-- The fields of a map, each with the text of its value. -/
def joinFields (sorted : Bool) (fields : List (Bytes × Bytes)) : Bytes :=
  let ordered := if sorted then fields.insertionSort fun left right => keyLe left.1 right.1 = true
    else fields
  [comma, space].intercalate (ordered.map fun field => emitLabel field.1 ++ [colon, space] ++ field.2)

mutual

/-- `emit_value` in the compact form -/
def emitValue (printNumber : Bytes → Bytes) (sorted : Bool) : Value → Bytes
  | .null => ascii "null"
  | .bool value => if value then ascii "true" else ascii "false"
  | .number literal => printNumber literal
  | .string data => emitString data
  | .labelRef label => label
  | .blob data => emitBlob data
  | .array items =>
    ascii "[" ++ [comma, space].intercalate (emitItems printNumber sorted items) ++ ascii "]"
  | .map entries =>
    openBrace :: (joinFields sorted (emitFields printNumber sorted entries) ++ [closeBrace])

/-- The texts of the items of an array. -/
def emitItems (printNumber : Bytes → Bytes) (sorted : Bool) : List Value → List Bytes
  | [] => []
  | item :: items => emitValue printNumber sorted item :: emitItems printNumber sorted items

/-- The texts of the values of a map. -/
def emitFields (printNumber : Bytes → Bytes) (sorted : Bool) :
    List (Bytes × Value) → List (Bytes × Bytes)
  | [] => []
  | entry :: entries =>
    (entry.1, emitValue printNumber sorted entry.2) :: emitFields printNumber sorted entries

end

example : emitValue id true (.map [(ascii "version", .string (ascii "1.0.0")),
    (ascii "a-b", .array [.bool true, .number (ascii "7")])]) =
    ascii "\x7b\"a-b\": [true, 7], version: \"1.0.0\"\x7d" := by decide

end Cookbook.Pasta
