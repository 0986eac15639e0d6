import Cookbook.Library.Text

/-!
# Pasta values

The tree that the Pasta parser builds. A map keeps its entries in the order in which their keys
first came, and a key that comes again replaces the value in place. A number is kept as it was
written: nothing here reads its value.
-/
namespace Cookbook.Pasta

open Library.Text

/-- `pasta_value` -/
inductive Value
  /-- `PASTA_NULL` -/
  | null
  /-- `PASTA_BOOL` -/
  | bool (value : Bool)
  /-- `PASTA_INTEGER` and `PASTA_NUMBER` -/
  | number (literal : Bytes)
  /-- `PASTA_STRING` -/
  | string (data : Bytes)
  /-- `PASTA_LABEL_REF` -/
  | labelRef (label : Bytes)
  /-- `PASTA_BLOB` -/
  | blob (data : Bytes)
  /-- `PASTA_ARRAY` -/
  | array (items : List Value)
  /-- `PASTA_MAP` -/
  | map (entries : List (Bytes × Value))

/-- The entries of a map. -/
abbrev Entries := List (Bytes × Value)

/-- `pasta_map_put_n` -/
def Entries.put : Entries → Bytes → Value → Entries
  | [], key, value => [(key, value)]
  | entry :: entries, key, value =>
    if entry.1 = key then (key, value) :: entries else entry :: put entries key value

/-- `pasta_map_get` on the entries. -/
def Entries.get (entries : Entries) (key : Bytes) : Option Value :=
  (entries.find? (·.1 == key)).map Prod.snd

namespace Value

/-- `pasta_map_get`: none on a value that is no map. -/
def mapGet (value : Value) (key : Bytes) : Option Value :=
  match value with
  | map entries => Entries.get entries key
  | _ => none

/-- `pasta_get_string`, as a C string. -/
def getString : Value → Option Bytes
  | string data => some (cString data)
  | _ => none

end Value

end Cookbook.Pasta
