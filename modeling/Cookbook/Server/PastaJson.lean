import Cookbook.Library.Buffer
import Cookbook.Library.Floating
import Cookbook.Pasta.Value
import Cookbook.Policy.Serialize

/-!
# Pasta values as JSON

`pasta_to_json` writes a value and all values in it into buffers on the heap. Each buffer grows by a
computed amount in front of every item, so no write leaves it. What is written is the JSON text of the
value, if the value has no label, no control character outside the three that are escaped, no infinity and
no key that would have to be escaped.
-/
namespace Cookbook.Server

open Library.Text Library.Json Library.Floating Pasta
open Policy (printed printed_cons)

/-! ## Buffers on the heap -/

/-- A buffer that is written at its end. -/
structure Page where
  /-- The size of the buffer. -/
  cap : Nat
  /-- What has been written. -/
  bytes : Bytes

namespace Page

/-- `malloc(cap)` -/
def empty (cap : Nat) : Page := ⟨cap, []⟩

/-- Bytes written at the end. -/
def put (page : Page) (bytes : Bytes) : Outcome Page :=
  if page.bytes.length + bytes.length ≤ page.cap then
    .done { page with bytes := page.bytes ++ bytes }
  else .overrun

/-- `out[len] = '\0'`: the string that the caller finds. -/
def finish (page : Page) : Outcome Bytes :=
  if page.bytes.length < page.cap then .done (cString page.bytes) else .overrun

/-- `while (need > cap) cap *= 2`, with a bound on the number of turns. -/
def doubled (need : Nat) : Nat → Nat → Nat
  | 0, cap => cap
  | turns + 1, cap => if cap < need then doubled need turns (cap * 2) else cap

/-- `while (len + need > cap) { cap *= 2; out = realloc(out, cap); }` -/
def reserve (page : Page) (need : Nat) : Page :=
  { page with cap := doubled (page.bytes.length + need) (page.bytes.length + need) page.cap }

/-- `if (len + 2 > cap) { cap += 2; out = realloc(out, cap); }` -/
def reserveEnd (page : Page) : Page :=
  if page.cap < page.bytes.length + 2 then { page with cap := page.cap + 2 } else page

end Page

/-! ## The writer -/

/-- The integer that `(long long)n` gives back unchanged. -/
def wholeNumber (number : Binary) : Option Int :=
  if number.numerator % number.denominator = 0 then
    some (if number.negative then -((number.numerator / number.denominator : Nat) : Int)
      else ((number.numerator / number.denominator : Nat) : Int))
  else none

/-- The number as an integer, where it is one and not beyond `1e15`. -/
def shortInteger : Double → Option Int
  | .finite number => (wholeNumber number).filter fun whole => decide (whole.natAbs ≤ 10 ^ 15)
  | _ => none

/-- `case PASTA_NUMBER` -/
def numberJson (number : Double) : Bytes :=
  match shortInteger number with
  | some whole => snprintf 64 (decimal whole)
  | none => snprintf 64 number.printG

/-- One character of a string. -/
def escapeJson (c : UInt8) : Bytes :=
  if c = quote then [0x5C, quote]
  else if c = 0x5C then [0x5C, 0x5C]
  else if c = newline then [0x5C, 0x6E]
  else if c = carriageReturn then [0x5C, 0x72]
  else if c = tab then [0x5C, 0x74]
  else [c]

/-- The loop over the characters of a string. -/
def putEscaped : Bytes → Page → Outcome Page
  | [], page => .done page
  | c :: rest, page => (page.put (escapeJson c)).bind (putEscaped rest)

/-- `case PASTA_STRING` -/
def stringJson (data : Bytes) : Outcome Bytes := do
  let page ← (Page.empty (data.length * 2 + 3)).put [quote]
  let page ← putEscaped data page
  let page ← page.put [quote]
  page.finish

/-- A comma in front of an item that is not the first one. -/
def putComma (index : Nat) (page : Page) : Outcome Page :=
  if 0 < index then page.put [comma] else .done page

/-- The body of the loop over an array. -/
def putItem (index : Nat) (elem : Bytes) (page : Page) : Outcome Page := do
  let page ← putComma index (page.reserve (elem.length + 3))
  page.put elem

/-- The body of the loop over a map: the key is written as it is. -/
def putEntry (index : Nat) (key val : Bytes) (page : Page) : Outcome Page := do
  let page ← putComma index (page.reserve (key.length + val.length + 6))
  let page ← page.put [quote]
  let page ← page.put key
  let page ← page.put [quote, colon]
  page.put val

mutual

/-- `pasta_to_json`: a blob is a string without characters, and a label is of no case. -/
def pastaToJson (getNumber : Bytes → Double) : Value → Outcome Bytes
  | .null => .done (ascii "null")
  | .bool value => .done (if value then ascii "true" else ascii "false")
  | .number literal => .done (numberJson (getNumber literal))
  | .string data => stringJson data
  | .labelRef _ => .done (ascii "null")
  | .blob _ => stringJson []
  | .array items => do
    let page ← (Page.empty 256).put [0x5B]
    let page ← putItems getNumber items 0 page
    let page ← page.reserveEnd.put [0x5D]
    page.finish
  | .map entries => do
    let page ← (Page.empty 256).put [openBrace]
    let page ← putEntries getNumber entries 0 page
    let page ← page.reserveEnd.put [closeBrace]
    page.finish

/-- The loop over the items of an array. -/
def putItems (getNumber : Bytes → Double) : List Value → Nat → Page → Outcome Page
  | [], _, page => .done page
  | item :: items, index, page => do
    let elem ← pastaToJson getNumber item
    let page ← putItem index elem page
    putItems getNumber items (index + 1) page

/-- The loop over the entries of a map. -/
def putEntries (getNumber : Bytes → Double) : List (Bytes × Value) → Nat → Page → Outcome Page
  | [], _, page => .done page
  | entry :: entries, index, page => do
    let val ← pastaToJson getNumber entry.2
    let page ← putEntry index (cString entry.1) val page
    putEntries getNumber entries (index + 1) page

end

example : pastaToJson (fun _ => .nan false) (.map [(ascii "a", .array [.null, .bool true]),
    (ascii "b", .string (ascii "x\ny"))]) =
    .done (ascii "\x7b\"a\":[null,true],\"b\":\"x\\ny\"\x7d") := by decide +kernel

/-! ## The text that is written -/

mutual

/-- The text of a value. -/
def jsonText (getNumber : Bytes → Double) : Value → Bytes
  | .null => ascii "null"
  | .bool value => if value then ascii "true" else ascii "false"
  | .number literal => numberJson (getNumber literal)
  | .string data => cString (quote :: (data.flatMap escapeJson ++ [quote]))
  | .labelRef _ => ascii "null"
  | .blob _ => [quote, quote]
  | .array items => 0x5B :: ([comma].intercalate (itemTexts getNumber items) ++ [0x5D])
  | .map entries => openBrace :: ([comma].intercalate (entryTexts getNumber entries) ++ [closeBrace])

/-- The texts of the items of an array. -/
def itemTexts (getNumber : Bytes → Double) : List Value → List Bytes
  | [] => []
  | item :: items => jsonText getNumber item :: itemTexts getNumber items

/-- The texts of the entries of a map. -/
def entryTexts (getNumber : Bytes → Double) : List (Bytes × Value) → List Bytes
  | [] => []
  | entry :: entries =>
    (quote :: (cString entry.1 ++ quote :: colon :: jsonText getNumber entry.2)) ::
      entryTexts getNumber entries

end

/-! ## Every write inside its buffer -/

namespace Page

/-- A write that fits. -/
theorem put_inside {page : Page} {bytes : Bytes}
    (fits : page.bytes.length + bytes.length ≤ page.cap) :
    page.put bytes = .done ⟨page.cap, page.bytes ++ bytes⟩ := if_pos fits

/-- Enough turns make the buffer as large as needed. -/
theorem doubled_enough {need turns cap : Nat} (enough : need ≤ cap * 2 ^ turns) :
    need ≤ doubled need turns cap := by
  induction turns generalizing cap with
  | zero => simpa [doubled] using enough
  | succ turns ih =>
    rw [doubled]
    split_ifs with short
    · exact ih (by rw [Nat.pow_succ'] at enough; rwa [Nat.mul_assoc])
    · omega

/-- The buffer that has been made larger has room for what is needed. -/
theorem reserve_room {page : Page} (positive : 0 < page.cap) (need : Nat) :
    page.bytes.length + need ≤ (page.reserve need).cap := by
  refine doubled_enough ?_
  calc page.bytes.length + need ≤ 2 ^ (page.bytes.length + need) := Nat.lt_two_pow_self.le
    _ ≤ page.cap * 2 ^ (page.bytes.length + need) := Nat.le_mul_of_pos_left _ positive

/-- The closing mark and the terminator have their room. -/
theorem reserveEnd_close (page : Page) (inside : page.bytes.length ≤ page.cap) (mark : UInt8) :
    (page.reserveEnd.put [mark]).bind finish = .done (cString (page.bytes ++ [mark])) := by
  have room : page.bytes.length + 2 ≤ page.reserveEnd.cap ∧ page.reserveEnd.bytes = page.bytes := by
    unfold reserveEnd
    split_ifs <;> simp only [and_true] <;> omega
  rw [put_inside (by rw [room.2, List.length_singleton]; omega), Outcome.bind_done, room.2, finish,
    if_pos (by simp only [List.length_append, List.length_singleton]; omega)]

end Page

/-- Behind the comma of an item there is room for the item. -/
theorem putComma_inside (index : Nat) {page : Page} (room : page.bytes.length < page.cap) :
    putComma index page = .done ⟨page.cap, page.bytes ++ if 0 < index then [comma] else []⟩ := by
  unfold putComma
  split_ifs with later
  · exact Page.put_inside (by rw [List.length_singleton]; omega)
  · rw [List.append_nil]

/-- A character takes at most two. -/
theorem escapeJson_length (c : UInt8) : (escapeJson c).length ≤ 2 := by
  unfold escapeJson
  split_ifs <;> simp

/-- The characters of a string stay inside twice its length. -/
theorem putEscaped_inside (data : Bytes) (page : Page)
    (room : page.bytes.length + 2 * data.length ≤ page.cap) :
    putEscaped data page = .done ⟨page.cap, page.bytes ++ data.flatMap escapeJson⟩ := by
  induction data generalizing page with
  | nil => simp [putEscaped]
  | cons c data ih =>
    have two := escapeJson_length c
    rw [List.length_cons] at room
    rw [putEscaped, Page.put_inside (by omega), Outcome.bind_done,
      ih _ (by rw [List.length_append]; simp only; omega)]
    simp

/-- The escaped characters are at most twice as many. -/
theorem escaped_length (data : Bytes) : (data.flatMap escapeJson).length ≤ 2 * data.length := by
  induction data with
  | nil => simp
  | cons c data ih =>
    have two := escapeJson_length c
    rw [List.flatMap_cons, List.length_append, List.length_cons]
    omega

/-- A string is written inside its buffer. -/
theorem stringJson_done (data : Bytes) :
    stringJson data = .done (cString (quote :: (data.flatMap escapeJson ++ [quote]))) := by
  have double := escaped_length data
  have start : (Page.empty (data.length * 2 + 3)).put [quote] =
      .done ⟨data.length * 2 + 3, [quote]⟩ := Page.put_inside (by simp [Page.empty])
  have body := putEscaped_inside data ⟨data.length * 2 + 3, [quote]⟩
    (by simp only [List.length_singleton]; omega)
  have close : Page.put ⟨data.length * 2 + 3, [quote] ++ data.flatMap escapeJson⟩ [quote] = .done _ :=
    Page.put_inside (by simp only [List.length_append, List.length_singleton]; omega)
  simp only [stringJson, start, body, close, Outcome.done_bind, Page.finish]
  rw [if_pos (by simp only [List.length_append, List.length_singleton]; omega)]
  simp

/-- A printed number has no terminator. -/
theorem numberJson_terminated (number : Double) : 0 ∉ numberJson number := by
  have whole : ∀ n : Int, 0 ∉ decimal n := by
    intro n
    cases n <;> simp [decimal, decimalNat_terminated]
  unfold numberJson
  split
  · exact fun member => whole _ (List.mem_of_mem_take member)
  · exact fun member => printG_terminated _ (List.mem_of_mem_take member)

variable {getNumber : Bytes → Double}

/-- The texts of the items of an array, one by one. -/
theorem itemTexts_eq (items : List Value) :
    itemTexts getNumber items = items.map (jsonText getNumber) := by
  induction items with
  | nil => rfl
  | cons item items ih => rw [itemTexts, ih, List.map_cons]

/-- The text of an entry. -/
def entryText (getNumber : Bytes → Double) (entry : Bytes × Value) : Bytes :=
  quote :: (cString entry.1 ++ quote :: colon :: jsonText getNumber entry.2)

/-- The texts of the entries of a map, one by one. -/
theorem entryTexts_eq (entries : List (Bytes × Value)) :
    entryTexts getNumber entries = entries.map (entryText getNumber) := by
  induction entries with
  | nil => rfl
  | cons entry entries ih => rw [entryTexts, ih, List.map_cons, entryText]

/-- What holds of a value whenever it holds of the values in it holds of every value. -/
theorem value_induction {holds : Value → Prop} (null : holds .null) (bool : ∀ value, holds (.bool value))
    (number : ∀ literal, holds (.number literal)) (string : ∀ data, holds (.string data))
    (labelRef : ∀ label, holds (.labelRef label)) (blob : ∀ data, holds (.blob data))
    (array : ∀ items, (∀ item ∈ items, holds item) → holds (.array items))
    (map : ∀ entries, (∀ entry ∈ entries, holds entry.2) → holds (.map entries)) (value : Value) :
    holds value := by
  refine @Value.rec holds (fun items => ∀ item ∈ items, holds item)
    (fun entries => ∀ entry ∈ entries, holds entry.2) (fun entry => holds entry.2)
    null bool number string labelRef blob array map ?_ ?_ ?_ ?_ ?_ value
  · intro item member
    cases member
  · intro item items here others other member
    rcases List.mem_cons.mp member with rfl | inside
    · exact here
    · exact others other inside
  · intro entry member
    cases member
  · intro entry entries here others other member
    rcases List.mem_cons.mp member with rfl | inside
    · exact here
    · exact others other inside
  · intro key value here
    exact here

/-- One item is written behind its comma, and leaves the buffer large enough. -/
theorem putItem_inside (index : Nat) {page : Page} (positive : 0 < page.cap) (elem : Bytes) :
    ∃ cap, putItem index elem page =
        .done ⟨cap, page.bytes ++ (if 0 < index then [comma] else []) ++ elem⟩ ∧
      (page.bytes ++ (if 0 < index then [comma] else []) ++ elem).length < cap := by
  have room := Page.reserve_room positive (elem.length + 3)
  have same : (page.reserve (elem.length + 3)).bytes = page.bytes := rfl
  have separated : (page.bytes ++ if 0 < index then [comma] else []).length ≤ page.bytes.length + 1 := by
    split_ifs <;> simp
  refine ⟨(page.reserve (elem.length + 3)).cap, ?_, ?_⟩
  · rw [putItem, putComma_inside index (by rw [same]; omega), Outcome.done_bind, same,
      Page.put_inside (by simp only; omega)]
  · rw [List.length_append]
    omega

/-- One entry is written behind its comma, and leaves the buffer large enough. -/
theorem putEntry_inside (index : Nat) {page : Page} (positive : 0 < page.cap) (key val : Bytes) :
    ∃ cap, putEntry index key val page =
        .done ⟨cap, page.bytes ++ (if 0 < index then [comma] else []) ++
          (quote :: (key ++ quote :: colon :: val))⟩ ∧
      (page.bytes ++ (if 0 < index then [comma] else []) ++
        (quote :: (key ++ quote :: colon :: val))).length < cap := by
  have room := Page.reserve_room positive (key.length + val.length + 6)
  have same : (page.reserve (key.length + val.length + 6)).bytes = page.bytes := rfl
  have separated : (page.bytes ++ if 0 < index then [comma] else []).length ≤ page.bytes.length + 1 := by
    split_ifs <;> simp
  refine ⟨(page.reserve (key.length + val.length + 6)).cap, ?_, ?_⟩
  · rw [putEntry, putComma_inside index (by rw [same]; omega), Outcome.done_bind, same]
    generalize page.bytes ++ (if 0 < index then [comma] else []) = front at separated ⊢
    rw [Page.put_inside (by simp only [List.length_singleton]; omega), Outcome.done_bind,
      Page.put_inside (by simp only [List.length_append, List.length_singleton]; omega),
      Outcome.done_bind, Page.put_inside (by
        simp only [List.length_append, List.length_cons, List.length_nil]; omega),
      Outcome.done_bind, Page.put_inside (by
        simp only [List.length_append, List.length_cons, List.length_nil]; omega)]
    simp
  · have entry : (quote :: (key ++ quote :: colon :: val)).length = key.length + val.length + 3 := by
      simp only [List.length_cons, List.length_append]
      omega
    rw [List.length_append, entry]
    omega

/-- The loop over the items of an array stays inside its buffer. -/
theorem putItems_done (items : List Value)
    (each : ∀ item ∈ items, pastaToJson getNumber item = .done (jsonText getNumber item))
    (index : Nat) (page : Page) (inside : page.bytes.length < page.cap) :
    ∃ cap, putItems getNumber items index page =
        .done ⟨cap, page.bytes ++ printed (items.map (jsonText getNumber)) index⟩ ∧
      (page.bytes ++ printed (items.map (jsonText getNumber)) index).length < cap := by
  induction items generalizing index page with
  | nil => exact ⟨page.cap, by simp [putItems, printed], by simpa [printed] using inside⟩
  | cons item items ih =>
    obtain ⟨cap, step, room⟩ := putItem_inside index (Nat.zero_lt_of_lt inside) (jsonText getNumber item)
    obtain ⟨last, done, rest⟩ := ih (fun other member => each other (List.mem_cons_of_mem _ member))
      (index + 1) ⟨cap, _⟩ room
    refine ⟨last, ?_, ?_⟩
    · rw [putItems, each item (by simp), Outcome.done_bind, step, Outcome.done_bind, done,
        List.map_cons, printed_cons]
      simp only [List.append_assoc]
    · rw [List.map_cons, printed_cons]
      simpa only [List.append_assoc] using rest

/-- The loop over the entries of a map stays inside its buffer. -/
theorem putEntries_done (entries : List (Bytes × Value))
    (each : ∀ entry ∈ entries, pastaToJson getNumber entry.2 = .done (jsonText getNumber entry.2))
    (index : Nat) (page : Page) (inside : page.bytes.length < page.cap) :
    ∃ cap, putEntries getNumber entries index page =
        .done ⟨cap, page.bytes ++ printed (entries.map (entryText getNumber)) index⟩ ∧
      (page.bytes ++ printed (entries.map (entryText getNumber)) index).length < cap := by
  induction entries generalizing index page with
  | nil => exact ⟨page.cap, by simp [putEntries, printed], by simpa [printed] using inside⟩
  | cons entry entries ih =>
    obtain ⟨cap, step, room⟩ := putEntry_inside index (Nat.zero_lt_of_lt inside) (cString entry.1)
      (jsonText getNumber entry.2)
    obtain ⟨last, done, rest⟩ := ih (fun other member => each other (List.mem_cons_of_mem _ member))
      (index + 1) ⟨cap, _⟩ room
    refine ⟨last, ?_, ?_⟩
    · rw [putEntries, each entry (by simp), Outcome.done_bind, step, Outcome.done_bind, done,
        List.map_cons, printed_cons]
      simp only [List.append_assoc, entryText]
    · rw [List.map_cons, printed_cons]
      simpa only [List.append_assoc, entryText] using rest

/-- The text of a value has no terminator. -/
theorem jsonText_terminated (getNumber : Bytes → Double) (value : Value) : 0 ∉ jsonText getNumber value := by
  induction value using value_induction with
  | null | labelRef | blob => simp [jsonText, ascii]
  | bool value => cases value <;> simp [jsonText, ascii]
  | number literal => exact numberJson_terminated _
  | string data => exact zero_notMem_cString _
  | array items each =>
    have free : 0 ∉ [comma].intercalate (items.map (jsonText getNumber)) := by
      refine intercalate_free (by decide) fun text member => ?_
      obtain ⟨item, inside, rfl⟩ := List.mem_map.mp member
      exact each item inside
    rw [jsonText, itemTexts_eq]
    simp [free]
  | map entries each =>
    have free : 0 ∉ [comma].intercalate (entries.map (entryText getNumber)) := by
      refine intercalate_free (by decide) fun text member => ?_
      obtain ⟨entry, inside, rfl⟩ := List.mem_map.mp member
      simp [entryText, zero_notMem_cString, each entry inside]
    rw [jsonText, entryTexts_eq]
    simp [free]

/-- A list between its marks is written inside its buffer. -/
theorem brackets_done {loop : Page → Outcome Page} {front back : UInt8} {text : Bytes}
    (inner : ∀ page : Page, page.bytes.length < page.cap →
      ∃ cap, loop page = .done ⟨cap, page.bytes ++ text⟩ ∧ (page.bytes ++ text).length < cap)
    (terminated : 0 ∉ front :: (text ++ [back])) :
    (do
      let page ← (Page.empty 256).put [front]
      let page ← loop page
      let page ← page.reserveEnd.put [back]
      page.finish) = .done (front :: (text ++ [back])) := by
  have start : (Page.empty 256).put [front] = .done ⟨256, [front]⟩ :=
    Page.put_inside (by simp [Page.empty])
  obtain ⟨cap, done, room⟩ := inner ⟨256, [front]⟩ (by simp)
  have close := Page.reserveEnd_close ⟨cap, [front] ++ text⟩ room.le back
  rw [start, Outcome.done_bind, done, Outcome.done_bind]
  exact close.trans (congrArg _ (cString_terminated terminated))

/-- Every write of `pasta_to_json` is inside its buffer, and the text is that of the value. -/
theorem pastaToJson_done (value : Value) :
    pastaToJson getNumber value = .done (jsonText getNumber value) := by
  induction value using value_induction with
  | null | bool | number | labelRef => rfl
  | string data => exact stringJson_done data
  | blob data => exact stringJson_done []
  | array items each =>
    have terminated := jsonText_terminated getNumber (.array items)
    rw [jsonText, itemTexts_eq] at terminated ⊢
    exact brackets_done (fun page room => putItems_done items each 0 page room) terminated
  | map entries each =>
    have terminated := jsonText_terminated getNumber (.map entries)
    rw [jsonText, entryTexts_eq] at terminated ⊢
    exact brackets_done (fun page room => putEntries_done entries each 0 page room) terminated

/-! ## The tree that is to be read -/

/-- The number that stands for a number: itself where it is a short integer, and rounded to seventeen
digits elsewhere. An infinity has none, and zero stands in its place. -/
def decimalValue (number : Double) : ℚ :=
  match shortInteger number, number with
  | some whole, _ => whole
  | none, .finite number => signed number.negative (rounded number.numerator number.denominator)
  | none, _ => 0

mutual

/-- The JSON value that a value stands for: a label stands for its name. -/
def jsonTree (getNumber : Bytes → Double) : Value → Tree
  | .null => .null
  | .bool value => .bool value
  | .number literal => .number (decimalValue (getNumber literal))
  | .string data => .string data
  | .labelRef label => .string label
  | .blob data => .string data
  | .array items => .array (itemTrees getNumber items)
  | .map entries => .object (entryTrees getNumber entries)

/-- The items of an array. -/
def itemTrees (getNumber : Bytes → Double) : List Value → List Tree
  | [] => []
  | item :: items => jsonTree getNumber item :: itemTrees getNumber items

/-- The entries of a map. -/
def entryTrees (getNumber : Bytes → Double) : List (Bytes × Value) → List (Bytes × Tree)
  | [] => []
  | entry :: entries => (entry.1, jsonTree getNumber entry.2) :: entryTrees getNumber entries

end

/-- A character that is written as one of JSON: no control character but the three that are
escaped. -/
def Printed (c : UInt8) : Prop := 0x20 ≤ c ∨ c = newline ∨ c = carriageReturn ∨ c = tab

instance (c : UInt8) : Decidable (Printed c) := inferInstanceAs (Decidable (_ ∨ _))

mutual

/-- Nothing in a value goes wrong: it has no label and no blob with content, its numbers are finite, its
strings have no control character but the three that are escaped, and its keys no character that would
have to be escaped. -/
def Plainly (getNumber : Bytes → Double) : Value → Prop
  | .null => True
  | .bool _ => True
  | .number literal => (getNumber literal).IsFinite
  | .string data => ∀ c ∈ data, Printed c
  | .labelRef _ => False
  | .blob data => data = []
  | .array items => PlainItems getNumber items
  | .map entries => PlainEntries getNumber entries

/-- No item of an array. -/
def PlainItems (getNumber : Bytes → Double) : List Value → Prop
  | [] => True
  | item :: items => Plainly getNumber item ∧ PlainItems getNumber items

/-- No entry of a map. -/
def PlainEntries (getNumber : Bytes → Double) : List (Bytes × Value) → Prop
  | [] => True
  | entry :: entries =>
    ((∀ c ∈ entry.1, Plain c) ∧ Plainly getNumber entry.2) ∧ PlainEntries getNumber entries

end

/-- The items of an array, one by one. -/
theorem itemTrees_eq (items : List Value) :
    itemTrees getNumber items = items.map (jsonTree getNumber) := by
  induction items with
  | nil => rfl
  | cons item items ih => rw [itemTrees, ih, List.map_cons]

/-- The entries of a map, one by one. -/
theorem entryTrees_eq (entries : List (Bytes × Value)) :
    entryTrees getNumber entries =
      entries.map fun entry => (entry.1, jsonTree getNumber entry.2) := by
  induction entries with
  | nil => rfl
  | cons entry entries ih => rw [entryTrees, ih, List.map_cons]

/-- Every item is plain. -/
theorem plainItems_iff (items : List Value) :
    PlainItems getNumber items ↔ ∀ item ∈ items, Plainly getNumber item := by
  induction items with
  | nil => simp [PlainItems]
  | cons item items ih => rw [PlainItems, ih, List.forall_mem_cons]

/-- Every entry is plain. -/
theorem plainEntries_iff (entries : List (Bytes × Value)) :
    PlainEntries getNumber entries ↔
      ∀ entry ∈ entries, (∀ c ∈ entry.1, Plain c) ∧ Plainly getNumber entry.2 := by
  induction entries with
  | nil => simp [PlainEntries]
  | cons entry entries ih => rw [PlainEntries, ih, List.forall_mem_cons]

/-! ## Numbers -/

/-- Behind a value no number goes on. -/
theorem endsNumber_of_ends {rest : Bytes} (ends : Ends rest) : EndsNumber rest := by
  intro c member
  rcases ends c member with rfl | rfl | rfl <;> decide

/-- A short integer has its place in the buffer. -/
theorem shortInteger_text {number : Double} {whole : Int} (short : shortInteger number = some whole) :
    (decimal whole).length < 64 := by
  cases number with
  | nan | infinite => cases short
  | finite number =>
    obtain ⟨-, bounded⟩ := Option.filter_eq_some_iff.mp short
    have size : whole.natAbs < 10 ^ 16 :=
      lt_of_le_of_lt (of_decide_eq_true bounded) (Nat.pow_lt_pow_right (by decide) (by decide))
    cases whole with
    | ofNat count =>
      have numeral := decimalNat_length 15 size
      exact lt_of_le_of_lt numeral (by decide)
    | negSucc count =>
      have numeral := decimalNat_length 15 size
      exact lt_of_le_of_lt (Nat.succ_le_succ numeral) (by decide)

/-- A number that is not printed as an integer is not zero. -/
theorem numerator_ne_zero {number : Binary} (long : shortInteger (.finite number) = none) :
    number.numerator ≠ 0 := by
  intro zero
  rw [shortInteger, wholeNumber, zero] at long
  simp at long

/-- A finite number in print is read as its decimal value. -/
theorem number_read {number : Double} (finite : number.IsFinite) {rest : Bytes} (ends : EndsNumber rest) :
    Library.Json.number (numberJson number ++ rest) = some (decimalValue number, rest) := by
  unfold numberJson decimalValue
  cases short : shortInteger number with
  | some whole =>
    dsimp only
    rw [snprintf_fits (shortInteger_text short), number_decimal whole ends]
  | none =>
    cases number with
    | nan | infinite => cases finite
    | finite number =>
      dsimp only
      rw [snprintf_fits (by have room := printG_length (.finite number); omega), Double.printG,
        if_neg (numerator_ne_zero short)]
      exact number_signed _ (magnitude_printG _ _ ends)

/-- A whole number is itself. -/
theorem wholeNumber_value {number : Binary} {whole : Int} (found : wholeNumber number = some whole) :
    (whole : ℚ) = number.value := by
  have divides : number.numerator % number.denominator = 0 := by
    by_contra other
    rw [wholeNumber, if_neg other] at found
    cases found
  rw [wholeNumber, if_pos divides] at found
  have under : (number.denominator : ℚ) ≠ 0 := by
    exact_mod_cast (Nat.pow_pos (by decide) : 0 < 2 ^ (-number.exponent).toNat).ne'
  have quotient : ((number.numerator / number.denominator : Nat) : ℚ) =
      number.numerator / number.denominator := by
    rw [eq_div_iff under]
    exact_mod_cast Nat.div_mul_cancel (Nat.dvd_of_mod_eq_zero divides)
  rw [← Option.some.inj found, Binary.value, signed]
  split_ifs
  · rw [Int.cast_neg, Int.cast_natCast, quotient]
  · rw [Int.cast_natCast, quotient]

/-- The number that stands for a finite one is as near to it as seventeen digits come. -/
theorem decimalValue_near (number : Binary) :
    |decimalValue (.finite number) - number.value| ≤ |number.value| / (2 * 10 ^ 16) := by
  cases short : shortInteger (.finite number) with
  | some whole =>
    have same := wholeNumber_value (Option.filter_eq_some_iff.mp short).1
    unfold decimalValue
    rw [short]
    dsimp only
    rw [same, sub_self, abs_zero]
    positivity
  | none =>
    have upper := Nat.pos_of_ne_zero (numerator_ne_zero short)
    have under : 0 < number.denominator := Nat.pow_pos (by decide)
    have near := (significant_spec upper under).2.2
    have positive : (0 : ℚ) ≤ number.numerator / number.denominator := by positivity
    unfold decimalValue
    rw [short]
    dsimp only
    rw [Binary.value]
    unfold signed
    split_ifs
    · rw [abs_neg, abs_of_nonneg positive, neg_sub_neg, abs_sub_comm]
      exact near
    · rw [abs_of_nonneg positive]
      exact near

/-- A number in print begins like a number. -/
theorem number_starts {number : Double} (finite : number.IsFinite) :
    ∃ c more, numberJson number = c :: more ∧ (isDecimal c = true ∨ c = 0x2D) := by
  have none : EndsNumber [] := by rintro c ⟨⟩
  have read := number_read finite none
  rw [List.append_nil] at read
  cases text : numberJson number with
  | nil =>
    rw [text] at read
    cases read
  | cons c more =>
    refine ⟨c, more, rfl, ?_⟩
    rw [text, Library.Json.number] at read
    split_ifs at read with minus
    · exact .inr minus
    · obtain ⟨d, rest, same, digit⟩ := magnitude_starts read
      cases same
      exact .inl digit

/-- A number that is not finite is written as a word. -/
theorem number_word {number : Double} (infinite : ¬ number.IsFinite) (rest : Bytes) :
    scalar (numberJson number ++ rest) = none := by
  cases number with
  | nan negative | infinite negative => cases negative <;> rfl
  | finite number => exact absurd trivial infinite

/-- A number is read where it is finite. -/
theorem number_spells (number : Double) :
    Spells scalar (numberJson number) (.number (decimalValue number)) number.IsFinite := by
  refine ⟨fun finite rest ends => ?_, fun rest behind ends read => ?_⟩
  · obtain ⟨c, more, start, first⟩ := number_starts finite
    have inner := number_read finite (endsNumber_of_ends ends)
    rw [start, List.cons_append] at inner ⊢
    rw [scalar_number first, inner]
    rfl
  · by_contra infinite
    rw [number_word infinite] at read
    cases read

/-! ## Strings -/

/-- An escaped character is read as itself. -/
theorem characters_escape {c : UInt8} (printed : Printed c) (fuel : Nat) (rest : Bytes) :
    characters (fuel + 1) (escapeJson c ++ rest) =
      (characters fuel rest).map fun (more, behind) => (c :: more, behind) := by
  have escaped : ∀ letter d : UInt8, escape (letter :: rest) = some ([d], rest) →
      characters (fuel + 1) (0x5C :: letter :: rest) =
        (characters fuel rest).map fun (more, behind) => (d :: more, behind) := by
    intro letter d found
    rw [characters, if_neg (by decide), if_pos rfl, found]
    dsimp only [bind, Option.bind]
    cases characters fuel rest <;> rfl
  unfold escapeJson
  split_ifs with mark backslash line carriage stop
  · subst mark
    exact escaped _ _ rfl
  · subst backslash
    exact escaped _ _ rfl
  · subst line
    exact escaped _ _ rfl
  · subst carriage
    exact escaped _ _ rfl
  · subst stop
    exact escaped _ _ rfl
  · rcases printed with visible | line' | carriage' | stop'
    · exact characters_plain ⟨mark, backslash, visible⟩ fuel rest
    · exact absurd line' line
    · exact absurd carriage' carriage
    · exact absurd stop' stop

/-- Escaped characters are read as themselves, as far as they go. -/
theorem characters_escaped {data : Bytes} (printed : ∀ c ∈ data, Printed c) (fuel : Nat) (rest : Bytes) :
    characters (fuel + data.length) (data.flatMap escapeJson ++ rest) =
      (characters fuel rest).map fun (more, behind) => (data ++ more, behind) := by
  induction data with
  | nil => simp
  | cons c data ih =>
    rw [List.flatMap_cons, List.append_assoc, List.length_cons, ← Nat.add_assoc,
      characters_escape (printed c (by simp)), ih fun d member => printed d (by simp [member])]
    cases characters fuel rest <;> rfl

/-- A printed character has no terminator in its escape. -/
theorem escapeJson_terminated : ∀ c : UInt8, Printed c → 0 ∉ escapeJson c :=
  byte_forall (by decide +kernel)

/-- Another control character is not escaped. -/
theorem escapeJson_unprinted : ∀ c : UInt8, ¬ Printed c → escapeJson c = [c] ∧ c < 0x20 ∧ c ≠ quote ∧
    c ≠ 0x5C :=
  byte_forall (by decide +kernel)

/-- The escapes of printed characters are before the terminator. -/
theorem escaped_terminated {data : Bytes} (printed : ∀ c ∈ data, Printed c) :
    ∀ c ∈ quote :: data.flatMap escapeJson, (c != 0) = true := by
  refine accepts_of_notMem ?_
  simp only [List.mem_cons, List.mem_flatMap, not_or, not_exists, not_and]
  exact ⟨by decide, fun c member => escapeJson_terminated c (printed c member)⟩

/-- The text of a string behind printed characters. -/
theorem string_text {data : Bytes} (printed : ∀ c ∈ data, Printed c) (tail : Bytes) :
    cString (quote :: (data.flatMap escapeJson ++ tail)) =
      quote :: (data.flatMap escapeJson ++ cString tail) :=
  List.takeWhile_append_of_pos (escaped_terminated printed)

/-- Every character takes one at least. -/
theorem length_le_escaped (data : Bytes) : data.length ≤ (data.flatMap escapeJson).length := by
  induction data with
  | nil => exact le_rfl
  | cons c data ih =>
    have one : 1 ≤ (escapeJson c).length := by
      unfold escapeJson
      split_ifs <;> simp
    rw [List.flatMap_cons, List.length_append, List.length_cons]
    omega

/-- The first character of a string that is not printed. -/
theorem first_unprinted {data : Bytes} (wrong : ¬ ∀ c ∈ data, Printed c) :
    ∃ good bad more, data = good ++ bad :: more ∧ (∀ c ∈ good, Printed c) ∧ ¬ Printed bad := by
  induction data with
  | nil => exact absurd (fun c member => by cases member) wrong
  | cons c data ih =>
    by_cases here : Printed c
    · obtain ⟨good, bad, more, rfl, printed, unprinted⟩ := ih fun all => wrong (by
        rintro d member
        rcases List.mem_cons.mp member with rfl | inside
        · exact here
        · exact all d inside)
      refine ⟨c :: good, bad, more, rfl, ?_, unprinted⟩
      rintro d member
      rcases List.mem_cons.mp member with rfl | inside
      · exact here
      · exact printed d inside
    · exact ⟨[], c, data, rfl, by simp, here⟩

/-- A control character in a text is not read, and a terminator is never reached. -/
theorem characters_unprinted {bad : UInt8} (unprinted : ¬ Printed bad) (tail : Bytes) {rest : Bytes}
    (ends : Ends rest) (fuel : Nat) {more behind : Bytes} :
    characters fuel (cString (bad :: tail) ++ rest) ≠ some (bad :: more, behind) := by
  obtain ⟨-, control, noQuote, noBackslash⟩ := escapeJson_unprinted bad unprinted
  intro read
  cases fuel with
  | zero => cases read
  | succ fuel =>
    by_cases zero : bad = 0
    · subst zero
      cases rest with
      | nil => cases read
      | cons c rest =>
        have plain : Plain c ∧ c ≠ 0 := by
          rcases ends c rfl with rfl | rfl | rfl <;> decide
        rw [show cString (0 :: tail) = [] from rfl, List.nil_append, characters_plain plain.1] at read
        obtain ⟨found, _, same⟩ := Option.map_eq_some_iff.mp read
        cases same
        exact plain.2 rfl
    · rw [cString, List.takeWhile_cons_of_pos (by simpa using zero), List.cons_append, characters,
        if_neg noQuote, if_neg noBackslash, if_pos control] at read
      cases read

/-- The characters of a string behind the printed ones. -/
theorem characters_text {data : Bytes} (printed : ∀ c ∈ data, Printed c) (tail : Bytes) :
    ∃ fuel, tail.length ≤ fuel ∧
      characters (data.flatMap escapeJson ++ tail).length (data.flatMap escapeJson ++ tail) =
        (characters fuel tail).map fun (more, behind) => (data ++ more, behind) := by
  have long := length_le_escaped data
  refine ⟨(data.flatMap escapeJson ++ tail).length - data.length, ?_, ?_⟩
  · rw [List.length_append]
    omega
  · rw [← characters_escaped printed, Nat.sub_add_cancel (by rw [List.length_append]; omega)]

/-- A string is read where all its characters are printed. -/
theorem string_spells (data : Bytes) :
    Spells scalar (cString (quote :: (data.flatMap escapeJson ++ [quote]))) (.string data)
      (∀ c ∈ data, Printed c) := by
  refine ⟨fun printed rest ends => ?_, fun rest behind ends read => ?_⟩
  · rw [string_text printed, List.cons_append, scalar_quote, List.append_assoc]
    obtain ⟨fuel, enough, inner⟩ := characters_text printed (cString [quote] ++ rest)
    have some_ : fuel ≠ 0 := by
      have one : 1 ≤ (cString [quote] ++ rest).length := by
        rw [show cString [quote] = [quote] from rfl, List.singleton_append, List.length_cons]
        omega
      omega
    obtain ⟨fuel, rfl⟩ := Nat.exists_eq_succ_of_ne_zero some_
    rw [inner, show cString [quote] = [quote] from rfl, List.singleton_append, characters_close,
      Option.map_some, Option.map_some]
    dsimp only
    rw [List.append_nil]
  · by_contra wrong
    obtain ⟨good, bad, more, rfl, printed, unprinted⟩ := first_unprinted wrong
    rw [List.flatMap_append, List.flatMap_cons, (escapeJson_unprinted bad unprinted).1,
      List.append_assoc, List.append_assoc, string_text printed, List.cons_append, scalar_quote,
      List.append_assoc] at read
    obtain ⟨fuel, -, inner⟩ := characters_text printed
      (cString ([bad] ++ (more.flatMap escapeJson ++ [quote])) ++ rest)
    rw [inner] at read
    obtain ⟨⟨found, last⟩, read, same⟩ := Option.map_eq_some_iff.mp read
    obtain ⟨⟨rest', final⟩, read, again⟩ := Option.map_eq_some_iff.mp read
    simp only [Prod.mk.injEq, Tree.string.injEq] at same again
    obtain ⟨rfl, rfl⟩ := same
    obtain ⟨equal, rfl⟩ := again
    obtain rfl := List.append_cancel_left equal
    exact characters_unprinted unprinted _ ends fuel read

/-! ## Values -/

/-- The keywords are read as what they stand for. -/
theorem keyword_spells {word : Bytes} {found : Tree} {right : Prop}
    (read : ∀ rest, scalar (word ++ rest) = some (found, rest)) (good : right) :
    Spells scalar word found right :=
  ⟨fun _ rest _ => read rest, fun _ _ _ _ => good⟩

/-- A label is written as `null`, which is no string. -/
theorem label_spells (label : Bytes) : Spells scalar (ascii "null") (.string label) False := by
  refine ⟨False.elim, fun rest behind _ read => ?_⟩
  rw [show scalar (ascii "null" ++ rest) = some (.null, rest) from rfl] at read
  cases read

/-- A blob is written as a string without characters. -/
theorem blob_spells (data : Bytes) : Spells scalar [quote, quote] (.string data) (data = []) := by
  have read : ∀ rest, scalar ([quote, quote] ++ rest) = some (.string [], rest) := fun rest => by
    rw [List.cons_append, scalar_quote, List.singleton_append, List.length_cons, characters_close]
    rfl
  refine ⟨?_, fun rest behind _ found => ?_⟩
  · rintro rfl rest _
    exact read rest
  · rw [read] at found
    cases found
    rfl

/-- Neither an array nor a map. -/
def IsScalar : Value → Prop
  | .array _ | .map _ => False
  | _ => True

/-- What a mark of JSON or white space is not. -/
def Opens (c : UInt8) : Prop :=
  Library.Json.isBlank c = false ∧ c ≠ 0x5B ∧ c ≠ openBrace ∧ c ≠ 0x5D ∧ c ≠ closeBrace

instance (c : UInt8) : Decidable (Opens c) := inferInstanceAs (Decidable (_ ∧ _))

/-- What a number begins with is no mark. -/
theorem number_opens : ∀ c : UInt8, (isDecimal c = true ∨ c = 0x2D) → Opens c :=
  byte_forall (by decide +kernel)

/-- What the text of a scalar begins with. -/
theorem scalar_starts (getNumber : Bytes → Double) (value : Value) (simple : IsScalar value) :
    ∃ c more, jsonText getNumber value = c :: more ∧ Opens c := by
  cases value with
  | array | map => exact simple.elim
  | bool value => cases value <;> exact ⟨_, _, rfl, by decide⟩
  | number literal =>
    rw [jsonText]
    cases shape : getNumber literal with
    | nan negative | infinite negative => cases negative <;> exact ⟨_, _, rfl, by decide⟩
    | finite number =>
      obtain ⟨c, more, start, first⟩ := @number_starts (.finite number) trivial
      exact ⟨c, more, start, number_opens c first⟩
  | string data => exact ⟨quote, cString (data.flatMap escapeJson ++ [quote]), rfl, by decide⟩
  | _ => exact ⟨_, _, rfl, by decide⟩

/-- What the text of a value begins with: neither white space nor a mark that closes a list. -/
theorem jsonText_starts (getNumber : Bytes → Double) (value : Value) :
    ∃ c more, jsonText getNumber value = c :: more ∧ Library.Json.isBlank c = false ∧ c ≠ 0x5D ∧ c ≠ closeBrace := by
  by_cases simple : IsScalar value
  · obtain ⟨c, more, start, opens⟩ := scalar_starts getNumber value simple
    exact ⟨c, more, start, opens.1, opens.2.2.2⟩
  · cases value with
    | array | map => exact ⟨_, _, rfl, by decide⟩
    | _ => exact absurd trivial simple

/-- A scalar as a value. -/
theorem scalar_value (value : Value) (simple : IsScalar value) {depth : Nat}
    (enough : (jsonText getNumber value).length ≤ depth) {found : Tree} {right : Prop}
    (spells : Spells scalar (jsonText getNumber value) found right) :
    Spells (Library.Json.value depth) (jsonText getNumber value) found right := by
  obtain ⟨c, more, start, visible, bracket, brace, -⟩ := scalar_starts getNumber value simple
  obtain ⟨depth, rfl⟩ := Nat.exists_eq_succ_of_ne_zero (by
    rw [start, List.length_cons] at enough
    omega : depth ≠ 0)
  exact scalar_spells ⟨c, more, start, visible, bracket, brace⟩ spells

/-- An item is no longer than the joined text. -/
theorem length_le_intercalate {items : List Bytes} {item : Bytes} (member : item ∈ items) :
    item.length ≤ ([comma].intercalate items).length := by
  induction items with
  | nil => cases member
  | cons head items ih =>
    cases items with
    | nil =>
      obtain rfl := List.mem_singleton.mp member
      simp
    | cons next items =>
      rw [List.intercalate_cons_cons, List.length_append, List.length_append]
      rcases List.mem_cons.mp member with rfl | inside
      · omega
      · have short := ih inside
        omega

/-- A plain text has no terminator. -/
theorem plain_terminated {key : Bytes} (plain : ∀ c ∈ key, Plain c) : cString key = key :=
  cString_terminated fun zero => absurd (plain 0 zero).2.2 (by decide)

/-- An entry is read where its key needs no escape and its value is read. -/
theorem entry_spells (entry : Bytes × Value) {depth : Nat}
    (spells : Spells (Library.Json.value depth) (jsonText getNumber entry.2) (jsonTree getNumber entry.2)
      (Plainly getNumber entry.2)) :
    Spells (member (Library.Json.value depth)) (entryText getNumber entry)
      (entry.1, jsonTree getNumber entry.2)
      ((∀ c ∈ entry.1, Plain c) ∧ Plainly getNumber entry.2) := by
  have whole : cString entry.1 ++ entry.1.dropWhile (· != 0) = entry.1 := List.takeWhile_append_dropWhile
  have inner := member_spells spells (cString entry.1) (entry.1.dropWhile (· != 0))
  rw [whole] at inner
  refine ⟨fun ⟨plain, good⟩ => inner.read ⟨?_, good⟩, fun rest behind ends read => ?_⟩
  · have all := plain_terminated plain
    rw [all] at whole ⊢
    exact ⟨List.append_right_eq_self.mp whole, plain⟩
  · obtain ⟨⟨none, plain⟩, good⟩ := inner.only rest behind ends read
    rw [none, List.append_nil] at whole
    exact ⟨whole ▸ plain, good⟩

/-- The text of a value is read as its tree exactly where nothing in it goes wrong. -/
theorem value_spells (getNumber : Bytes → Double) (value : Value) {depth : Nat} (enough : (jsonText getNumber value).length ≤ depth) :
    Spells (Library.Json.value depth) (jsonText getNumber value) (jsonTree getNumber value)
      (Plainly getNumber value) := by
  induction value using value_induction generalizing depth with
  | null => exact scalar_value .null trivial enough (keyword_spells (fun _ => rfl) trivial)
  | bool value =>
    cases value <;> exact scalar_value (.bool _) trivial enough (keyword_spells (fun _ => rfl) trivial)
  | number literal => exact scalar_value (.number literal) trivial enough (number_spells _)
  | string data => exact scalar_value (.string data) trivial enough (string_spells data)
  | labelRef label => exact scalar_value (.labelRef label) trivial enough (label_spells label)
  | blob data => exact scalar_value (.blob data) trivial enough (blob_spells data)
  | array items each =>
    rw [jsonText, itemTexts_eq] at enough ⊢
    rw [jsonTree, itemTrees_eq, Plainly, plainItems_iff]
    simp only [List.length_cons, List.length_append, List.length_nil] at enough
    obtain ⟨depth, rfl⟩ := Nat.exists_eq_succ_of_ne_zero (by omega : depth ≠ 0)
    refine array_spells (sequence_spells (fun item member => each item member ?_) (fun item _ => ?_)
      (by decide) (by decide) ends_bracket)
    · have short := length_le_intercalate (@List.mem_map_of_mem _ _ _ _ (jsonText getNumber) member)
      omega
    · obtain ⟨c, more, start, visible, bracket, -⟩ := jsonText_starts getNumber item
      exact ⟨c, more, start, visible, bracket⟩
  | map entries each =>
    rw [jsonText, entryTexts_eq] at enough ⊢
    rw [jsonTree, entryTrees_eq, Plainly, plainEntries_iff]
    simp only [List.length_cons, List.length_append, List.length_nil] at enough
    obtain ⟨depth, rfl⟩ := Nat.exists_eq_succ_of_ne_zero (by omega : depth ≠ 0)
    refine object_spells (sequence_spells (fun entry member => ?_)
      (fun entry _ => ⟨quote, _, rfl, by decide⟩) (by decide) (by decide) ends_brace)
    have short := length_le_intercalate (@List.mem_map_of_mem _ _ _ _ (entryText getNumber) member)
    rw [entryText] at short
    simp only [List.length_cons, List.length_append] at short
    exact entry_spells entry (each entry member (by omega))

/-- Every write of `pasta_to_json` is inside its buffer; and the text is JSON for the value exactly where
nothing in the value goes wrong. -/
theorem pastaToJson_faithful_iff (getNumber : Bytes → Double) (value : Value) :
    (∃ text, pastaToJson getNumber value = .done text ∧ decode text = some (jsonTree getNumber value)) ↔
      Plainly getNumber value := by
  have spells := value_spells getNumber value le_rfl
  have ends : Ends [] := by rintro c ⟨⟩
  constructor
  · rintro ⟨text, done, read⟩
    rw [pastaToJson_done] at done
    cases done
    obtain ⟨⟨found, rest⟩, inner, same⟩ := Option.bind_eq_some_iff.mp read
    dsimp only at same
    split_ifs at same
    cases same
    exact spells.only [] rest ends (by rwa [List.append_nil])
  · intro plain
    refine ⟨_, pastaToJson_done value, ?_⟩
    have read := spells.read plain [] ends
    rw [List.append_nil] at read
    exact Option.bind_eq_some_iff.mpr ⟨_, read, rfl⟩

/-- A key with a quotation mark is written as it is. -/
theorem pastaToJson_key :
    ¬ ∀ (getNumber : Bytes → Double) (value : Value), ∃ text,
      pastaToJson getNumber value = .done text ∧ decode text = some (jsonTree getNumber value) := by
  intro right
  obtain ⟨text, done, read⟩ := right (fun _ => .nan false) (.map [(ascii "a\"b", .null)])
  have written : pastaToJson (fun _ => .nan false) (.map [(ascii "a\"b", .null)]) =
      .done (ascii "\x7b\"a\"b\":null\x7d") := by decide +kernel
  rw [written] at done
  cases done
  have refused : decode (ascii "\x7b\"a\"b\":null\x7d") = none := by rfl
  rw [refused] at read
  cases read

end Cookbook.Server
