import Cookbook.Grid.PeerKey
import Mathlib.Data.Fintype.BigOperators
import Mathlib.Data.Fintype.Pigeonhole
import Mathlib.Data.List.GetD

/-!
# The text that a grid signature covers

`cookbook_grid_build_canonical` prints seven fields with a line end behind each, first into 4096 bytes
and, where those do not hold the text, into a buffer of its length. As long as the length is an `int`,
the text says every field. For a longer one `snprintf` fails, and what it leaves in the buffer is up to
the C library.
-/
namespace Cookbook.Grid

open Library.Text

/-! ## The function -/

/-- The arguments of `cookbook_grid_build_canonical`. -/
structure CanonicalFields where
  method : Option Bytes
  path : Option Bytes
  via : Option Bytes
  hopCount : Int32
  grants : Option Bytes
  exclude : Option Bytes
  timestamp : Int64

namespace CanonicalFields

/-- What the format prints. -/
def text (fields : CanonicalFields) : Bytes :=
  buildCanonical (fields.method.getD []) (fields.path.getD []) (fields.via.getD [])
    fields.hopCount.toInt (fields.grants.getD []) (fields.exclude.getD []) fields.timestamp.toInt

/-- The fields with an absent one as an empty one. -/
def normal (fields : CanonicalFields) : CanonicalFields where
  method := some (fields.method.getD [])
  path := some (fields.path.getD [])
  via := some (fields.via.getD [])
  hopCount := fields.hopCount
  grants := some (fields.grants.getD [])
  exclude := some (fields.exclude.getD [])
  timestamp := fields.timestamp

/-- The texts are free of line ends. -/
structure Plain (fields : CanonicalFields) : Prop where
  method : newline ∉ fields.method.getD []
  path : newline ∉ fields.path.getD []
  via : newline ∉ fields.via.getD []
  grants : newline ∉ fields.grants.getD []
  exclude : newline ∉ fields.exclude.getD []

end CanonicalFields

/-- What `snprintf` returns: the length of the text, or less than zero when no `int` holds it. -/
def snprintfResult (text : Bytes) : Int := if text.length < 2147483648 then text.length else -1

/-- A number as a `size_t`. -/
def sizeT (number : Int) : Nat := (number % 18446744073709551616).toNat

/-- What an `snprintf` that fails leaves in its buffer: no more than the buffer holds. -/
structure FailedPrint where
  /-- The bytes that are left in a buffer of this size for this text. -/
  left : Nat → Bytes → Bytes
  /-- They are in the buffer. -/
  inside : ∀ size text, (left size text).length ≤ size

/-- `snprintf`: it fails for a text whose length no `int` holds. -/
def FailedPrint.print (failed : FailedPrint) (size : Nat) (text : Bytes) : Bytes :=
  if text.length < 2147483648 then snprintf size text else failed.left size text

/-- `cookbook_grid_build_canonical`: what is in its buffer, and `out_len`. -/
def buildCanonicalText (failed : FailedPrint) (fields : CanonicalFields) : Bytes × Nat :=
  let cap := 4096
  let n := snprintfResult fields.text
  if n < 0 ∨ sizeT n ≥ cap then
    let cap := sizeT (sizeT n + 64)
    (failed.print cap fields.text, sizeT (snprintfResult fields.text))
  else (failed.print cap fields.text, sizeT n)

/-! ## Fields that a line end closes -/

/-- The first line end of a text closes its first field. -/
theorem field_split {field other rest behind : Bytes} (free : newline ∉ field)
    (otherFree : newline ∉ other) (same : field ++ newline :: rest = other ++ newline :: behind) :
    field = other ∧ rest = behind := by
  have front := congrArg (List.takeWhile (· != newline)) same
  rw [takeWhile_ne_stop free, takeWhile_ne_stop otherFree] at front
  subst front
  exact ⟨rfl, (List.cons.inj (List.append_cancel_left same)).2⟩

/-- A numeral has no line end. -/
theorem decimal_free (number : Int) : newline ∉ decimal number := by
  have digits (natural : Nat) : newline ∉ decimalNat natural := fun member =>
    absurd ((decimalNat_spec natural).2.1 newline member).1 (by decide)
  cases number with
  | ofNat natural => exact digits natural
  | negSucc natural =>
    rw [decimal, List.mem_cons, not_or]
    exact ⟨by decide, digits _⟩

/-- Numerals of different numbers differ. -/
theorem decimal_injective {left right : Int} (same : decimal left = decimal right) :
    left = right := by
  have value {first second : Nat} (equal : decimalNat first = decimalNat second) :
      first = second := by
    rw [← (decimalNat_spec first).2.2, equal, (decimalNat_spec second).2.2]
  have unsigned (natural : Nat) (rest : Bytes) : decimalNat natural ≠ 0x2D :: rest := fun equal =>
    ((decimalNat_spec natural).2.1 0x2D (by simp [equal])).2.2.1 rfl
  cases left with
  | ofNat first =>
    cases right with
    | ofNat second => exact congrArg Int.ofNat (value same)
    | negSucc second => exact (unsigned first _ same).elim
  | negSucc first =>
    cases right with
    | ofNat second => exact (unsigned second _ same.symm).elim
    | negSucc second =>
      have naturals := value (List.cons.inj same).2
      rw [Nat.succ.inj naturals]

/-- The printed text says every field. -/
theorem text_injective {left right : CanonicalFields} (first : left.Plain) (second : right.Plain)
    (same : left.text = right.text) : left.normal = right.normal := by
  obtain ⟨method, same⟩ := field_split first.method second.method same
  obtain ⟨path, same⟩ := field_split first.path second.path same
  obtain ⟨via, same⟩ := field_split first.via second.via same
  obtain ⟨hops, same⟩ := field_split (decimal_free _) (decimal_free _) same
  obtain ⟨grants, same⟩ := field_split first.grants second.grants same
  obtain ⟨exclude, same⟩ := field_split first.exclude second.exclude same
  have clock : decimal left.timestamp.toInt = decimal right.timestamp.toInt :=
    (field_split (decimal_free _) (decimal_free _) same).1
  have hopCount := Int32.toInt_inj.mp (decimal_injective hops)
  have timestamp := Int64.toInt_inj.mp (decimal_injective clock)
  simp only [CanonicalFields.normal, method, path, via, hopCount, grants, exclude, timestamp]

/-! ## Both buffers -/

/-- A text whose length is an `int` stands in its buffer whole. -/
theorem buildCanonicalText_whole (failed : FailedPrint) {fields : CanonicalFields}
    (fits : fields.text.length < 2147483648) :
    buildCanonicalText failed fields = (fields.text, fields.text.length) := by
  have result : snprintfResult fields.text = fields.text.length := if_pos fits
  have size : sizeT fields.text.length = fields.text.length := by
    unfold sizeT
    omega
  have grown : sizeT ((fields.text.length : Int) + 64) = fields.text.length + 64 := by
    unfold sizeT
    omega
  simp only [buildCanonicalText, FailedPrint.print, if_pos fits, result, size, grown]
  split
  · rw [snprintf_fits (by omega)]
  · next short =>
    rw [snprintf_fits (by omega)]

/-- A longer one leaves what a failed print leaves in sixty-three bytes, and its length is reported as
less than zero. -/
theorem buildCanonicalText_failed (failed : FailedPrint) {fields : CanonicalFields}
    (long : 2147483648 ≤ fields.text.length) :
    buildCanonicalText failed fields = (failed.left 63 fields.text, 18446744073709551615) := by
  have result : snprintfResult fields.text = -1 := if_neg (by omega)
  have size : sizeT (-1) = 18446744073709551615 := rfl
  have grown : sizeT (((18446744073709551615 : Nat) : Int) + 64) = 63 := rfl
  simp only [buildCanonicalText, FailedPrint.print, if_neg (Nat.not_lt.mpr long), result, size,
    grown]
  rw [if_pos (.inl (by decide))]

/-- The output says every field as long as its length is an `int`, whatever a failed print leaves:
no other fields of any length have it. -/
theorem canonicalText_determines (failed : FailedPrint) (fields : CanonicalFields)
    (plain : fields.Plain) (fits : fields.text.length < 2147483648) (other : CanonicalFields)
    (otherPlain : other.Plain)
    (same : buildCanonicalText failed other = buildCanonicalText failed fields) :
    other.normal = fields.normal := by
  rw [buildCanonicalText_whole failed fits] at same
  by_cases long : 2147483648 ≤ other.text.length
  · rw [buildCanonicalText_failed failed long] at same
    have length := congrArg Prod.snd same
    simp only at length
    omega
  · rw [buildCanonicalText_whole failed (Nat.not_le.mp long)] at same
    exact text_injective otherPlain plain (congrArg Prod.fst same)

/-- A request without a chain and without grants that excludes a text. -/
def excluding (exclude : Bytes) : CanonicalFields where
  method := some (ascii "GET")
  path := some (ascii "/grid/resolve/org.example/lib")
  via := none
  hopCount := 0
  grants := none
  exclude := some exclude
  timestamp := 1700000000

theorem excluding_plain {exclude : Bytes} (free : newline ∉ exclude) : (excluding exclude).Plain where
  method := show newline ∉ ascii "GET" by decide
  path := show newline ∉ ascii "/grid/resolve/org.example/lib" by decide +kernel
  via := show newline ∉ ([] : Bytes) by decide
  grants := show newline ∉ ([] : Bytes) by decide
  exclude := free

theorem excluding_length (exclude : Bytes) :
    (excluding exclude).text.length = exclude.length + 50 := by
  have method : (ascii "GET").length = 3 := by decide
  have path : (ascii "/grid/resolve/org.example/lib").length = 29 := by decide +kernel
  have hops : (decimal (0 : Int32).toInt).length = 1 := by decide
  have clock : (decimal (1700000000 : Int64).toInt).length = 10 := by decide +kernel
  simp only [CanonicalFields.text, buildCanonical, excluding, Option.getD_some, Option.getD_none,
    List.length_append, List.length_cons, List.length_nil, method, path, hops, clock]
  omega

/-- A library that leaves what the buffer holds of the text. -/
def cuttingPrint : FailedPrint where
  left size text := text.take size
  inside size text := List.length_take_le size text

/-- A request past the first buffer is determined. -/
theorem canonicalText_determines_regrown :
    (4096 < (excluding (List.replicate 5000 0x61)).text.length ∧
      (excluding (List.replicate 5000 0x61)).text.length < 2147483648) ∧
      ∀ other : CanonicalFields, other.Plain →
        buildCanonicalText cuttingPrint other =
            buildCanonicalText cuttingPrint (excluding (List.replicate 5000 0x61)) →
          other.normal = (excluding (List.replicate 5000 0x61)).normal := by
  have length := excluding_length (List.replicate 5000 0x61)
  rw [List.length_replicate] at length
  have plain : (excluding (List.replicate 5000 0x61)).Plain :=
    excluding_plain fun member => absurd (List.eq_of_mem_replicate member) (by decide)
  exact ⟨by omega, canonicalText_determines cuttingPrint _ plain (by omega)⟩

/-- A text of two letters for every word, behind two gigabytes of the first letter. -/
def letters (word : Fin 600 → Bool) : Bytes :=
  List.replicate 2147483648 0x61 ++ List.ofFn fun index => if word index then 0x61 else 0x62

theorem letters_free (word : Fin 600 → Bool) : newline ∉ letters word := by
  intro member
  rcases List.mem_append.mp member with front | back
  · exact absurd (List.eq_of_mem_replicate front) (by decide)
  · obtain ⟨index, same⟩ := List.mem_ofFn.mp back
    split at same <;> exact absurd same (by decide)

theorem letters_injective : Function.Injective letters := by
  intro left right same
  have letter := List.ofFn_injective (List.append_cancel_left same)
  funext index
  have here := congrFun letter index
  cases first : left index <;> cases second : right index <;> simp [first, second] at here ⊢

/-- There are more words than texts that a failed print can leave in sixty-three bytes. -/
theorem leftovers_collide (failed : FailedPrint) : ∃ first second, first ≠ second ∧
    failed.left 63 (excluding (letters first)).text =
      failed.left 63 (excluding (letters second)).text := by
  let leftover (word : Fin 600 → Bool) : Bytes := failed.left 63 (excluding (letters word)).text
  have fits (word : Fin 600 → Bool) : (leftover word).length ≤ 63 := failed.inside _ _
  have fewer : Fintype.card (Fin 64 × (Fin 63 → Fin 256)) < Fintype.card (Fin 600 → Bool) := by
    simp only [Fintype.card_prod, Fintype.card_pi_const, Fintype.card_fin, Fintype.card_bool]
    decide +kernel
  obtain ⟨first, second, apart, same⟩ := Fintype.exists_ne_map_eq_of_card_lt
    (fun word => ((⟨(leftover word).length, Nat.lt_succ_of_le (fits word)⟩ : Fin 64),
      fun index : Fin 63 => ((leftover word).getD index 0).toFin)) fewer
  obtain ⟨length, bytes⟩ := Prod.mk.inj same
  refine ⟨first, second, apart, List.ext_getElem (Fin.mk.inj length) fun index inside also => ?_⟩
  have byte := UInt8.toFin_inj.mp (congrFun bytes ⟨index, Nat.lt_of_lt_of_le inside (fits first)⟩)
  rwa [List.getD_eq_getElem _ _ inside, List.getD_eq_getElem _ _ also] at byte

/-- Past two gigabytes the output does not say the fields, in no library and with texts that fit in
memory. -/
theorem canonicalText_not_injective :
    ¬ ∃ failed : FailedPrint, ∀ left right : CanonicalFields, left.Plain → right.Plain →
      left.text.length < 2147485000 → right.text.length < 2147485000 →
      buildCanonicalText failed left = buildCanonicalText failed right →
        left.normal = right.normal := by
  rintro ⟨failed, injective⟩
  obtain ⟨first, second, apart, left⟩ := leftovers_collide failed
  have length (word : Fin 600 → Bool) : (excluding (letters word)).text.length = 2147484298 := by
    rw [excluding_length, letters, List.length_append, List.length_replicate, List.length_ofFn]
  have collides : buildCanonicalText failed (excluding (letters first)) =
      buildCanonicalText failed (excluding (letters second)) := by
    rw [buildCanonicalText_failed failed (by rw [length]; decide),
      buildCanonicalText_failed failed (by rw [length]; decide), left]
  have same := injective _ _ (excluding_plain (letters_free first))
    (excluding_plain (letters_free second)) (by rw [length]; decide) (by rw [length]; decide) collides
  exact apart (letters_injective (Option.some.inj (congrArg CanonicalFields.exclude same)))

end Cookbook.Grid
