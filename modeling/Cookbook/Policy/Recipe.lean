import Cookbook.Library.Filling
import Cookbook.Pasta.Parser
import Cookbook.Policy.Serialize

/-!
# The texts around a policy resolution

A resolution writes a recipe with all keys of the pastlets, merges the pastlets by it, and prints the
merged tree as the grants text of a token. Both texts go to buffers that grow in front of every key,
but not in front of the fixed text between their two sections.
-/
namespace Cookbook.Policy

open Library.Text Pasta

/-! ## The grants text of a tree -/

/-- A permission letter that is not there yet is added to `perms`, a buffer of 16 bytes. -/
def addPerm (perms : Bytes) (c : UInt8) : Bytes :=
  if (c == 0x63 || c == 0x72 || c == 0x77 || c == 0x64) && !perms.contains c &&
      decide (perms.length < 15) then
    perms ++ [c]
  else perms

/-- The text of a grant: a string as it stands, the permission letters of an array, and nothing for
any other value. -/
def grantText : Value → Bytes
  | .string data => cString data
  | .array items => (items.filterMap Value.getString).foldl (·.foldl addPerm) []
  | _ => []

/-- The grants of a resolved tree as they are printed. -/
def treeGrants (tree : Entries) : List (Bytes × Bytes) :=
  match tree.get (ascii "grants") with
  | some (.map entries) => entries.map fun entry => (cString entry.1, grantText entry.2)
  | _ => []

/-- The excluded keys of a resolved tree. -/
def treeExcludes (tree : Entries) : List Bytes :=
  match tree.get (ascii "exclude") with
  | some (.map entries) => entries.map fun entry => cString entry.1
  | _ => []

/-- `serialize_grants_json`: null for a value that is no map. -/
def serializeGrantsJson : Value → Outcome (Option Bytes)
  | .map tree =>
    (serializeEntries (treeGrants tree) (treeExcludes tree)).bind fun json => .done (some json)
  | _ => .done none

/-- `{"grants":{...},"exclude":{...}}` with every entry. -/
def grantsObject (grants : List (Bytes × Bytes)) (keys : List Bytes) : Bytes :=
  openBrace :: (grantsMarker ++ [comma].intercalate (grants.map grantItem) ++
    closeBrace :: comma :: (excludeMarker ++ [comma].intercalate (keys.map excludeItem) ++
      [closeBrace, closeBrace]))

/-- The serializer prints every entry exactly when the text between the maps fits. -/
theorem serializeEntries_complete_iff (grants : List (Bytes × Bytes)) (keys : List Bytes) :
    serializeEntries grants keys = .done (grantsObject grants keys) ↔ MiddleFits grants := by
  constructor
  · intro complete
    by_contra crowded
    obtain ⟨kept, _, short, cut⟩ := serializeEntries_cut keys crowded
    rw [cut] at complete
    have lengths := congrArg List.length (Outcome.done.inj complete)
    have between := middle_length
    simp only [grantsObject, middle, List.length_cons, List.length_append, List.length_take]
      at lengths between
    omega
  · exact serializeEntries_fits keys

/-! ## The recipe -/

/-- One line of a recipe. -/
def recipeItem (kind key : Bytes) : Bytes :=
  ascii ",\n  \"" ++ key ++ ascii "\": \"" ++ kind ++ [quote]

/-- A loop over the keys of a section, with the room each asks for. -/
def writeRecipeKeys (kind : Bytes) (keys : List Bytes) : Cursor → Outcome Cursor :=
  growItems (keys.map fun key => (key.length + 32, recipeItem kind key))

/-- The start of the grants section. -/
def recipeGrantsHead : Bytes := ascii "@grants \x7b\n  consumes: [\"grants\"],\n  merge: \"collect\""

/-- The start of the exclude section. -/
def recipeExcludeHead : Bytes :=
  ascii "@exclude \x7b\n  consumes: [\"exclude\"],\n  merge: \"replace\""

/-- The end of a section. -/
def recipeEnd : Bytes := ascii "\n\x7d\n"

/-- The part of `cookbook_policy_resolve` that builds the recipe from the collected keys. -/
def buildRecipe (grantKeys excludeKeys : List Bytes) : Outcome Bytes :=
  ((((Cursor.empty 512).printf recipeGrantsHead).bind
    (writeRecipeKeys (ascii "perm") grantKeys)).bind (·.printf recipeEnd)).bind fun recipe =>
      if excludeKeys = [] then .done recipe.text
      else
        (((recipe.printf recipeExcludeHead).bind
          (writeRecipeKeys (ascii "flag") excludeKeys)).bind (·.printf recipeEnd)).bind
            fun recipe => .done recipe.text

/-- A section of a recipe with a line for each key. -/
def recipeSection (head kind : Bytes) (keys : List Bytes) : Bytes :=
  head ++ keys.flatMap (recipeItem kind) ++ recipeEnd

/-- A recipe with both sections; without excluded keys there is no second one. -/
def completeRecipe (grantKeys excludeKeys : List Bytes) : Bytes :=
  recipeSection recipeGrantsHead (ascii "perm") grantKeys ++
    if excludeKeys = [] then []
    else recipeSection recipeExcludeHead (ascii "flag") excludeKeys

/-- The size of the recipe's buffer and the position behind the lines of grant keys of these
lengths. -/
def recipeSize (lengths : List Nat) : Nat × Nat :=
  growSize (lengths.map fun length => (length + 32, length + 14)) 512 52

/-- Behind the grants section the buffer has room for the start of the next one. -/
def ExcludeHeadFits (grantKeys : List Bytes) : Prop :=
  (recipeSize (grantKeys.map List.length)).2 + 57 < (recipeSize (grantKeys.map List.length)).1

instance (grantKeys : List Bytes) : Decidable (ExcludeHeadFits grantKeys) :=
  inferInstanceAs (Decidable (_ < _))

/-- A line takes fourteen bytes besides its key. -/
theorem recipeItem_length {kind : Bytes} (four : kind.length = 4) (key : Bytes) :
    (recipeItem kind key).length = key.length + 14 := by
  have front : (ascii ",\n  \"").length = 5 := by decide
  have between : (ascii "\": \"").length = 4 := by decide
  simp only [recipeItem, List.length_append, front, between, four, List.length_singleton]
  omega

/-- The reservation of a key covers its line and eighteen bytes more. -/
theorem recipe_covered {kind : Bytes} (four : kind.length = 4) (keys : List Bytes) :
    ∀ item ∈ keys.map fun key => (key.length + 32, recipeItem kind key),
      item.2.length + 18 ≤ item.1 := by
  intro item member
  obtain ⟨key, _, rfl⟩ := List.mem_map.mp member
  rw [recipeItem_length four]

/-- The lines of a section, one behind the other. -/
theorem recipe_lines (kind : Bytes) (keys : List Bytes) :
    (keys.map fun key => (key.length + 32, recipeItem kind key)).flatMap Prod.snd =
      keys.flatMap (recipeItem kind) := by
  rw [List.flatMap_map]

/-- The grants section is always written whole. -/
theorem recipe_grants (grantKeys : List Bytes) :
    ∃ recipe, ((((Cursor.empty 512).printf recipeGrantsHead).bind
        (writeRecipeKeys (ascii "perm") grantKeys)).bind (·.printf recipeEnd)) = .done recipe ∧
      recipe.Whole ∧
      recipe.text = recipeSection recipeGrantsHead (ascii "perm") grantKeys ∧
      recipe.cap = (recipeSize (grantKeys.map List.length)).1 ∧
      recipe.pos = (recipeSize (grantKeys.map List.length)).2 + 3 := by
  have headLength : recipeGrantsHead.length = 52 := by decide
  have endLength : recipeEnd.length = 3 := by decide
  have four : (ascii "perm").length = 4 := by decide
  obtain ⟨header, start⟩ := Cursor.printf_whole (Cursor.empty_whole (by decide : 0 < 512))
    recipeGrantsHead (by rw [headLength]; decide)
  obtain ⟨next, lines, whole, text, size, room⟩ :=
    growItems_whole _ 18 (recipe_covered four grantKeys) start
  have free := room (.inr (by rw [headLength]; decide))
  obtain ⟨done, closed⟩ := Cursor.printf_whole whole recipeEnd (by omega)
  have sizes : (next.cap, next.pos) = recipeSize (grantKeys.map List.length) := by
    rw [size, recipeSize, headLength, List.map_map, List.map_map]
    congr 1
    exact List.map_congr_left fun key _ => by
      simp only [Function.comp_apply, recipeItem_length four]
  refine ⟨_, ?_, closed, ?_, ?_, ?_⟩
  · rw [header, Outcome.bind_done, writeRecipeKeys, lines, Outcome.bind_done]
    exact done
  · simp only [text, recipe_lines, recipeSection]
    rfl
  · exact congrArg Prod.fst sizes
  · have behind := congrArg Prod.snd sizes
    simp only at behind
    simp only [behind, endLength]

/-- The recipe is complete exactly when it has no exclude section or the start of that section
fits. -/
theorem buildRecipe_complete_iff (grantKeys excludeKeys : List Bytes) :
    buildRecipe grantKeys excludeKeys = .done (completeRecipe grantKeys excludeKeys) ↔
      excludeKeys = [] ∨ ExcludeHeadFits grantKeys := by
  have headLength : recipeExcludeHead.length = 54 := by decide
  have endLength : recipeEnd.length = 3 := by decide
  have four : (ascii "flag").length = 4 := by decide
  obtain ⟨recipe, grants, whole, text, cap, pos⟩ := recipe_grants grantKeys
  rw [buildRecipe, grants, Outcome.bind_done, completeRecipe]
  by_cases none : excludeKeys = []
  · rw [if_pos none, if_pos none, List.append_nil, text]
    exact iff_of_true rfl (.inl none)
  · rw [if_neg none, if_neg none, or_iff_right none]
    have items : (excludeKeys.map fun key => (key.length + 32, recipeItem (ascii "flag") key)) ≠ [] :=
      fun empty => none (List.map_eq_nil_iff.mp empty)
    have covered := recipe_covered four excludeKeys
    by_cases fits : ExcludeHeadFits grantKeys
    · have room : recipe.pos + recipeExcludeHead.length < recipe.cap := by
        rw [cap, pos, headLength]
        exact fits
      obtain ⟨header, start⟩ := Cursor.printf_whole whole recipeExcludeHead room
      obtain ⟨next, lines, nextWhole, nextText, _, nextRoom⟩ := growItems_whole _ 18 covered start
      have free := nextRoom (.inl items)
      obtain ⟨done, _⟩ := Cursor.printf_whole nextWhole recipeEnd (by omega)
      refine iff_of_true ?_ fits
      rw [header, Outcome.bind_done, writeRecipeKeys, lines, Outcome.bind_done, done,
        Outcome.bind_done]
      simp only [nextText, recipe_lines, text, recipeSection, List.append_assoc]
    · have crowded : recipe.cap ≤ recipe.pos + recipeExcludeHead.length := by
        rw [cap, pos, headLength]
        exact Nat.le_of_not_lt fits
      have large : 512 ≤ recipe.cap := by
        rw [cap]
        exact growSize_cap _ _ _
      have exact' := whole.exact
      have inside := whole.room
      have header := Cursor.printf_cut whole recipeExcludeHead
      let start : Cursor := ⟨recipe.cap, recipe.text ++
        recipeExcludeHead.take (recipe.cap - recipe.pos - 1),
        recipe.pos + recipeExcludeHead.length⟩
      have sealed : start.text.length < start.pos := by
        simp only [start, List.length_append, List.length_take]
        omega
      have near : start.pos < start.cap * 2 := by
        simp only [start]
        omega
      obtain ⟨next, lines, nextText, nextCut, nextNear⟩ := growItems_cut
        (excludeKeys.map fun key => (key.length + 32, recipeItem (ascii "flag") key))
        (fun item member => Nat.le_of_add_right_le (covered item member))
        sealed near
      obtain ⟨last, done, lastText, _⟩ := Cursor.printf_sealed next nextCut (nextNear items)
        recipeEnd
      refine iff_of_false ?_ fits
      rw [header, Outcome.bind_done, writeRecipeKeys, lines, Outcome.bind_done, done,
        Outcome.bind_done, lastText, nextText]
      intro complete
      have lengths := congrArg List.length (Outcome.done.inj complete)
      simp only [start, text, recipeSection, List.length_append, List.length_take] at lengths
      omega

/-! ## Both texts -/

/-- The grants text of a tree has every key exactly when the text between its two objects fits; a
recipe has both sections exactly when the start of the second one fits. -/
theorem policyTexts_complete_iff (tree : Entries) (grantKeys excludeKeys : List Bytes) :
    (serializeGrantsJson (.map tree) =
        .done (some (grantsObject (treeGrants tree) (treeExcludes tree))) ↔
      MiddleFits (treeGrants tree)) ∧
    (buildRecipe grantKeys excludeKeys = .done (completeRecipe grantKeys excludeKeys) ↔
      excludeKeys = [] ∨ ExcludeHeadFits grantKeys) := by
  refine ⟨?_, buildRecipe_complete_iff grantKeys excludeKeys⟩
  rw [← serializeEntries_complete_iff _ (treeExcludes tree), serializeGrantsJson]
  cases serializeEntries (treeGrants tree) (treeExcludes tree) with
  | overrun => exact iff_of_false (fun same => by cases same) (fun same => by cases same)
  | done json => exact ⟨fun same => by cases same; rfl, fun same => by cases same; rfl⟩

/-- One grant with a long name, and one exclusion. -/
def crowdedTree : Entries :=
  [(ascii "grants", .map [(List.replicate 224 0x61, .string (ascii "crwd"))]),
    (ascii "exclude", .map [(ascii "secret", .bool true)])]

/-- The exclusion is missing from the grants text of this tree, and from the recipe for one grant
with a longer name. -/
theorem policyTexts_cut :
    serializeGrantsJson (.map crowdedTree) ≠
        .done (some (grantsObject (treeGrants crowdedTree) (treeExcludes crowdedTree))) ∧
      buildRecipe [List.replicate 400 0x61] [ascii "secret"] ≠
        .done (completeRecipe [List.replicate 400 0x61] [ascii "secret"]) := by
  have middle : ¬ MiddleFits (treeGrants crowdedTree) := by decide +kernel
  have head : ¬ ([ascii "secret"] = ([] : List Bytes) ∨
      ExcludeHeadFits [List.replicate 400 0x61]) := by decide +kernel
  refine ⟨fun complete => middle ?_, fun complete => head ?_⟩
  · rw [serializeGrantsJson] at complete
    rw [← serializeEntries_complete_iff _ (treeExcludes crowdedTree)]
    cases json : serializeEntries (treeGrants crowdedTree) (treeExcludes crowdedTree) with
    | overrun =>
      rw [json] at complete
      cases complete
    | done text =>
      rw [json] at complete
      exact congrArg _ (Option.some.inj (Outcome.done.inj complete))
  · exact (buildRecipe_complete_iff _ _).mp complete

end Cookbook.Policy
