import Cookbook.Policy.Check

/-!
# The policy documents the server writes

A grants document maps group prefixes to operation letters, an exclude document lists group
prefixes. Both are written without blanks, bare or as the two members of one object. Walking the
text of a document hands the callback exactly its entries, in order.
-/
namespace Cookbook.Policy

open Library.Text

/-- A name or value that leaves the quoting and the braces of a document alone. -/
structure Plain (text : Bytes) : Prop where
  /-- It closes no string. -/
  quoteFree : quote ∉ text
  /-- It opens no object. -/
  openFree : openBrace ∉ text
  /-- It closes no object. -/
  closeFree : closeBrace ∉ text

/-- Plainness is three searches. -/
instance (text : Bytes) : Decidable (Plain text) :=
  decidable_of_iff (quote ∉ text ∧ openBrace ∉ text ∧ closeBrace ∉ text)
    ⟨fun ⟨a, b, c⟩ => ⟨a, b, c⟩, fun ⟨a, b, c⟩ => ⟨a, b, c⟩⟩

/-- A grants map: prefixes with their operation letters. -/
structure GrantMap where
  /-- The entries in document order. -/
  entries : List (Bytes × Bytes)
  /-- Keys and values are plain. -/
  plain : ∀ entry ∈ entries, Plain entry.1 ∧ Plain entry.2
  /-- No key is given twice. -/
  distinct : (entries.map Prod.fst).Nodup

/-- An exclude map: the denied prefixes. -/
structure ExcludeMap where
  /-- The keys in document order. -/
  keys : List Bytes
  /-- Keys are plain. -/
  plain : ∀ key ∈ keys, Plain key
  /-- No key is given twice. -/
  distinct : keys.Nodup

/-! ## Text -/

/-- `"key":"val"` -/
def grantItem (entry : Bytes × Bytes) : Bytes :=
  quote :: (entry.1 ++ quote :: colon :: quote :: (entry.2 ++ [quote]))

/-- `"key":true` -/
def excludeItem (key : Bytes) : Bytes := quote :: (key ++ quote :: colon :: ascii "true")

/-- The entries of a grants map, separated by commas. -/
def GrantMap.body (grants : GrantMap) : Bytes :=
  [comma].intercalate (grants.entries.map grantItem)

/-- The keys of an exclude map, separated by commas. -/
def ExcludeMap.body (excludes : ExcludeMap) : Bytes :=
  [comma].intercalate (excludes.keys.map excludeItem)

/-- A map as a bare object. -/
def object (body : Bytes) : Bytes := openBrace :: (body ++ [closeBrace])

/-- Both maps as the members of one object. -/
def wrapped (grants : GrantMap) (excludes : ExcludeMap) : Bytes :=
  openBrace :: (grantsMarker ++ grants.body ++ closeBrace :: comma ::
    (excludeMarker ++ excludes.body ++ [closeBrace, closeBrace]))

/-- A grants body has no brace. -/
theorem GrantMap.body_free (grants : GrantMap) :
    openBrace ∉ grants.body ∧ closeBrace ∉ grants.body := by
  constructor <;> refine intercalate_free (by decide) fun item member => ?_
  all_goals
    obtain ⟨entry, inside, rfl⟩ := List.mem_map.mp member
    have plain := grants.plain entry inside
    simp [grantItem, plain.1.openFree, plain.1.closeFree, plain.2.openFree, plain.2.closeFree]

/-- An exclude body has no brace. -/
theorem ExcludeMap.body_free (excludes : ExcludeMap) :
    openBrace ∉ excludes.body ∧ closeBrace ∉ excludes.body := by
  constructor <;> refine intercalate_free (by decide) fun item member => ?_
  all_goals
    obtain ⟨key, inside, rfl⟩ := List.mem_map.mp member
    have plain := excludes.plain key inside
    simp [excludeItem, plain.openFree, plain.closeFree, ascii]

/-! ## Walking a document -/

variable {σ : Type} (fn : σ → Bytes → Bytes → σ × Bool)

/-- One round over a grants entry, behind text without a quote. -/
theorem walk_grantItem (before : Bytes) {key val : Bytes} (after : Bytes) (fuel : Nat) (user : σ)
    (beforeFree : quote ∉ before) (keyFree : quote ∉ key) (valFree : quote ∉ val) :
    walkJsonMapFrom fn (fuel + 1) (before ++ (grantItem (key, val) ++ after)) user =
      resume (fn user key val) (walkJsonMapFrom fn fuel after) := by
  simp only [walkJsonMapFrom, grantItem, List.cons_append, List.append_assoc, List.nil_append,
    dropWhile_ne_stop beforeFree, dropWhile_ne_stop keyFree, takeWhile_ne_stop keyFree]
  simp [isBlank, dropWhile_ne_stop valFree, takeWhile_ne_stop valFree]

/-- One round over an exclude entry that a comma or the end of the text follows. -/
theorem walk_excludeItem (before : Bytes) {key after : Bytes} (fuel : Nat) (user : σ)
    (beforeFree : quote ∉ before) (keyFree : quote ∉ key)
    (ends : after.dropWhile isBareValue = after) :
    walkJsonMapFrom fn (fuel + 1) (before ++ (excludeItem key ++ after)) user =
      resume (fn user key (ascii "true")) (walkJsonMapFrom fn fuel after) := by
  simp only [walkJsonMapFrom, excludeItem, List.cons_append, List.append_assoc,
    dropWhile_ne_stop beforeFree, dropWhile_ne_stop keyFree, takeWhile_ne_stop keyFree]
  simp [isBlank, ascii, isBareValue, ends]

/-- The walk ends at once on text without a quote. -/
theorem walk_end {rest : Bytes} (fuel : Nat) (user : σ) (free : quote ∉ rest) :
    walkJsonMapFrom fn fuel rest user = user := by
  cases fuel with
  | zero => rfl
  | succ fuel => simp only [walkJsonMapFrom, dropWhile_all (accepts_of_notMem free)]

/-- The walk of a grants text is the feed of its entries. -/
theorem walk_grantItems (entries : List (Bytes × Bytes)) (fuel : Nat) (user : σ)
    (free : ∀ entry ∈ entries, quote ∉ entry.1 ∧ quote ∉ entry.2)
    (enough : entries.length ≤ fuel) :
    walkJsonMapFrom fn fuel ((entries.map grantItem).flatMap (comma :: ·)) user =
      feed fn entries user := by
  induction entries generalizing fuel user with
  | nil => exact walk_end fn fuel user (by simp)
  | cons entry entries ih =>
    obtain ⟨fuel, rfl⟩ : ∃ less, fuel = less + 1 := ⟨fuel - 1, by simp at enough; omega⟩
    obtain ⟨keyFree, valFree⟩ := free entry (by simp)
    have round := walk_grantItem fn [comma] ((entries.map grantItem).flatMap (comma :: ·)) fuel
      user (by decide) keyFree valFree
    simp only [List.map_cons, List.flatMap_cons, List.cons_append, List.nil_append] at round ⊢
    rw [round, feed]
    exact congrArg (resume _) (funext fun user =>
      ih fuel user (fun entry member => free entry (by simp [member])) (by simpa using enough))

/-- The walk of an exclude text is the feed of its keys with the value `true`. -/
theorem walk_excludeItems (keys : List Bytes) (fuel : Nat) (user : σ)
    (free : ∀ key ∈ keys, quote ∉ key) (enough : keys.length ≤ fuel) :
    walkJsonMapFrom fn fuel ((keys.map excludeItem).flatMap (comma :: ·)) user =
      feed fn (keys.map (·, ascii "true")) user := by
  induction keys generalizing fuel user with
  | nil => exact walk_end fn fuel user (by simp)
  | cons key keys ih =>
    obtain ⟨fuel, rfl⟩ : ∃ less, fuel = less + 1 := ⟨fuel - 1, by simp at enough; omega⟩
    have ends : ((keys.map excludeItem).flatMap (comma :: ·)).dropWhile isBareValue =
        (keys.map excludeItem).flatMap (comma :: ·) := by
      cases keys <;> simp [isBareValue]
    have round := walk_excludeItem fn [comma] fuel user (by decide) (free key (by simp)) ends
    simp only [List.map_cons, List.flatMap_cons, List.cons_append, List.nil_append] at round ⊢
    rw [round, feed]
    exact congrArg (resume _) (funext fun user =>
      ih fuel user (fun key member => free key (by simp [member])) (by simpa using enough))

/-- A text of one or more bytes for each item is at least as long as the list. -/
theorem length_le_flatMap (items : List Bytes) :
    items.length ≤ (items.flatMap (comma :: ·)).length := by
  induction items with
  | nil => simp
  | cons item items ih => simp only [List.flatMap_cons, List.length_append, List.length_cons]; omega

/-- The walk of a grants body, behind text without a quote, is the feed of the entries. -/
theorem walk_grants (before : Bytes) (grants : GrantMap) (user : σ) (free : quote ∉ before) :
    walkJsonMap fn (before ++ grants.body) user = feed fn grants.entries user := by
  have entriesFree : ∀ entry ∈ grants.entries, quote ∉ entry.1 ∧ quote ∉ entry.2 :=
    fun entry member => ⟨(grants.plain entry member).1.quoteFree,
      (grants.plain entry member).2.quoteFree⟩
  unfold walkJsonMap GrantMap.body
  generalize grants.entries = entries at entriesFree
  cases entries with
  | nil => exact walk_end fn _ user (by simpa using free)
  | cons entry entries =>
    rw [List.map_cons, intercalate_items]
    have enough : entries.length + 1 ≤ (before ++ (grantItem entry ++
        (entries.map grantItem).flatMap (comma :: ·))).length := by
      have rest := length_le_flatMap (entries.map grantItem)
      simp only [List.length_map, List.length_append, grantItem, List.length_cons] at rest ⊢
      omega
    obtain ⟨fuel, total⟩ := Nat.exists_eq_add_of_le' enough
    obtain ⟨keyFree, valFree⟩ := entriesFree entry (by simp)
    rw [total, ← Nat.add_assoc, walk_grantItem fn _ _ _ user free keyFree valFree, feed]
    exact congrArg (resume _) (funext fun user =>
      walk_grantItems fn entries _ user
        (fun entry member => entriesFree entry (by simp [member])) (by omega))

/-- The walk of an exclude body is the feed of the keys. -/
theorem walk_excludes (excludes : ExcludeMap) (user : σ) :
    walkJsonMap fn excludes.body user = feed fn (excludes.keys.map (·, ascii "true")) user := by
  have keysFree : ∀ key ∈ excludes.keys, quote ∉ key :=
    fun key member => (excludes.plain key member).quoteFree
  unfold walkJsonMap ExcludeMap.body
  generalize excludes.keys = keys at keysFree
  cases keys with
  | nil => exact walk_end fn _ user (by simp)
  | cons key keys =>
    rw [List.map_cons, intercalate_items]
    have enough : keys.length + 1 ≤ (excludeItem key ++
        (keys.map excludeItem).flatMap (comma :: ·)).length := by
      have rest := length_le_flatMap (keys.map excludeItem)
      simp only [List.length_map, List.length_append, excludeItem, List.length_cons] at rest ⊢
      omega
    obtain ⟨fuel, total⟩ := Nat.exists_eq_add_of_le' enough
    have ends : ((keys.map excludeItem).flatMap (comma :: ·)).dropWhile isBareValue =
        (keys.map excludeItem).flatMap (comma :: ·) := by
      cases keys <;> simp [isBareValue]
    have round := walk_excludeItem fn [] (fuel + keys.length) user (by simp)
      (keysFree key (by simp)) ends
    rw [total, ← Nat.add_assoc]
    simp only [List.nil_append] at round
    rw [round, List.map_cons, feed]
    exact congrArg (resume _) (funext fun user =>
      walk_excludeItems fn keys _ user (fun key member => keysFree key (by simp [member]))
        (by omega))

end Cookbook.Policy
