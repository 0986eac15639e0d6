import Cookbook.Grid.GrantHeaders

/-!
# Forwarded grants decide alike

The headers carry the two maps as lists with `,` between entries and `:` inside a grant. Where the
names keep clear of these separators the peer reads back the very text the sender holds, and the
decisions agree exactly when there is something to forward and both fixed buffers hold it.
-/
namespace Cookbook.Grid

open Library.Text Library.PrefixMap Policy

/-! ## The header values -/

/-- `key:val` -/
def grantToken (entry : Bytes × Bytes) : Bytes := entry.1 ++ colon :: entry.2

/-- The value of the grants header. -/
def grantsValue (grants : GrantMap) : Bytes := [comma].intercalate (grants.entries.map grantToken)

/-- The value of the exclude header. -/
def excludeValue (excludes : ExcludeMap) : Bytes := [comma].intercalate excludes.keys

/-- One header line. -/
def headerLine (name value : Bytes) : Bytes := name ++ ascii ": " ++ value ++ crlf

/-- Behind its brace, a body is written entry by entry. -/
theorem writeGrants_step (gap : Bytes) {key val : Bytes} (after hdrs : Bytes) (first : Bool)
    (fuel : Nat) (gapOnly : ∀ c ∈ gap, isGap c = true) (keyFree : quote ∉ key)
    (valFree : quote ∉ val) :
    writeGrants (fuel + 1) (gap ++ (grantItem (key, val) ++ after)) hdrs first =
      writeGrants fuel after (separate hdrs first ++ key ++ colon :: val) false := by
  have open' : (gap ++ (grantItem (key, val) ++ after)).head? ≠ some closeBrace := by
    cases gap with
    | nil => simp [grantItem]
    | cons c gap =>
      have isGap := gapOnly c (by simp)
      simp only [List.cons_append, List.head?_cons, ne_eq, Option.some.injEq]
      rintro rfl
      simp [Grid.isGap] at isGap
  have skipped : (gap ++ (grantItem (key, val) ++ after)).dropWhile isGap =
      quote :: (key ++ quote :: (colon :: quote :: (val ++ quote :: after))) := by
    simpa [grantItem] using dropWhile_stop
      (key ++ quote :: (colon :: quote :: (val ++ quote :: after))) quote gapOnly (by decide)
  have value : (colon :: quote :: (val ++ quote :: after)).dropWhile
      (fun c => c == space || c == colon) = quote :: (val ++ quote :: after) := by simp
  simp only [writeGrants, if_neg open', skipped, strchr_stop _ keyFree, takeWhile_ne_stop keyFree,
    ↓reduceIte, List.drop_succ_cons, List.drop_zero, value, strchr_stop _ valFree,
    takeWhile_ne_stop valFree]

/-- A closing brace ends the grants loop. -/
theorem writeGrants_end (fuel : Nat) (rest hdrs : Bytes) (first : Bool) :
    writeGrants fuel (closeBrace :: rest) hdrs first = hdrs := by
  cases fuel <;> simp [writeGrants]

/-- The entries behind the first one. -/
theorem writeGrants_rest (entries : List (Bytes × Bytes)) (fuel : Nat) (hdrs rest : Bytes)
    (free : ∀ entry ∈ entries, quote ∉ entry.1 ∧ quote ∉ entry.2)
    (enough : entries.length ≤ fuel) :
    writeGrants fuel ((entries.map grantItem).flatMap (comma :: ·) ++ closeBrace :: rest) hdrs
      false = hdrs ++ (entries.map grantToken).flatMap (comma :: ·) := by
  induction entries generalizing fuel hdrs with
  | nil => simpa using writeGrants_end fuel rest hdrs false
  | cons entry entries ih =>
    obtain ⟨fuel, rfl⟩ : ∃ less, fuel = less + 1 := ⟨fuel - 1, by simp at enough; omega⟩
    obtain ⟨keyFree, valFree⟩ := free entry (by simp)
    have step := writeGrants_step [comma]
      ((entries.map grantItem).flatMap (comma :: ·) ++ closeBrace :: rest) hdrs false fuel
      (by simp [isGap]) keyFree valFree
    simp only [List.map_cons, List.flatMap_cons, List.cons_append, List.append_assoc,
      List.nil_append] at step ⊢
    rw [step, ih fuel _ (fun entry member => free entry (by simp [member])) (by simpa using enough)]
    simp [separate, grantToken]

/-- The grants loop over a bare grants object writes the header value. -/
theorem behindBrace_writeGrants (grants : GrantMap) (hdrs : Bytes) :
    behindBrace writeGrants (object grants.body) hdrs = hdrs ++ grantsValue grants := by
  have entriesFree : ∀ entry ∈ grants.entries, quote ∉ entry.1 ∧ quote ∉ entry.2 :=
    fun entry member => ⟨(grants.plain entry member).1.quoteFree,
      (grants.plain entry member).2.quoteFree⟩
  have opens : strchr openBrace (object grants.body) = some (object grants.body) :=
    strchr_stop [] (by simp)
  simp only [behindBrace, opens]
  simp only [object, List.drop_succ_cons, List.drop_zero, List.length_cons, GrantMap.body,
    grantsValue]
  generalize grants.entries = entries at entriesFree
  cases entries with
  | nil => simp [writeGrants]
  | cons entry entries =>
    rw [List.map_cons, intercalate_items, List.map_cons, intercalate_items]
    have longer := length_le_flatMap (entries.map grantItem)
    obtain ⟨keyFree, valFree⟩ := entriesFree entry (by simp)
    have step := writeGrants_step []
      ((entries.map grantItem).flatMap (comma :: ·) ++ [closeBrace]) hdrs true
      (grantItem entry ++ (entries.map grantItem).flatMap (comma :: ·) ++ [closeBrace]).length
      (by simp) keyFree valFree
    simp only [List.nil_append, List.append_assoc] at step ⊢
    rw [step, writeGrants_rest entries _ _ _
      (fun entry member => entriesFree entry (by simp [member]))
      (by simp only [List.length_append, List.length_map] at longer ⊢; omega)]
    simp [separate, grantToken]

/-- Behind its brace, an exclude body is written key by key. -/
theorem writeExcludes_step (gap : Bytes) {key : Bytes} (after hdrs : Bytes) (first : Bool)
    (fuel : Nat) (gapOnly : ∀ c ∈ gap, isGap c = true) (keyFree : quote ∉ key)
    (ends : after.dropWhile isBareValue = after) :
    writeExcludes (fuel + 1) (gap ++ (excludeItem key ++ after)) hdrs first =
      writeExcludes fuel after (separate hdrs first ++ key) false := by
  have open' : (gap ++ (excludeItem key ++ after)).head? ≠ some closeBrace := by
    cases gap with
    | nil => simp [excludeItem]
    | cons c gap =>
      have isGap := gapOnly c (by simp)
      simp only [List.cons_append, List.head?_cons, ne_eq, Option.some.injEq]
      rintro rfl
      simp [Grid.isGap] at isGap
  have skipped : (gap ++ (excludeItem key ++ after)).dropWhile isGap =
      quote :: (key ++ quote :: (colon :: (ascii "true" ++ after))) := by
    simpa [excludeItem] using dropWhile_stop (key ++ quote :: (colon :: (ascii "true" ++ after)))
      quote gapOnly (by decide)
  have value : (colon :: (ascii "true" ++ after)).dropWhile isBareValue = after := by
    simp [ascii, isBareValue, ends]
  simp only [writeExcludes, if_neg open', skipped, strchr_stop _ keyFree, takeWhile_ne_stop keyFree,
    ↓reduceIte, List.drop_succ_cons, List.drop_zero, value]

/-- A closing brace ends the exclude loop. -/
theorem writeExcludes_end (fuel : Nat) (rest hdrs : Bytes) (first : Bool) :
    writeExcludes fuel (closeBrace :: rest) hdrs first = hdrs := by
  cases fuel <;> simp [writeExcludes]

/-- The text behind an exclude item starts with a comma or a closing brace. -/
theorem excludes_end (keys : List Bytes) (rest : Bytes) :
    ((keys.map excludeItem).flatMap (comma :: ·) ++ closeBrace :: rest).dropWhile isBareValue =
      (keys.map excludeItem).flatMap (comma :: ·) ++ closeBrace :: rest := by
  cases keys <;> simp [isBareValue]

/-- The keys behind the first one. -/
theorem writeExcludes_rest (keys : List Bytes) (fuel : Nat) (hdrs rest : Bytes)
    (free : ∀ key ∈ keys, quote ∉ key) (enough : keys.length ≤ fuel) :
    writeExcludes fuel ((keys.map excludeItem).flatMap (comma :: ·) ++ closeBrace :: rest) hdrs
      false = hdrs ++ keys.flatMap (comma :: ·) := by
  induction keys generalizing fuel hdrs with
  | nil => simpa using writeExcludes_end fuel rest hdrs false
  | cons key keys ih =>
    obtain ⟨fuel, rfl⟩ : ∃ less, fuel = less + 1 := ⟨fuel - 1, by simp at enough; omega⟩
    have step := writeExcludes_step [comma] _ hdrs false fuel (by simp [isGap])
      (free key (by simp)) (excludes_end keys rest)
    simp only [List.map_cons, List.flatMap_cons, List.cons_append, List.append_assoc,
      List.nil_append] at step ⊢
    rw [step, ih fuel _ (fun key member => free key (by simp [member])) (by simpa using enough)]
    simp [separate]

/-- The exclude loop over a bare exclude object writes the header value. -/
theorem behindBrace_writeExcludes (excludes : ExcludeMap) (hdrs : Bytes) :
    behindBrace writeExcludes (object excludes.body) hdrs = hdrs ++ excludeValue excludes := by
  have keysFree : ∀ key ∈ excludes.keys, quote ∉ key :=
    fun key member => (excludes.plain key member).quoteFree
  have opens : strchr openBrace (object excludes.body) = some (object excludes.body) :=
    strchr_stop [] (by simp)
  simp only [behindBrace, opens]
  simp only [object, List.drop_succ_cons, List.drop_zero, List.length_cons, ExcludeMap.body,
    excludeValue]
  generalize excludes.keys = keys at keysFree
  cases keys with
  | nil => simp [writeExcludes]
  | cons key keys =>
    rw [List.map_cons, intercalate_items, intercalate_items]
    have longer := length_le_flatMap (keys.map excludeItem)
    have step := writeExcludes_step [] _ hdrs true
      (excludeItem key ++ (keys.map excludeItem).flatMap (comma :: ·) ++ [closeBrace]).length
      (by simp) (keysFree key (by simp)) (excludes_end keys [])
    simp only [List.nil_append, List.append_assoc] at step ⊢
    rw [step, writeExcludes_rest keys _ _ _ (fun key member => keysFree key (by simp [member]))
      (by simp only [List.length_append, List.length_map] at longer ⊢; omega)]
    simp [separate]

/-! ## The peer's side -/

/-- A text without a carriage return has no line end. -/
theorem unbroken_of_free {text : Bytes} (free : carriageReturn ∉ text) : ¬ crlf <:+: text :=
  fun occurs => free (occurs.subset (.head _))

/-- The end of a line whose name and value have none. -/
theorem strstr_line {name value : Bytes} (rest : Bytes) (nameFree : carriageReturn ∉ name)
    (valueFree : ¬ crlf <:+: value) :
    strstr crlf (headerLine name value ++ rest) = some (crlf ++ rest) := by
  have lineFree : ¬ crlf <:+: (name ++ ascii ": ") ++ value := fun occurs =>
    valueFree (infix_behind (by simpa [ascii] using nameFree) occurs)
  have shape : headerLine name value ++ rest = ((name ++ ascii ": ") ++ value) ++ (crlf ++ rest) := by
    simp [headerLine]
  rw [shape]
  exact strstr_pair (by decide) rest lineFree

/-- A field line is one field, without the blanks in front of its value. -/
theorem parseHeaders_field (name value rest : Bytes) (fuel : Nat) (headers : Headers)
    (named : name ≠ []) (nameFree : colon ∉ name ∧ carriageReturn ∉ name)
    (valueFree : ¬ crlf <:+: value) :
    parseHeaders (fuel + 1) (headerLine name value ++ rest) headers =
      parseHeaders fuel rest (setHeader headers name (value.dropWhile (· == space))) := by
  have found := strstr_line rest nameFree.2 valueFree
  have cut : (headerLine name value ++ rest).take
      ((headerLine name value ++ rest).length - (crlf ++ rest).length) =
      name ++ ascii ": " ++ value := by
    have shape : headerLine name value ++ rest =
        (name ++ ascii ": " ++ value) ++ (crlf ++ rest) := by simp [headerLine]
    rw [shape, List.length_append, Nat.add_sub_cancel, List.take_left]
  have nonempty : name ++ ascii ": " ++ value ≠ [] := by simp [named]
  have value' : strchr colon (name ++ ascii ": " ++ value) = some (colon :: space :: value) := by
    rw [List.append_assoc]
    exact strchr_stop _ nameFree.1
  have name' : (name ++ ascii ": " ++ value).takeWhile (· != colon) = name := by
    rw [List.append_assoc]
    exact takeWhile_ne_stop nameFree.1
  simp only [parseHeaders, found, cut, if_neg nonempty, value', name', List.drop_left,
    List.drop_succ_cons, List.drop_zero]
  simp

/-- One header line is one field, when its value starts with no blank. -/
theorem parseHeaders_line (name value rest : Bytes) (fuel : Nat) (headers : Headers)
    (named : name ≠ []) (nameFree : colon ∉ name ∧ carriageReturn ∉ name)
    (valueFree : ¬ crlf <:+: value) (start : value.head? ≠ some space) :
    parseHeaders (fuel + 1) (headerLine name value ++ rest) headers =
      parseHeaders fuel rest (setHeader headers name value) := by
  have trimmed : value.dropWhile (· == space) = value := by
    cases value with
    | nil => rfl
    | cons c value => simpa using start
  rw [parseHeaders_field name value rest fuel headers named nameFree valueFree, trimmed]

/-- A list that is joined with commas has no line end when its items have none. -/
theorem intercalate_unbroken {items : List Bytes} (unbroken : ∀ item ∈ items, ¬ crlf <:+: item) :
    ¬ crlf <:+: [comma].intercalate items := by
  induction items with
  | nil => decide
  | cons head items ih =>
    have first := unbroken head List.mem_cons_self
    cases items with
    | nil => simpa using first
    | cons next items =>
      have shape : [comma].intercalate (head :: next :: items) =
          head ++ comma :: [comma].intercalate (next :: items) := by simp [List.intercalate]
      rw [shape]
      exact not_infix_across (by decide) first (by decide)
        (ih fun item member => unbroken item (List.mem_cons_of_mem _ member))

/-- A list that is joined with commas and starts with no blank starts with no blank. -/
theorem intercalate_head {items : List Bytes} (start : ∀ item ∈ items, item.head? ≠ some space) :
    ([comma].intercalate items).head? ≠ some space := by
  cases items with
  | nil => simp
  | cons head items =>
    rw [intercalate_items]
    cases head with
    | nil => cases items <;> simp
    | cons c head => simpa using start (c :: head) (by simp)

/-- The tokens of a comma-separated list of nonempty items are the items. -/
theorem tokens_intercalate {items : List Bytes} (free : ∀ item ∈ items, comma ∉ item)
    (nonempty : ∀ item ∈ items, item ≠ []) : tokens ([comma].intercalate items) = items := by
  by_cases none : items = []
  · subst none
    decide
  · rw [tokens, List.splitOn_intercalate comma free none, List.filter_eq_self]
    simpa using nonempty

/-- A grants token is read back as its member. -/
theorem grantMember_token {entry : Bytes × Bytes} (keyFree : colon ∉ entry.1)
    (start : entry.1.head? ≠ some space) : grantMember (grantToken entry) = some (grantItem entry) := by
  have trimmed : (grantToken entry).dropWhile (· == space) = grantToken entry := by
    obtain ⟨key, val⟩ := entry
    cases key with
    | nil => simp [grantToken]
    | cons c key => simpa [grantToken] using start
  simp only [grantMember, trimmed]
  simp [grantToken, strchr_stop _ keyFree, takeWhile_ne_stop keyFree]

/-- The length of a joined text, with one more comma. -/
theorem intercalate_length (items : List Bytes) (nonempty : items ≠ []) :
    ([comma].intercalate items).length + 1 = (items.flatMap (comma :: ·)).length := by
  cases items with
  | nil => exact absurd rfl nonempty
  | cons head items =>
    rw [intercalate_items, List.flatMap_cons, List.cons_append]
    rfl

/-- A grants body is at most three times as long as its header value, but for a constant. -/
theorem grants_body_length (grants : GrantMap) :
    grants.body.length ≤ (grantsValue grants).length * 3 + 2 := by
  by_cases none : grants.entries = []
  · simp [GrantMap.body, none]
  · have body := intercalate_length (grants.entries.map grantItem) (by simpa using none)
    have value := intercalate_length (grants.entries.map grantToken) (by simpa using none)
    have each : ((grants.entries.map grantItem).flatMap (comma :: ·)).length ≤
        3 * ((grants.entries.map grantToken).flatMap (comma :: ·)).length := by
      generalize grants.entries = entries
      induction entries with
      | nil => simp
      | cons entry entries ih =>
        simp only [List.map_cons, List.flatMap_cons, grantItem, grantToken, List.length_cons,
          List.length_append, List.length_nil] at ih ⊢
        omega
    simp only [GrantMap.body, grantsValue] at body value ⊢
    omega

/-! ## Claims that are forwarded -/

/-- The claims of a token of version 2 with these two objects. -/
def claimsOf (grants : Option GrantMap) (excludes : Option ExcludeMap) : Claims where
  version := 2
  grantsJson := grants.map fun map => object map.body
  excludeJson := excludes.map fun map => object map.body

/-- Both header lines. -/
def headerBlock (grants : GrantMap) (excludes : Option ExcludeMap) : Bytes :=
  headerLine grantsHeaderName (grantsValue grants) ++
    match excludes with
    | none => []
    | some excludes => headerLine excludeHeaderName (excludeValue excludes)

/-- The decision of a peer that receives the headers built for these claims. -/
def forwardedDecision (claims : Claims) (group : Bytes) (op : UInt8) : Outcome Bool :=
  (buildGridGrantHeaders claims).bind fun
    | none => checkGridAuth [] group op
    | some block => checkGridAuth (receiveHeaders block) group op

/-- The peer decides every operation on every group as the sender does. -/
def DecidesAlike (grants : Option GrantMap) (excludes : Option ExcludeMap) : Prop :=
  ∀ group op, forwardedDecision (claimsOf grants excludes) group op =
    .done (authCheck (claimsOf grants excludes).grantsJson (claimsOf grants excludes).excludeJson
      (some group) op)

/-- Names and values that keep clear of the separators of the headers. -/
structure Separated (grants : Option GrantMap) (excludes : Option ExcludeMap) : Prop where
  /-- A grant key has no separator and no blank in front, and breaks no line. -/
  grantKey : ∀ map ∈ grants, ∀ entry ∈ map.entries, colon ∉ entry.1 ∧ comma ∉ entry.1 ∧
    ¬ crlf <:+: entry.1 ∧ entry.1.head? ≠ some space
  /-- A grant value has no comma and breaks no line. -/
  grantVal : ∀ map ∈ grants, ∀ entry ∈ map.entries, comma ∉ entry.2 ∧ ¬ crlf <:+: entry.2
  /-- An exclude key is not empty, has no comma and no blank in front, and breaks no line. -/
  excludeKey : ∀ map ∈ excludes, ∀ key ∈ map.keys, key ≠ [] ∧ comma ∉ key ∧
    ¬ crlf <:+: key ∧ key.head? ≠ some space

/-- There is a grant to forward, and each side's buffer holds what is written to it. -/
def Room (grants : Option GrantMap) (excludes : Option ExcludeMap) : Prop :=
  ∃ map ∈ grants, map.entries ≠ [] ∧ (headerBlock map excludes).length < headerCap ∧
    ∀ keys ∈ excludes, (object keys.body).length < (excludeValue keys).length * 3 + 16 ∨
      keys.keys = []

/-- The block of both lines is what the sender builds, as far as it fits. -/
theorem build_block (grants : GrantMap) (excludes : Option ExcludeMap) :
    buildGridGrantHeaders (claimsOf (some grants) excludes) =
      (fitted headerCap (headerBlock grants excludes)).bind fun block => .done (some block) := by
  cases excludes with
  | none =>
    simp [buildGridGrantHeaders, claimsOf, behindBrace_writeGrants, headerBlock, headerLine]
  | some excludes =>
    simp [buildGridGrantHeaders, claimsOf, behindBrace_writeGrants, behindBrace_writeExcludes,
      headerBlock, headerLine]

/-- The grants value keeps its line whole. -/
theorem Separated.grantsValue {grants : GrantMap} {excludes : Option ExcludeMap}
    (separated : Separated (some grants) excludes) :
    ¬ crlf <:+: grantsValue grants ∧ (grantsValue grants).head? ≠ some space := by
  constructor
  · refine intercalate_unbroken fun item member => ?_
    obtain ⟨entry, inside, rfl⟩ := List.mem_map.mp member
    have key := separated.grantKey grants rfl entry inside
    have val := separated.grantVal grants rfl entry inside
    exact not_infix_across (by decide) key.2.2.1 (by decide) val.2
  · refine intercalate_head fun item member => ?_
    obtain ⟨⟨key, val⟩, inside, rfl⟩ := List.mem_map.mp member
    have start := (separated.grantKey grants rfl _ inside).2.2.2
    cases key <;> simp_all [grantToken]

/-- The exclude value keeps its line whole. -/
theorem Separated.excludeValue {grants : Option GrantMap} {excludes : ExcludeMap}
    (separated : Separated grants (some excludes)) :
    ¬ crlf <:+: excludeValue excludes ∧ (excludeValue excludes).head? ≠ some space :=
  ⟨intercalate_unbroken fun key member =>
      (separated.excludeKey excludes rfl key member).2.2.1,
    intercalate_head fun key member => (separated.excludeKey excludes rfl key member).2.2.2⟩

/-- The fields the peer sees are the two values. -/
theorem receive_block {grants : GrantMap} {excludes : Option ExcludeMap}
    (separated : Separated (some grants) excludes) :
    receiveHeaders (headerBlock grants excludes) =
      (grantsHeaderName, grantsValue grants) ::
        (excludes.map fun map => (excludeHeaderName, excludeValue map)).toList := by
  have first : ∀ fuel rest, parseHeaders (fuel + 1)
      (headerLine grantsHeaderName (grantsValue grants) ++ rest) [] =
      parseHeaders fuel rest [(grantsHeaderName, grantsValue grants)] := fun fuel rest =>
    parseHeaders_line _ _ _ fuel [] (by decide) (by decide) separated.grantsValue.1
      separated.grantsValue.2
  have stop : ∀ fuel headers, parseHeaders fuel [] headers = headers := by
    intro fuel headers
    cases fuel <;> simp [parseHeaders, strstr, crlf]
  cases excludes with
  | none =>
    obtain ⟨fuel, enough⟩ : ∃ fuel, (headerBlock grants none).length = fuel + 1 :=
      ⟨_, by simp [headerBlock, headerLine, crlf]; rfl⟩
    rw [receiveHeaders, enough, headerBlock, first, stop]
    rfl
  | some excludes =>
    obtain ⟨fuel, enough⟩ : ∃ fuel, (headerBlock grants (some excludes)).length = fuel + 2 :=
      ⟨(headerBlock grants (some excludes)).length - 2, by
        simp only [headerBlock, headerLine, crlf, List.length_append, List.length_cons]; omega⟩
    have second := parseHeaders_line excludeHeaderName (excludeValue excludes) [] fuel
      [(grantsHeaderName, grantsValue grants)] (by decide) (by decide) separated.excludeValue.1
      separated.excludeValue.2
    rw [List.append_nil] at second
    rw [receiveHeaders, enough, headerBlock, first, second, stop]
    rfl

/-- A value that is not empty is present. -/
theorem presentHeader_eq {headers : Headers} {name value : Bytes}
    (found : findHeader headers name = some value) :
    presentHeader headers name = if value = [] then none else some value := by
  by_cases none : value = [] <;> simp [presentHeader, found, Option.filter, none]

/-- The peer reads the sender's grants text back from a block that fits. -/
theorem parseGridGrantsHeader_block {grants : GrantMap} {excludes : Option ExcludeMap}
    (separated : Separated (some grants) excludes)
    (fits : (headerBlock grants excludes).length < headerCap) :
    parseGridGrantsHeader (receiveHeaders (headerBlock grants excludes)) =
      .done (if grants.entries = [] then none else some (object grants.body)) := by
  have found : findHeader (receiveHeaders (headerBlock grants excludes)) grantsHeaderName =
      some (grantsValue grants) := by
    rw [receive_block separated]
    simp [findHeader, sameName]
  have short : (grantsValue grants).length < 2048 := by
    simp only [headerBlock, headerLine, headerCap, List.length_append] at fits
    omega
  have cut : tokens (grantsValue grants) = grants.entries.map grantToken := by
    refine tokens_intercalate ?_ ?_
    · intro item member
      obtain ⟨entry, inside, rfl⟩ := List.mem_map.mp member
      have key := separated.grantKey grants rfl entry inside
      have val := separated.grantVal grants rfl entry inside
      simpa [grantToken] using ⟨key.2.1, val.1⟩
    · intro item member
      obtain ⟨entry, inside, rfl⟩ := List.mem_map.mp member
      simp [grantToken]
  have members : (grants.entries.map grantToken).filterMap grantMember =
      grants.entries.map grantItem := by
    rw [List.filterMap_map, ← List.filterMap_eq_map]
    refine List.filterMap_congr fun entry inside => ?_
    have key := separated.grantKey grants rfl entry inside
    exact grantMember_token key.1 key.2.2.2
  have room : (object grants.body).length < (grantsValue grants).length * 3 + 16 := by
    have bound := grants_body_length grants
    simp only [object, List.length_cons, List.length_append, List.length_nil]
    omega
  rw [parseGridGrantsHeader, presentHeader_eq found]
  by_cases none : grants.entries = []
  · simp [grantsValue, none]
  · have nonempty : grantsValue grants ≠ [] := by
      cases entries : grants.entries with
      | nil => exact absurd entries none
      | cons entry rest => simp [grantsValue, entries, intercalate_items, grantToken]
    simp only [nonempty, none, ↓reduceIte, snprintf_fits short, cut, members]
    change (fitted _ (object grants.body)).bind _ = _
    rw [fitted, if_pos room]
    rfl

/-- The exclude text a peer reads: an empty map has no value and is read as an absent header, and
the text may be longer than the peer's own buffer. -/
def excludeRead : Option ExcludeMap → Outcome (Option Bytes)
  | none => .done none
  | some map =>
    if map.keys = [] then .done none
    else (fitted ((excludeValue map).length * 3 + 16) (object map.body)).bind fun json =>
      .done (some json)

/-- The peer reads the sender's exclude map from a block that fits. -/
theorem parseGridExcludeHeader_block {grants : GrantMap} {excludes : Option ExcludeMap}
    (separated : Separated (some grants) excludes)
    (fits : (headerBlock grants excludes).length < headerCap) :
    parseGridExcludeHeader (receiveHeaders (headerBlock grants excludes)) =
      excludeRead excludes := by
  cases excludes with
  | none =>
    have absent : findHeader (receiveHeaders (headerBlock grants none)) excludeHeaderName = none := by
      rw [receive_block separated]
      have other : sameName grantsHeaderName excludeHeaderName = false := by decide
      simp [findHeader, other]
    simp [parseGridExcludeHeader, presentHeader, absent, excludeRead]
  | some map =>
    have found : findHeader (receiveHeaders (headerBlock grants (some map))) excludeHeaderName =
        some (excludeValue map) := by
      rw [receive_block separated]
      have other : sameName grantsHeaderName excludeHeaderName = false := by decide
      have same : sameName excludeHeaderName excludeHeaderName = true := by decide
      simp [findHeader, other, same]
    have short : (excludeValue map).length < 2048 := by
      simp only [headerBlock, headerLine, headerCap, List.length_append] at fits
      omega
    have key := separated.excludeKey map rfl
    have cut : tokens (excludeValue map) = map.keys :=
      tokens_intercalate (fun item member => (key item member).2.1)
        (fun item member => (key item member).1)
    have members : map.keys.map (fun token => excludeItem (token.dropWhile (· == space))) =
        map.keys.map excludeItem := by
      refine List.map_congr_left fun token member => ?_
      have start := (key token member).2.2.2
      cases token with
      | nil => rfl
      | cons c token => simp_all
    rw [parseGridExcludeHeader, presentHeader_eq found, excludeRead]
    by_cases none : map.keys = []
    · simp [excludeValue, none]
    · have nonempty : excludeValue map ≠ [] := by
        cases keys : map.keys with
        | nil => exact absurd keys none
        | cons head rest =>
          have start := (key head (by simp [keys])).1
          simp [excludeValue, keys, intercalate_items, start]
      simp only [nonempty, none, ↓reduceIte, snprintf_fits short, cut, members]
      rfl

/-- An exclude map without keys decides like none. -/
theorem authCheck_empty_exclude (grants : GrantMap) (excludes : ExcludeMap)
    (empty : excludes.keys = []) (group : Bytes) (op : UInt8) :
    authCheck (some (object grants.body)) (some (object excludes.body)) (some group) op =
      authCheck (some (object grants.body)) none (some group) op := by
  have withMap := authCheck_iff (.bare grants) (.bare excludes) group op
  have without := authCheck_iff (.bare grants) .null group op
  simp only [excludedKeys, empty] at withMap without
  exact Bool.eq_iff_iff.mpr (withMap.trans without.symm)

/-- The peer's decision on a separated block that fits. -/
theorem forwardedDecision_fits {grants : GrantMap} {excludes : Option ExcludeMap}
    (separated : Separated (some grants) excludes)
    (fits : (headerBlock grants excludes).length < headerCap) (group : Bytes) (op : UInt8) :
    forwardedDecision (claimsOf (some grants) excludes) group op =
      if grants.entries = [] then .done true
      else (excludeRead excludes).bind fun exclude =>
        .done (authCheck (some (object grants.body)) exclude (some group) op) := by
  have built : buildGridGrantHeaders (claimsOf (some grants) excludes) =
      .done (some (headerBlock grants excludes)) := by
    rw [build_block, fitted, if_pos fits]
    rfl
  simp only [forwardedDecision, built, Outcome.bind, checkGridAuth,
    parseGridGrantsHeader_block separated fits, parseGridExcludeHeader_block separated fits]
  by_cases none : grants.entries = [] <;> simp [none]

/-- A block that does not fit leaves no decision. -/
theorem forwardedDecision_overrun {grants : GrantMap} {excludes : Option ExcludeMap}
    (long : headerCap ≤ (headerBlock grants excludes).length) (group : Bytes) (op : UInt8) :
    forwardedDecision (claimsOf (some grants) excludes) group op = .overrun := by
  have refused : ¬ (headerBlock grants excludes).length < headerCap := by omega
  rw [forwardedDecision, build_block, fitted, if_neg refused]
  rfl

/-- Without a grant the sender denies everything. -/
theorem authCheck_no_grants {grants : GrantMap} (none : grants.entries = [])
    (exclude : ExcludeArg) (group : Bytes) (op : UInt8) :
    authCheck (some (object grants.body)) exclude.text (some group) op = false := by
  rw [Bool.eq_false_iff]
  intro allowed
  obtain ⟨_, val, kept, _⟩ := (authCheck_iff (.bare grants) exclude group op).mp allowed
  simp [GrantsArg.grants, none, feed] at kept

/-- The exclude argument that these claims hand to the sender's own check. -/
def excludeArg : Option ExcludeMap → ExcludeArg
  | none => .null
  | some map => .bare map

/-- Its text is the text of the claims. -/
theorem excludeArg_text (grants : Option GrantMap) (excludes : Option ExcludeMap) :
    (claimsOf grants excludes).excludeJson = (excludeArg excludes).text := by
  cases excludes <;> rfl

/-- A separated block that fits decides alike when there is a grant and the peer's buffer holds
the exclude text. -/
theorem decidesAlike_fits {grants : GrantMap} {excludes : Option ExcludeMap}
    (separated : Separated (some grants) excludes)
    (fits : (headerBlock grants excludes).length < headerCap) :
    DecidesAlike (some grants) excludes ↔ Room (some grants) excludes := by
  have decision := forwardedDecision_fits separated fits
  by_cases none : grants.entries = []
  · -- The peer takes the missing value for open access, the sender denies.
    refine iff_of_false (fun alike => ?_) (fun ⟨_, same, entry, _⟩ => ?_)
    · have decided := alike [] 0
      rw [decision, if_pos none, Outcome.done.injEq, excludeArg_text] at decided
      exact absurd (decided.trans (authCheck_no_grants none _ _ _)) (by decide)
    · cases same
      exact entry none
  · constructor
    · refine fun alike => ⟨grants, rfl, none, fits, fun map same => ?_⟩
      cases same
      by_contra crowded
      simp only [not_or] at crowded
      have decided := alike [] 0
      rw [decision, if_neg none] at decided
      simp only [excludeRead, if_neg crowded.2, fitted, if_neg crowded.1, Outcome.bind] at decided
      cases decided
    · rintro ⟨_, same, _, _, room⟩ group op
      cases same
      rw [decision, if_neg none]
      cases excludes with
      | none => rfl
      | some map =>
        by_cases empty : map.keys = []
        · simp only [excludeRead, empty, ↓reduceIte, Outcome.bind, claimsOf, Option.map_some,
            authCheck_empty_exclude grants map empty]
        · have space := (room map rfl).resolve_right empty
          simp only [excludeRead, empty, ↓reduceIte, fitted, if_pos space, Outcome.bind, claimsOf,
            Option.map_some]

/-- Forwarded claims decide alike, for names that keep clear of the separators, exactly when there
is a grant and both buffers have room; a header block that does not fit never decides alike. -/
theorem forwarded_decidesAlike_iff (grants : Option GrantMap) (excludes : Option ExcludeMap) :
    (Separated grants excludes → (DecidesAlike grants excludes ↔ Room grants excludes)) ∧
      (∀ map ∈ grants, headerCap ≤ (headerBlock map excludes).length →
        ¬ DecidesAlike grants excludes) := by
  have overrun : ∀ map ∈ grants, headerCap ≤ (headerBlock map excludes).length →
      ¬ DecidesAlike grants excludes := by
    rintro map rfl long alike
    have decided := alike [] 0
    rw [forwardedDecision_overrun long] at decided
    cases decided
  refine ⟨fun separated => ?_, overrun⟩
  cases grants with
  | none =>
    refine iff_of_false (fun alike => ?_) (fun ⟨_, absent, _⟩ => by cases absent)
    have decided := alike [] 0
    simp [forwardedDecision, buildGridGrantHeaders, claimsOf, Outcome.bind, checkGridAuth,
      parseGridGrantsHeader, presentHeader, findHeader, authCheck] at decided
  | some grants =>
    by_cases fits : (headerBlock grants excludes).length < headerCap
    · exact decidesAlike_fits separated fits
    · refine iff_of_false (overrun grants rfl (Nat.le_of_not_lt fits)) ?_
      rintro ⟨_, same, _, room, _⟩
      cases same
      exact fits room

/-- A token without any grant is denied at the sender and open at the peer. -/
theorem empty_grants_open :
    ¬ DecidesAlike (some ⟨[], by decide, by decide⟩) none := by
  intro alike
  have decided := alike (ascii "org.acme") 0x72
  exact absurd decided (by decide)

/-- A grants map and an exclude map of plain group names. -/
def plainGrants : GrantMap where
  entries := [(ascii "com.acme", ascii "crwd"), (ascii "org.other", ascii "r")]
  plain := by decide
  distinct := by decide

/-- One excluded group below a granted one. -/
def plainExcludes : ExcludeMap where
  keys := [ascii "com.acme.secret"]
  plain := by decide
  distinct := by decide

/-- Plain names are forwarded faithfully, so the excluded group stays denied at the peer. -/
theorem forwarded_decidesAlike_plain :
    forwardedDecision (claimsOf (some plainGrants) (some plainExcludes))
      (ascii "com.acme.secret") 0x72 = .done false := by
  have separated : Separated (some plainGrants) (some plainExcludes) :=
    ⟨by decide, by decide, by decide⟩
  have room : Room (some plainGrants) (some plainExcludes) :=
    ⟨plainGrants, rfl, by decide, by decide, by decide⟩
  have alike := ((forwarded_decidesAlike_iff (some plainGrants) (some plainExcludes)).1
    separated).mpr room
  rw [alike (ascii "com.acme.secret") 0x72]
  decide

end Cookbook.Grid
