import Cookbook.Auth.PolicyToken

/-!
# The terms of a verified token

The members of a payload are found by substring search. A search passes the entries of a policy, so
that the times behind them are found, unless an entry is named like the member. From there the
claims of a verified token are computed, and the terms of a policy are shown to survive exactly
under the conditions that `TermsSurvive` lists.
-/
namespace Cookbook.Auth

open Library.Text Policy

/-! ## Searches for members -/

section Passing

variable {key tail : Bytes}

/-- A member name of small letters. -/
def Letters (key : Bytes) : Prop := key ≠ [] ∧ ∀ c ∈ key, 0x61 ≤ c ∧ c ≤ 0x7A

instance (key : Bytes) : Decidable (Letters key) :=
  @instDecidableAnd _ _ _ (List.decidableBAll (fun c => 0x61 ≤ c ∧ c ≤ 0x7A) key)

/-- The entry does not look like the member: it has another name, or the member is an object. -/
def Unlike (key tail name : Bytes) : Prop := name ≠ key ∨ tail = [openBrace]

/-- The search pattern as a delimited field. -/
theorem member_eq (key tail : Bytes) :
    memberName key ++ tail = quote :: (key ++ quote :: (colon :: tail)) := by
  simp [memberName]

/-- A letter is none of the characters between the fields. -/
theorem Letters.quoteFree (letters : Letters key) : quote ∉ key := fun member =>
  absurd (letters.2 _ member) (by decide)

/-- Behind a closing quote the search goes on at the next character. -/
theorem pass_closing (letters : Letters key) {c : UInt8} {after : Bytes}
    (between : c = colon ∨ c = comma ∨ c = closeBrace) :
    strstr (memberName key ++ tail) (quote :: c :: after) =
      strstr (memberName key ++ tail) after := by
  obtain ⟨nonempty, letter⟩ := letters
  obtain ⟨first, rest, rfl⟩ := List.exists_cons_of_ne_nil nonempty
  have small := letter first (by simp)
  have foreign : c ≠ first ∧ quote ≠ c := by
    rcases between with rfl | rfl | rfl <;> exact ⟨by rintro rfl; revert small; decide, by decide⟩
  rw [member_eq, List.cons_append, strstr_closing foreign.1]
  exact strstr_run _ [c] _ (by simpa using foreign.2)

/-- The search passes a member with a text value. -/
theorem pass_grantItem (key tail : Bytes) (letters : Letters key) {name val : Bytes}
    (after : Bytes) {c : UInt8} (unlike : Unlike key tail name) (nameFree : quote ∉ name)
    (valFree : quote ∉ val) (between : c = comma ∨ c = closeBrace) :
    strstr (memberName key ++ tail) (grantItem (name, val) ++ c :: after) =
      strstr (memberName key ++ tail) after := by
  have shape : grantItem (name, val) ++ c :: after =
      quote :: (name ++ quote :: (colon :: quote :: (val ++ quote :: (c :: after)))) := by
    simp [grantItem]
  have named : ¬ (name = key ∧ colon :: tail <+: colon :: quote :: (val ++ quote :: c :: after)) := by
    rintro ⟨same, starts⟩
    rcases unlike with other | rfl
    · exact other same
    · simp at starts
  have valued : ¬ (val = key ∧ colon :: tail <+: c :: after) := by
    rintro ⟨-, starts⟩
    have first := (List.cons_prefix_cons.mp starts).1
    rcases between with rfl | rfl <;> exact absurd first (by decide)
  rw [shape, member_eq, strstr_field letters.quoteFree nameFree named, ← member_eq,
    pass_closing letters (Or.inl rfl), member_eq, strstr_field letters.quoteFree valFree valued,
    ← member_eq, pass_closing letters (Or.inr between)]

/-- The search passes an excluded name. -/
theorem pass_excludeItem (key tail : Bytes) (letters : Letters key) {name : Bytes} (after : Bytes)
    {c : UInt8} (unlike : Unlike key tail name) (nameFree : quote ∉ name)
    (between : c = comma ∨ c = closeBrace) :
    strstr (memberName key ++ tail) (excludeItem name ++ c :: after) =
      strstr (memberName key ++ tail) after := by
  have shape : excludeItem name ++ c :: after =
      quote :: (name ++ quote :: (colon :: (ascii "true" ++ c :: after))) := by
    simp [excludeItem]
  have named : ¬ (name = key ∧ colon :: tail <+: colon :: (ascii "true" ++ c :: after)) := by
    rintro ⟨same, starts⟩
    rcases unlike with other | rfl
    · exact other same
    · simp [ascii] at starts
  have passed : quote ∉ ascii "true" ++ [c] := by
    rcases between with rfl | rfl <;> decide
  rw [shape, member_eq, strstr_field letters.quoteFree nameFree named, ← member_eq,
    pass_closing letters (Or.inl rfl), member_eq,
    show ascii "true" ++ c :: after = (ascii "true" ++ [c]) ++ after by simp, strstr_run _ _ _
      passed]

/-- The search passes a list of entries that it passes one by one. -/
theorem pass_entries {items : List Bytes} {after : Bytes}
    (each : ∀ item ∈ items, ∀ c : UInt8, c = comma ∨ c = closeBrace → ∀ rest,
      strstr (memberName key ++ tail) (item ++ c :: rest) = strstr (memberName key ++ tail) rest) :
    strstr (memberName key ++ tail) ([comma].intercalate items ++ closeBrace :: after) =
      strstr (memberName key ++ tail) after := by
  induction items with
  | nil => exact strstr_run _ [closeBrace] _ (by decide)
  | cons item items ih =>
    have rest := ih fun next member => each next (List.mem_cons_of_mem _ member)
    cases items with
    | nil => simpa using each item (by simp) closeBrace (Or.inr rfl) after
    | cons next items =>
      rw [List.intercalate_cons_cons, List.append_assoc, List.append_assoc,
        List.singleton_append, each item (by simp) comma (Or.inl rfl)]
      exact rest

/-- Subject and groups as a payload starts with them. -/
def identity (sub groups : Bytes) : Bytes :=
  openBrace :: (jsonWriteString (ascii "sub") sub true ++
    if groups = [] then [] else jsonWriteString (ascii "groups") groups false)

/-- The identity members are subject, groups and identifier. -/
theorem front_eq (sub groups jti : Bytes) : front sub groups jti =
    identity sub groups ++ comma :: grantItem (ascii "jti", jti) := by
  simp [front, identity, jsonWriteString, memberName, grantItem]

variable {sub groups jti : Bytes}

/-- The search passes identity members that do not hold the pattern. -/
theorem pass_front (key tail : Bytes) (letters : Letters key)
    (foreign : comma ∉ memberName key ++ tail)
    (clear : ¬ memberName key ++ tail <:+: identity sub groups)
    (unlike : Unlike key tail (ascii "jti")) (jtiFree : quote ∉ jti) (after : Bytes) :
    strstr (memberName key ++ tail) (front sub groups jti ++ comma :: after) =
      strstr (memberName key ++ tail) after := by
  rw [front_eq, List.append_assoc, List.cons_append,
    strstr_clear (by simp [memberName]) clear foreign]
  exact pass_grantItem _ _ letters _ unlike (by decide) jtiFree (Or.inl rfl)

end Passing

/-! ## What the searches find -/

/-- Subject and groups hold none of the member texts that the reader searches for. -/
structure IdentityClear (sub groups : Bytes) : Prop where
  /-- No version. -/
  version : ¬ memberName (ascii "v") <:+: identity sub groups
  /-- No expiry. -/
  exp : ¬ memberName (ascii "exp") <:+: identity sub groups
  /-- No grants object. -/
  grants : ¬ grantsMarker <:+: identity sub groups
  /-- No exclude object. -/
  exclude : ¬ excludeMarker <:+: identity sub groups

/-- What the writer guarantees about the texts in a payload. -/
structure Readable (sub groups jti : Bytes) (policy : ResolvedPolicy) : Prop where
  /-- Subject and groups hold none of the member texts. -/
  clear : IdentityClear sub groups
  /-- The identifier closes no string. -/
  jtiFree : quote ∉ jti
  /-- The operation letters are plain. -/
  valuesPlain : ∀ entry ∈ policy.grants, Plain entry.2

section Finding

variable {sub groups jti : Bytes} {policy : ResolvedPolicy}

/-- The search passes the grants of a policy. -/
theorem pass_grants (policy : ResolvedPolicy) (key tail : Bytes) (letters : Letters key)
    (readable : Readable sub groups jti policy)
    (unlike : ∀ entry ∈ policy.grants, Unlike key tail entry.1) (after : Bytes) :
    strstr (memberName key ++ tail) (policy.grantsBody ++ closeBrace :: after) =
      strstr (memberName key ++ tail) after := by
  refine pass_entries fun item member c between rest => ?_
  obtain ⟨⟨name, val⟩, inside, rfl⟩ := List.mem_map.mp member
  exact pass_grantItem _ _ letters _ (unlike _ inside) (policy.grantsPlain _ inside).quoteFree
    (readable.valuesPlain _ inside).quoteFree between

/-- The search passes the exclusions of a policy. -/
theorem pass_excludes (policy : ResolvedPolicy) (key tail : Bytes) (letters : Letters key)
    (unlike : ∀ name ∈ policy.excludes, Unlike key tail name) (after : Bytes) :
    strstr (memberName key ++ tail) (policy.excludesBody ++ closeBrace :: after) =
      strstr (memberName key ++ tail) after := by
  refine pass_entries fun item member c between rest => ?_
  obtain ⟨name, inside, rfl⟩ := List.mem_map.mp member
  exact pass_excludeItem _ _ letters _ (unlike _ inside)
    (policy.excludesPlain _ inside).quoteFree between

/-- The version is found behind the identity members. -/
theorem find_version (readable : Readable sub groups jti policy) (after : Bytes) :
    jsonGetInt (head sub groups jti ++ after) (ascii "v") = some 2 := by
  have passed := pass_front (ascii "v") [] (by decide) (by decide)
    (by simpa using readable.clear.version) (Or.inl (by decide)) readable.jtiFree
    (ascii "\"v\":2" ++ comma :: after)
  rw [List.append_nil] at passed
  have split : ascii "\"v\":2" ++ comma :: after =
      memberName (ascii "v") ++ (decimal 2 ++ comma :: after) := by
    simp [memberName, ascii, decimal, decimalNat, prependDigits, digitChar]
  have shape : head sub groups jti ++ after =
      front sub groups jti ++ comma :: (ascii "\"v\":2" ++ comma :: after) := by simp [head]
  rw [jsonGetInt, shape, passed, split, strstr_prefix, Option.map_some, List.drop_left,
    strtoll_decimal 2 _ (by decide) (by decide) (by simp [isDecimal])]

/-- Behind the head the search for another member goes on in the policy. -/
theorem pass_head (sub groups : Bytes) (key tail : Bytes) (letters : Letters key)
    (foreign : comma ∉ memberName key ++ tail)
    (clear : ¬ memberName key ++ tail <:+: identity sub groups)
    (unlike : Unlike key tail (ascii "jti")) (jtiFree : quote ∉ jti) (after : Bytes)
    (other : strstr (memberName key ++ tail) (ascii "\"v\":2" ++ comma :: after) =
      strstr (memberName key ++ tail) after) :
    strstr (memberName key ++ tail) (head sub groups jti ++ after) =
      strstr (memberName key ++ tail) after := by
  have shape : head sub groups jti ++ after =
      front sub groups jti ++ comma :: (ascii "\"v\":2" ++ comma :: after) := by simp [head]
  rw [shape, pass_front _ _ letters foreign clear unlike jtiFree, other]

/-- A text of an object that holds no brace ends at the first closing one. -/
theorem closeObject_body {body after : Bytes} (opens : openBrace ∉ body)
    (closes : closeBrace ∉ body) :
    closeObject 0 (openBrace :: (body ++ closeBrace :: after)) = object body := by
  have inside (body : Bytes) (opens : openBrace ∉ body) (closes : closeBrace ∉ body) :
      closeObject 1 (body ++ closeBrace :: after) = body ++ [closeBrace] := by
    induction body with
    | nil => simp [closeObject]
    | cons c body ih =>
      simp only [List.mem_cons, not_or] at opens closes
      simp [closeObject, Ne.symm opens.1, Ne.symm closes.1, ih opens.2 closes.2]
  simp [closeObject, object, inside body opens closes]

/-- The grants of a policy hold no brace. -/
theorem grantsBody_free (readable : Readable sub groups jti policy) :
    openBrace ∉ policy.grantsBody ∧ closeBrace ∉ policy.grantsBody := by
  constructor <;> refine intercalate_free (by decide) fun item member => ?_
  all_goals
    obtain ⟨entry, inside, rfl⟩ := List.mem_map.mp member
    have name := policy.grantsPlain entry inside
    have val := readable.valuesPlain entry inside
    simp [grantItem, name.openFree, name.closeFree, val.openFree, val.closeFree]

/-- The exclusions of a policy hold no brace. -/
theorem excludesBody_free (policy : ResolvedPolicy) :
    openBrace ∉ policy.excludesBody ∧ closeBrace ∉ policy.excludesBody := by
  constructor <;> refine intercalate_free (by decide) fun item member => ?_
  all_goals
    obtain ⟨name, inside, rfl⟩ := List.mem_map.mp member
    have plain := policy.excludesPlain name inside
    simp [excludeItem, plain.openFree, plain.closeFree, ascii]

/-- The grants object is found whole. -/
theorem find_grants (readable : Readable sub groups jti policy) (after : Bytes) :
    jsonExtractObject (head sub groups jti ++ (grantsMarker ++
      (policy.grantsBody ++ closeBrace :: after))) (ascii "grants") =
        some (object policy.grantsBody) := by
  have marker : grantsMarker = memberName (ascii "grants") ++ [openBrace] := by decide
  have passed := pass_head sub groups (ascii "grants") [openBrace] (by decide) (by decide)
    (by rw [← marker]; exact readable.clear.grants) (Or.inl (by decide)) readable.jtiFree
    (grantsMarker ++ (policy.grantsBody ++ closeBrace :: after)) rfl
  obtain ⟨opens, closes⟩ := grantsBody_free readable
  rw [jsonExtractObject, passed, marker, strstr_prefix, Option.map_some, List.append_assoc,
    List.drop_left, List.singleton_append, closeObject_body opens closes]

/-- The search for another member passes the grants object. -/
theorem pass_grantsObject (key tail : Bytes) (letters : Letters key)
    (readable : Readable sub groups jti policy)
    (unlike : ∀ entry ∈ policy.grants, Unlike key tail entry.1) (after : Bytes)
    (other : ∀ rest, strstr (memberName key ++ tail) (grantsMarker ++ rest) =
      strstr (memberName key ++ tail) rest) :
    strstr (memberName key ++ tail) (grantsMarker ++ (policy.grantsBody ++ closeBrace :: after)) =
      strstr (memberName key ++ tail) after := by
  rw [other, pass_grants _ _ _ letters readable unlike]

/-- The exclude object is found whole. -/
theorem find_exclude (readable : Readable sub groups jti policy) (after : Bytes) :
    jsonExtractObject (head sub groups jti ++ (policy.members ++ after)) (ascii "exclude") =
      some (object policy.excludesBody) := by
  have marker : excludeMarker = memberName (ascii "exclude") ++ [openBrace] := by decide
  have passed := pass_head sub groups (ascii "exclude") [openBrace] (by decide) (by decide)
    (by rw [← marker]; exact readable.clear.exclude) (Or.inl (by decide)) readable.jtiFree
    (policy.members ++ after) rfl
  have behind := pass_grantsObject (ascii "exclude") [openBrace] (by decide) readable
    (fun _ _ => Or.inr rfl)
    (comma :: (excludeMarker ++ (policy.excludesBody ++ closeBrace :: after))) (fun _ => rfl)
  have shape : policy.members ++ after = grantsMarker ++ (policy.grantsBody ++ closeBrace ::
      comma :: (excludeMarker ++ (policy.excludesBody ++ closeBrace :: after))) := by
    simp [ResolvedPolicy.members]
  have comma_pass : strstr (memberName (ascii "exclude") ++ [openBrace])
      (comma :: (excludeMarker ++ (policy.excludesBody ++ closeBrace :: after))) =
        some (excludeMarker ++ (policy.excludesBody ++ closeBrace :: after)) := by
    rw [marker]
    exact strstr_prefix (memberName (ascii "exclude") ++ [openBrace]) _
  obtain ⟨opens, closes⟩ := excludesBody_free policy
  rw [jsonExtractObject, passed, shape, behind, comma_pass, Option.map_some, marker,
    List.append_assoc, List.drop_left, List.singleton_append, closeObject_body opens closes]

/-- No name of the policy is taken for the expiry. -/
structure ExpiryUnnamed (policy : ResolvedPolicy) : Prop where
  /-- No granted prefix is. -/
  grants : ∀ entry ∈ policy.grants, entry.1 ≠ ascii "exp"
  /-- No excluded prefix is. -/
  excludes : ascii "exp" ∉ policy.excludes

/-- The search for the expiry passes the members of a policy that does not name it. -/
theorem pass_members (readable : Readable sub groups jti policy)
    (unnamed : ExpiryUnnamed policy) (after : Bytes) :
    strstr (memberName (ascii "exp")) (policy.members ++ after) =
      strstr (memberName (ascii "exp")) after := by
  have behind := pass_grantsObject (ascii "exp") [] (by decide) readable
    (fun entry member => Or.inl (unnamed.grants entry member))
    (comma :: (excludeMarker ++ (policy.excludesBody ++ closeBrace :: after))) (fun _ => rfl)
  have last := pass_excludes policy (ascii "exp") [] (by decide)
    (fun name member => Or.inl fun same => unnamed.excludes (same ▸ member)) after
  have shape : policy.members ++ after = grantsMarker ++ (policy.grantsBody ++ closeBrace ::
      comma :: (excludeMarker ++ (policy.excludesBody ++ closeBrace :: after))) := by
    simp [ResolvedPolicy.members]
  rw [List.append_nil] at behind last
  rw [shape, behind]
  exact last

/-- Behind the time of issue the search finds the expiry. -/
theorem pass_times {now : Int} (nowLow : 0 ≤ now) (text : Bytes) :
    strstr (memberName (ascii "exp")) (timesBefore now text) =
      some (memberName (ascii "exp") ++ text) := by
  have digits : quote ∉ decimal now ++ [comma] := by
    obtain ⟨number, rfl⟩ := Int.eq_ofNat_of_zero_le nowLow
    have all := (decimalNat_spec number).2.1
    simp only [List.mem_append, List.mem_singleton, not_or]
    exact ⟨fun member => absurd (all _ member).1 (by decide), by decide⟩
  have passed : strstr (memberName (ascii "exp")) (timesBefore now text) =
      strstr (memberName (ascii "exp")) (decimal now ++ comma :: (ascii "\"exp\":" ++ text)) := rfl
  have name : memberName (ascii "exp") = quote :: (ascii "exp\":") := by decide
  rw [passed, ← List.singleton_append, ← List.append_assoc, name, strstr_run _ _ _ digits]
  exact strstr_prefix (quote :: ascii "exp\":") _

/-- The search for the expiry passes the head. -/
theorem pass_head_exp (readable : Readable sub groups jti policy) (after : Bytes) :
    strstr (memberName (ascii "exp")) (head sub groups jti ++ after) =
      strstr (memberName (ascii "exp")) after := by
  have passed := pass_head sub groups (ascii "exp") [] (by decide) (by decide)
    (by simpa using readable.clear.exp) (Or.inl (by decide)) readable.jtiFree after rfl
  rwa [List.append_nil] at passed

/-- In a payload whose policy does not name the expiry, the expiry is found. -/
theorem find_exp {now : Int} (readable : Readable sub groups jti policy)
    (unnamed : ExpiryUnnamed policy) (nowLow : 0 ≤ now) (text : Bytes) :
    strstr (memberName (ascii "exp"))
      (head sub groups jti ++ (policy.members ++ timesBefore now text)) =
        some (memberName (ascii "exp") ++ text) := by
  rw [pass_head_exp readable, pass_members readable unnamed, pass_times nowLow]

/-! ## Names taken for the expiry -/

/-- A character that starts no number. -/
def NoNumber (c : UInt8) : Prop := c = quote ∨ c = 0x74

/-- The entry is named like the member, and its value is no number. -/
def Hits (key item : Bytes) : Prop := ∃ c more, NoNumber c ∧ item = memberName key ++ c :: more

/-- In a list with such an entry the first one is found. -/
theorem hit_entries {key : Bytes} {items : List Bytes} {after : Bytes}
    (each : ∀ item ∈ items, Hits key item ∨ ∀ c : UInt8, c = comma ∨ c = closeBrace → ∀ rest,
      strstr (memberName key) (item ++ c :: rest) = strstr (memberName key) rest)
    (hit : ∃ item ∈ items, Hits key item) :
    ∃ c more, NoNumber c ∧ strstr (memberName key)
      ([comma].intercalate items ++ closeBrace :: after) = some (memberName key ++ c :: more) := by
  induction items with
  | nil => simp at hit
  | cons item items ih =>
    by_cases first : Hits key item
    · obtain ⟨c, more, other, rfl⟩ := first
      refine ⟨c, more ++ (items.flatMap (comma :: ·) ++ closeBrace :: after), other, ?_⟩
      rw [intercalate_items, List.append_assoc, List.append_assoc, List.cons_append]
      exact strstr_prefix _ _
    · obtain ⟨found, member, hits⟩ := hit
      have later : found ∈ items := by
        rcases List.mem_cons.mp member with rfl | later
        · exact absurd hits first
        · exact later
      obtain ⟨c, more, other, search⟩ :=
        ih (fun item member => each item (List.mem_cons_of_mem _ member)) ⟨found, later, hits⟩
      have passes := (each item (by simp)).resolve_left first
      obtain ⟨next, rest, rfl⟩ := List.exists_cons_of_ne_nil (List.ne_nil_of_mem later)
      refine ⟨c, more, other, ?_⟩
      rw [List.intercalate_cons_cons, List.append_assoc, List.append_assoc,
        List.singleton_append, passes comma (Or.inl rfl), search]

/-- A policy that names the expiry has it found in one of its entries. -/
theorem find_named (readable : Readable sub groups jti policy) (named : ¬ ExpiryUnnamed policy)
    (after : Bytes) :
    ∃ c more, NoNumber c ∧ strstr (memberName (ascii "exp")) (policy.members ++ after) =
      some (memberName (ascii "exp") ++ c :: more) := by
  have shape : policy.members ++ after = grantsMarker ++ (policy.grantsBody ++ closeBrace ::
      comma :: (excludeMarker ++ (policy.excludesBody ++ closeBrace :: after))) := by
    simp [ResolvedPolicy.members]
  have start (rest : Bytes) : strstr (memberName (ascii "exp")) (grantsMarker ++ rest) =
      strstr (memberName (ascii "exp")) rest := rfl
  rw [shape, start]
  by_cases inGrants : ∃ entry ∈ policy.grants, entry.1 = ascii "exp"
  · refine hit_entries (fun item member => ?_) ?_
    · obtain ⟨⟨name, val⟩, inside, rfl⟩ := List.mem_map.mp member
      by_cases same : name = ascii "exp"
      · exact Or.inl ⟨quote, val ++ [quote], Or.inl rfl, by simp [grantItem, memberName, same]⟩
      · right
        intro c between rest
        have passed := pass_grantItem (ascii "exp") [] (by decide) rest (Or.inl same)
          (policy.grantsPlain _ inside).quoteFree (readable.valuesPlain _ inside).quoteFree
          between
        rwa [List.append_nil] at passed
    · obtain ⟨⟨name, val⟩, inside, same⟩ := inGrants
      exact ⟨_, List.mem_map_of_mem inside, quote, val ++ [quote], Or.inl rfl, by
        simpa [grantItem, memberName] using same⟩
  · push Not at inGrants
    have inExcludes : ascii "exp" ∈ policy.excludes := by
      by_contra absent
      exact named ⟨inGrants, absent⟩
    have passed := pass_grants policy (ascii "exp") [] (by decide) readable
      (fun entry member => Or.inl (inGrants entry member))
      (comma :: (excludeMarker ++ (policy.excludesBody ++ closeBrace :: after)))
    rw [List.append_nil] at passed
    rw [passed]
    change ∃ c more, NoNumber c ∧ strstr (memberName (ascii "exp"))
      (policy.excludesBody ++ closeBrace :: after) = some (memberName (ascii "exp") ++ c :: more)
    refine hit_entries (fun item member => ?_) ?_
    · obtain ⟨name, inside, rfl⟩ := List.mem_map.mp member
      by_cases same : name = ascii "exp"
      · exact Or.inl ⟨0x74, ascii "rue", Or.inr rfl, by
          simp [excludeItem, memberName, same, ascii]⟩
      · right
        intro c between rest
        have passed := pass_excludeItem (ascii "exp") [] (by decide) rest (Or.inl same)
          (policy.excludesPlain _ inside).quoteFree between
        rwa [List.append_nil] at passed
    · exact ⟨_, List.mem_map_of_mem inExcludes, 0x74, ascii "rue", Or.inr rfl, by
        simp [excludeItem, memberName, ascii]⟩

/-- A text that starts no number is read as zero, however it is cut. -/
theorem strtoll_noNumber {c : UInt8} (other : NoNumber c) (more : Bytes) (size : Nat) :
    strtoll ((c :: more).take size) = 0 := by
  cases size with
  | zero => rfl
  | succ size =>
    rcases other with rfl | rfl <;>
      simp only [List.take_succ_cons, strtoll, isSpace, readSign, List.dropWhile_cons] <;> rfl

end Finding

end Cookbook.Auth
