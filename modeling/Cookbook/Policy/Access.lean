import Cookbook.Policy.Documents

/-!
# What a policy allows

The meaning of a grants map and an exclude map, stated without any text, and the proof that the
scanner computes it. The one departure is the empty grant key: the scanner marks "no specific
match yet" by the length zero, so the empty key never wins against the wildcard.
-/
namespace Cookbook.Policy

open Library.Text Library.PrefixMap

/-! ## Meaning -/

/-- The grants that name a prefix, without the wildcard. -/
def specific (entries : List (Bytes × Bytes)) : List (Bytes × Bytes) :=
  entries.filter fun entry => entry.1 ≠ [star]

/-- The longest specific grant that covers the group has the operation, or no specific grant
covers it and the wildcard has the operation. -/
def Granted (entries : List (Bytes × Bytes)) (group : Bytes) (op : UInt8) : Prop :=
  (∃ val, Longest dot (specific entries) group val ∧ op ∈ val) ∨
    ((∀ entry ∈ specific entries, ¬ Covers dot entry.1 group) ∧
      ∃ val, ([star], val) ∈ entries ∧ op ∈ val)

/-- Some excluded prefix covers the group. -/
def Excluded (keys : List Bytes) (group : Bytes) : Prop := ∃ key ∈ keys, Covers dot key group

/-- The access a policy gives: granted and not excluded. -/
def Allows (entries : List (Bytes × Bytes)) (keys : List Bytes) (group : Bytes) (op : UInt8) :
    Prop := ¬ Excluded keys group ∧ Granted entries group op

/-- Being granted is a search through the entries. -/
theorem granted_iff {entries : List (Bytes × Bytes)} {group : Bytes} {op : UInt8} :
    Granted entries group op ↔
      (∃ entry ∈ specific entries, op ∈ entry.2 ∧ Covers dot entry.1 group ∧
        ∀ other ∈ specific entries, Covers dot other.1 group →
          other.1.length ≤ entry.1.length) ∨
      ((∀ entry ∈ specific entries, ¬ Covers dot entry.1 group) ∧
        ∃ entry ∈ entries, entry.1 = [star] ∧ op ∈ entry.2) := by
  refine or_congr ?_ (and_congr_right' ?_)
  · constructor
    · rintro ⟨val, ⟨key, member, covers, longest⟩, has⟩
      exact ⟨(key, val), member, has, covers, longest⟩
    · rintro ⟨⟨key, val⟩, member, has, covers, longest⟩
      exact ⟨val, ⟨key, member, covers, longest⟩, has⟩
  · constructor
    · rintro ⟨val, member, has⟩
      exact ⟨([star], val), member, rfl, has⟩
    · rintro ⟨⟨key, val⟩, member, wild, has⟩
      exact ⟨val, wild ▸ member, has⟩

instance (entries : List (Bytes × Bytes)) (group : Bytes) (op : UInt8) :
    Decidable (Granted entries group op) := decidable_of_iff _ granted_iff.symm

instance (keys : List Bytes) (group : Bytes) : Decidable (Excluded keys group) :=
  inferInstanceAs (Decidable (∃ key ∈ keys, Covers dot key group))

instance (entries : List (Bytes × Bytes)) (keys : List Bytes) (group : Bytes) (op : UInt8) :
    Decidable (Allows entries keys group op) :=
  inferInstanceAs (Decidable (¬ Excluded keys group ∧ Granted entries group op))

/-- Access depends on the two maps only as sets of entries. -/
theorem allows_congr {left right : List (Bytes × Bytes)} {leftKeys rightKeys : List Bytes}
    {group : Bytes} {op : UInt8} (entries : ∀ entry, entry ∈ left ↔ entry ∈ right)
    (keys : ∀ key, key ∈ leftKeys ↔ key ∈ rightKeys) :
    Allows left leftKeys group op ↔ Allows right rightKeys group op := by
  have specifics : ∀ entry, entry ∈ specific left ↔ entry ∈ specific right := by
    intro entry
    simp [specific, entries]
  simp only [Allows, Excluded, Granted, keys, entries, specifics, longest_congr specifics]

/-! ## The callbacks keep the best match -/

/-- The test of the callbacks is the covering relation. -/
theorem keyMatches_iff {key group : Bytes} :
    keyMatches key group = true ↔ Covers dot key group := by
  simp [keyMatches, covers_iff, and_assoc]

/-- What `grant_match_ctx` says about the entries walked so far. -/
structure BestSoFar (group : Bytes) (seen : List (Bytes × Bytes)) (ctx : GrantMatchCtx) :
    Prop where
  /-- No specific match is longer than the one kept. -/
  longest : ∀ entry ∈ seen, entry.1 ≠ [star] → Covers dot entry.1 group →
    entry.1.length ≤ ctx.bestPrefixLen
  /-- A positive length belongs to a walked match, whose value is kept. -/
  found : 0 < ctx.bestPrefixLen → ∃ key val, (key, val) ∈ seen ∧ key ≠ [star] ∧
    Covers dot key group ∧ key.length = ctx.bestPrefixLen ∧ ctx.bestVal = some val
  /-- At length zero only the wildcard's value can be kept. -/
  wildcard : ctx.bestPrefixLen = 0 → ∀ val, ctx.bestVal = some val ↔ ([star], val) ∈ seen

/-- Nothing is kept before the walk. -/
theorem bestSoFar_initial (group : Bytes) : BestSoFar group [] ⟨none, 0⟩ where
  longest := by simp
  found := by simp
  wildcard := by simp

/-- An entry that is no better match leaves the context right as it is. -/
theorem BestSoFar.keep {group key val : Bytes} {seen : List (Bytes × Bytes)}
    {ctx : GrantMatchCtx} (best : BestSoFar group seen ctx)
    (noLonger : key ≠ [star] → Covers dot key group → key.length ≤ ctx.bestPrefixLen)
    (noGap : ctx.bestPrefixLen = 0 → key ≠ [star]) :
    BestSoFar group (seen ++ [(key, val)]) ctx where
  longest := by
    intro entry member specific covers
    rcases List.mem_append.mp member with old | new
    · exact best.longest entry old specific covers
    · obtain rfl : entry = (key, val) := by simpa using new
      exact noLonger specific covers
  found := by
    intro positive
    obtain ⟨key, val, member, rest⟩ := best.found positive
    exact ⟨key, val, List.mem_append_left _ member, rest⟩
  wildcard := by
    intro zero other
    have differs := noGap zero
    simpa [Ne.symm differs] using best.wildcard zero other

/-- One callback keeps the best match of the entries walked, a new key included. -/
theorem grantMatchCb_bestSoFar {group key : Bytes} (val : Bytes) {seen : List (Bytes × Bytes)}
    {ctx : GrantMatchCtx} (best : BestSoFar group seen ctx) (fresh : key ∉ seen.map Prod.fst) :
    BestSoFar group (seen ++ [(key, val)]) (grantMatchCb group ctx key val).1 := by
  have absent : ∀ other, (key, other) ∉ seen := fun other member =>
    fresh (List.mem_map.mpr ⟨_, member, rfl⟩)
  by_cases wild : key = [star]
  · subst wild
    by_cases zero : ctx.bestPrefixLen = 0
    · -- The wildcard replaces the value and leaves the length at zero.
      simp only [grantMatchCb, ↓reduceIte, zero]
      refine ⟨?_, by simp, ?_⟩
      · intro entry member specific covers
        rcases List.mem_append.mp member with old | new
        · simpa [zero] using best.longest entry old specific covers
        · obtain rfl : entry = ([star], val) := by simpa using new
          exact absurd rfl specific
      · intro _ other
        simp [absent, eq_comm]
    · simp only [grantMatchCb, ↓reduceIte, zero]
      exact best.keep (fun specific => absurd rfl specific) (fun zero' => absurd zero' zero)
  · by_cases covers : Covers dot key group
    · by_cases longer : ctx.bestPrefixLen < key.length
      · -- A longer match replaces the kept one.
        simp only [grantMatchCb, wild, ↓reduceIte, keyMatches_iff.mpr covers, longer]
        refine ⟨?_, fun _ => ⟨key, val, by simp, wild, covers, rfl, rfl⟩, ?_⟩
        · intro entry member specific entryCovers
          rcases List.mem_append.mp member with old | new
          · exact Nat.le_of_lt
              (Nat.lt_of_le_of_lt (best.longest entry old specific entryCovers) longer)
          · obtain rfl : entry = (key, val) := by simpa using new
            exact Nat.le_refl _
        · intro zero
          simp only at zero
          omega
      · simp only [grantMatchCb, wild, ↓reduceIte, keyMatches_iff.mpr covers, longer]
        exact best.keep (fun _ _ => Nat.le_of_not_lt longer) (fun _ => wild)
    · have misses : keyMatches key group = false := by
        rw [Bool.eq_false_iff]
        exact fun hit => covers (keyMatches_iff.mp hit)
      simp only [grantMatchCb, wild, ↓reduceIte, misses, Bool.false_eq_true]
      exact best.keep (fun _ hit => absurd hit covers) (fun _ => wild)

/-- The grant callback never stops the walk. -/
theorem grantMatchCb_continues (group : Bytes) (ctx : GrantMatchCtx) (key val : Bytes) :
    (grantMatchCb group ctx key val).2 = false := by
  unfold grantMatchCb
  split <;> split <;> first | rfl | (split <;> rfl)

/-- A whole walk keeps the best match of every entry. -/
theorem feed_bestSoFar {group : Bytes} (entries seen : List (Bytes × Bytes)) {ctx : GrantMatchCtx}
    (best : BestSoFar group seen ctx) (distinct : ((seen ++ entries).map Prod.fst).Nodup) :
    BestSoFar group (seen ++ entries) (feed (grantMatchCb group) entries ctx) := by
  induction entries generalizing seen ctx with
  | nil => simpa [feed] using best
  | cons entry entries ih =>
    obtain ⟨key, val⟩ := entry
    have fresh : key ∉ seen.map Prod.fst := by
      simp only [List.map_append, List.map_cons, List.nodup_append] at distinct
      exact fun member => distinct.2.2 key member key (by simp) rfl
    have next := ih (seen ++ [(key, val)]) (grantMatchCb_bestSoFar val best fresh)
      (by simpa using distinct)
    simpa [feed, resume, grantMatchCb_continues] using next

/-- The exclude walk finds a covering key exactly when there is one. -/
theorem feed_excludeMatchCb {group : Bytes} (keys : List Bytes) (val : Bytes) :
    feed (excludeMatchCb group) (keys.map (·, val)) false = true ↔ Excluded keys group := by
  induction keys with
  | nil => simp [feed, Excluded]
  | cons key keys ih =>
    by_cases covers : Covers dot key group
    · simp [feed, resume, excludeMatchCb, keyMatches_iff.mpr covers, Excluded, covers]
    · have misses : keyMatches key group = false := by
        rw [Bool.eq_false_iff]
        exact fun hit => covers (keyMatches_iff.mp hit)
      simp only [List.map_cons, feed, resume, excludeMatchCb, misses, Bool.false_eq_true,
        ↓reduceIte, ih]
      simp [Excluded, covers]

/-! ## The arguments of a check -/

/-- The grants argument: a bare map, or the object that holds both maps. -/
inductive GrantsArg
  /-- A bare grants map. -/
  | bare (grants : GrantMap)
  /-- Both maps in one object. -/
  | wrapped (grants : GrantMap) (excludes : ExcludeMap)

/-- The exclude argument: null, a bare map, or the object that holds both maps. -/
inductive ExcludeArg
  /-- No exclude argument. -/
  | null
  /-- A bare exclude map. -/
  | bare (excludes : ExcludeMap)
  /-- Both maps in one object. -/
  | wrapped (grants : GrantMap) (excludes : ExcludeMap)

/-- The grants map of an argument. -/
def GrantsArg.grants : GrantsArg → GrantMap
  | .bare grants => grants
  | .wrapped grants _ => grants

/-- The text of a grants argument. -/
def GrantsArg.text : GrantsArg → Bytes
  | .bare grants => object grants.body
  | .wrapped grants excludes => Policy.wrapped grants excludes

/-- The text of an exclude argument. -/
def ExcludeArg.text : ExcludeArg → Option Bytes
  | .null => none
  | .bare excludes => some (object excludes.body)
  | .wrapped grants excludes => some (Policy.wrapped grants excludes)

/-- The excluded prefixes of both arguments: a separate exclude argument replaces the one beside
the grants. -/
def excludedKeys : GrantsArg → ExcludeArg → List Bytes
  | _, .bare excludes => excludes.keys
  | _, .wrapped _ excludes => excludes.keys
  | .wrapped _ excludes, .null => excludes.keys
  | .bare _, .null => []

/-- A marker's last character is the brace it opens. -/
theorem grantsMarker_eq : grantsMarker = ascii "\"grants\":" ++ [openBrace] := by decide

/-- A marker's last character is the brace it opens. -/
theorem excludeMarker_eq : excludeMarker = ascii "\"exclude\":" ++ [openBrace] := by decide

/-- A bare object holds no marker: its only opening brace is its first character. -/
theorem strstr_object {name body : Bytes} (named : name.head? = some quote)
    (free : openBrace ∉ body) : strstr (name ++ [openBrace]) (object body) = none := by
  have first : ¬ name ++ [openBrace] <+: object body := by
    rintro ⟨rest, whole⟩
    have heads := congrArg List.head? whole
    cases name with
    | nil => simp at named
    | cons c name =>
      simp only [List.head?_cons, Option.some.injEq] at named
      simp [object, named] at heads
  rw [object, strstr_skip first, strstr_none_iff]
  exact not_infix_of_last (by simpa using free)

/-- The grants marker of the object that holds both maps. -/
theorem strstr_grants_wrapped (grants : GrantMap) (excludes : ExcludeMap) :
    strstr grantsMarker (wrapped grants excludes) =
      some (grantsMarker ++ (grants.body ++ closeBrace :: comma ::
        (excludeMarker ++ excludes.body ++ [closeBrace, closeBrace]))) := by
  rw [wrapped, strstr_skip (by simp [grantsMarker, ascii]), List.append_assoc, strstr_prefix]

/-- The exclude marker of the object that holds both maps: a search through the whole text does
not stop inside the grants. -/
theorem strstr_exclude_wrapped (grants : GrantMap) (excludes : ExcludeMap) :
    strstr excludeMarker (wrapped grants excludes) =
      some (excludeMarker ++ (excludes.body ++ [closeBrace, closeBrace])) := by
  have inside := strstr_marker (grants.body ++ [closeBrace, comma]) (ascii "\"exclude\":")
    (excludes.body ++ [closeBrace, closeBrace]) openBrace (by simpa using grants.body_free.1)
    (by decide)
  rw [← excludeMarker_eq] at inside
  rw [← inside]
  -- The eleven characters in front of the grants body do not start the marker.
  simp [wrapped, grantsMarker, excludeMarker, ascii, strstr]

/-- The check reads the grants of its argument: the walk sees exactly their entries. -/
theorem grantsArg_walk (arg : GrantsArg) :
    ∃ before rest, grantsStart arg.text = before ++ arg.grants.body ++ closeBrace :: rest ∧
      quote ∉ before ∧ closeBrace ∉ before := by
  cases arg with
  | bare grants =>
    have absent : strstr grantsMarker (object grants.body) = none := by
      rw [grantsMarker_eq]
      exact strstr_object rfl grants.body_free.1
    refine ⟨[openBrace], [], ?_, by decide, by decide⟩
    simp only [grantsStart, GrantsArg.text, absent]
    simp [object, GrantsArg.grants]
  | wrapped grants excludes =>
    refine ⟨[], comma :: (excludeMarker ++ excludes.body ++ [closeBrace, closeBrace]), ?_,
      by simp, by simp⟩
    simp only [grantsStart, GrantsArg.text, strstr_grants_wrapped, List.drop_left,
      GrantsArg.grants, List.nil_append]

/-- The exclude decision of the check is exclusion by the effective exclude map. -/
theorem excludedBy_iff (arg : GrantsArg) (exclude : ExcludeArg) (group : Bytes) :
    excludedBy arg.text exclude.text group = true ↔ Excluded (excludedKeys arg exclude) group := by
  have onBody : ∀ (excludes : ExcludeMap) (rest : Bytes),
      (if closeBrace ∈ excludes.body ++ closeBrace :: rest then
        walkJsonMap (excludeMatchCb group)
          ((excludes.body ++ closeBrace :: rest).takeWhile (· != closeBrace)) false
      else false) = true ↔ Excluded excludes.keys group := by
    intro excludes rest
    rw [if_pos (by simp), takeWhile_ne_stop excludes.body_free.2, walk_excludes]
    exact feed_excludeMatchCb _ _
  cases exclude with
  | null =>
    cases arg with
    | bare grants =>
      have absent : strstr excludeMarker (object grants.body) = none := by
        rw [excludeMarker_eq]
        exact strstr_object rfl grants.body_free.1
      simp [excludedBy, excludeStart, ExcludeArg.text, GrantsArg.text, absent, excludedKeys,
        Excluded]
    | wrapped grants excludes =>
      simp only [excludedBy, excludeStart, ExcludeArg.text, GrantsArg.text, Option.getD_none,
        strstr_exclude_wrapped, List.drop_left, excludedKeys]
      exact onBody excludes [closeBrace]
  | bare excludes =>
    have absent : strstr excludeMarker (object excludes.body) = none := by
      rw [excludeMarker_eq]
      exact strstr_object rfl excludes.body_free.1
    have opens : strchr openBrace (object excludes.body) = some (object excludes.body) :=
      strchr_stop [] (by simp)
    simp only [excludedBy, excludeStart, ExcludeArg.text, Option.getD_some, absent, opens,
      Option.map_some, excludedKeys]
    exact onBody excludes []
  | wrapped grants excludes =>
    simp only [excludedBy, excludeStart, ExcludeArg.text, Option.getD_some,
      strstr_exclude_wrapped, List.drop_left, excludedKeys]
    exact onBody excludes [closeBrace]

/-- What the grants scan finds: the context it ends with is the best match of all entries. -/
theorem authCheck_iff (arg : GrantsArg) (exclude : ExcludeArg) (group : Bytes) (op : UInt8) :
    authCheck (some arg.text) exclude.text (some group) op = true ↔
      ¬ Excluded (excludedKeys arg exclude) group ∧
        ∃ val, (feed (grantMatchCb group) arg.grants.entries ⟨none, 0⟩).bestVal = some val ∧
          op ∈ val := by
  obtain ⟨before, rest, located, quoteFree, closeFree⟩ := grantsArg_walk arg
  have bodyFree : closeBrace ∉ before ++ arg.grants.body := by
    simpa using ⟨closeFree, arg.grants.body_free.2⟩
  simp only [authCheck, located]
  rw [if_pos (by simp), takeWhile_ne_stop bodyFree, walk_grants _ _ _ _ quoteFree]
  cases (feed (grantMatchCb group) arg.grants.entries ⟨none, 0⟩).bestVal with
  | none => simp
  | some val =>
    rw [← excludedBy_iff]
    by_cases member : op ∈ val <;> simp [member]

/-! ## The check against the meaning -/

/-- The empty grant key decides: it is the only specific key that covers the group, and its
operations differ from the wildcard's. -/
def EmptyKeyDecides (arg : GrantsArg) (exclude : ExcludeArg) (group : Bytes) (op : UInt8) : Prop :=
  group.head? = some dot ∧ ¬ Excluded (excludedKeys arg exclude) group ∧
    (∀ entry ∈ specific arg.grants.entries, entry.1 ≠ [] → ¬ Covers dot entry.1 group) ∧
    ∃ empty ∈ arg.grants.entries, empty.1 = [] ∧
      ¬ (op ∈ empty.2 ↔ ∃ wild ∈ arg.grants.entries, wild.1 = [star] ∧ op ∈ wild.2)

instance (arg : GrantsArg) (exclude : ExcludeArg) (group : Bytes) (op : UInt8) :
    Decidable (EmptyKeyDecides arg exclude group op) :=
  inferInstanceAs (Decidable (_ ∧ _ ∧ _ ∧ _))

/-- The best match of the scan against the meaning: they differ exactly where the empty key is
the longest cover. -/
theorem bestSoFar_granted {grants : GrantMap} {group : Bytes} {ctx : GrantMatchCtx} (op : UInt8)
    (nonempty : group ≠ []) (best : BestSoFar group grants.entries ctx) :
    ((∃ val, ctx.bestVal = some val ∧ op ∈ val) ↔ Granted grants.entries group op) ↔
      ¬ (group.head? = some dot ∧
        (∀ entry ∈ specific grants.entries, entry.1 ≠ [] → ¬ Covers dot entry.1 group) ∧
        ∃ empty ∈ grants.entries, empty.1 = [] ∧
          ¬ (op ∈ empty.2 ↔ ∃ wild ∈ grants.entries, wild.1 = [star] ∧ op ∈ wild.2)) := by
  have distinct : ((specific grants.entries).map Prod.fst).Nodup :=
    (grants.distinct).sublist (List.filter_sublist.map _)
  rcases Nat.eq_zero_or_pos ctx.bestPrefixLen with zero | positive
  · have scanned : (∃ val, ctx.bestVal = some val ∧ op ∈ val) ↔
        ∃ wild ∈ grants.entries, wild.1 = [star] ∧ op ∈ wild.2 := by
      simp only [best.wildcard zero]
      exact ⟨fun ⟨val, member, has⟩ => ⟨_, member, rfl, has⟩,
        fun ⟨⟨_, val⟩, member, wild, has⟩ => ⟨val, wild ▸ member, has⟩⟩
    have onlyEmpty : ∀ entry ∈ specific grants.entries, entry.1 ≠ [] →
        ¬ Covers dot entry.1 group := by
      intro entry member notEmpty covers
      have bound := best.longest entry (List.mem_of_mem_filter member)
        (by simpa [specific] using (List.mem_filter.mp member).2) covers
      exact notEmpty (List.eq_nil_of_length_eq_zero (by omega))
    by_cases empty : group.head? = some dot ∧ ∃ val, ([], val) ∈ grants.entries
    · -- The empty key covers the group and is the longest specific cover.
      obtain ⟨dotted, val, member⟩ := empty
      have covers : Covers dot [] group := by
        obtain ⟨rest, rfl⟩ := List.head?_eq_some_iff.mp dotted
        exact covers_nil_iff.mpr (Or.inr ⟨rest, rfl⟩)
      have inSpecific : (([], val) : Bytes × Bytes) ∈ specific grants.entries := by
        simp [specific, member]
      have longest : Longest dot (specific grants.entries) group val := by
        refine ⟨[], inSpecific, covers, fun entry inside hit => ?_⟩
        by_contra longer
        exact onlyEmpty entry inside (by intro nil; simp [nil] at longer) hit
      have granted : Granted grants.entries group op ↔ op ∈ val := by
        constructor
        · rintro (⟨other, otherLongest, has⟩ | ⟨none, _⟩)
          · rwa [longest_unique distinct longest otherLongest]
          · exact absurd covers (none _ inSpecific)
        · exact fun has => Or.inl ⟨val, longest, has⟩
      rw [scanned, granted]
      constructor
      · rintro same ⟨_, _, other, otherMember, nil, differs⟩
        obtain rfl : ([], val) = other :=
          List.inj_on_of_nodup_map grants.distinct member otherMember nil.symm
        exact differs same.symm
      · intro agrees
        by_contra differs
        exact agrees ⟨dotted, onlyEmpty, _, member, rfl, fun same => differs same.symm⟩
    · -- No specific key covers the group.
      have uncovered : ∀ entry ∈ specific grants.entries, ¬ Covers dot entry.1 group := by
        intro entry member covers
        by_cases nil : entry.1 = []
        · rw [nil] at covers
          rcases covers_nil_iff.mp covers with groupNil | ⟨rest, dotted⟩
          · exact nonempty groupNil
          · refine empty ⟨by simp [dotted], entry.2, ?_⟩
            have inside := List.mem_of_mem_filter member
            rwa [← nil]
        · exact onlyEmpty entry member nil covers
      have granted : Granted grants.entries group op ↔
          ∃ wild ∈ grants.entries, wild.1 = [star] ∧ op ∈ wild.2 := by
        rw [granted_iff]
        constructor
        · rintro (⟨entry, member, _, covers, _⟩ | ⟨_, wild⟩)
          · exact absurd covers (uncovered entry member)
          · exact wild
        · exact fun wild => Or.inr ⟨uncovered, wild⟩
      rw [scanned, granted]
      refine iff_of_true Iff.rfl ?_
      rintro ⟨dotted, _, ⟨_, val⟩, member, nil, _⟩
      exact empty ⟨dotted, val, nil ▸ member⟩
  · -- A longer key than the empty one was found; both sides read its value.
    obtain ⟨key, val, member, notStar, covers, length, kept⟩ := best.found positive
    have inSpecific : (key, val) ∈ specific grants.entries := by
      simp [specific, member, notStar]
    have longest : Longest dot (specific grants.entries) group val := by
      refine ⟨key, inSpecific, covers, fun entry inside hit => ?_⟩
      rw [length]
      exact best.longest entry (List.mem_of_mem_filter inside)
        (by simpa [specific] using (List.mem_filter.mp inside).2) hit
    refine iff_of_true ?_ ?_
    · simp only [kept, Option.some.injEq, exists_eq_left']
      constructor
      · exact fun has => Or.inl ⟨val, longest, has⟩
      · rintro (⟨other, otherLongest, has⟩ | ⟨none, _⟩)
        · rwa [longest_unique distinct longest otherLongest]
        · exact absurd covers (none _ inSpecific)
    · rintro ⟨_, onlyEmpty, _⟩
      refine onlyEmpty _ inSpecific ?_ covers
      intro nil
      have zero : key.length = 0 := List.length_eq_zero_iff.mpr nil
      omega

/-- The check gives the access the two maps mean, in every form they are written in, except where
the empty grant key decides. -/
theorem authCheck_allows_iff (arg : GrantsArg) (exclude : ExcludeArg) (group : Bytes) (op : UInt8)
    (nonempty : group ≠ []) :
    (authCheck (some arg.text) exclude.text (some group) op = true ↔
        Allows arg.grants.entries (excludedKeys arg exclude) group op) ↔
      ¬ EmptyKeyDecides arg exclude group op := by
  have best : BestSoFar group arg.grants.entries
      (feed (grantMatchCb group) arg.grants.entries ⟨none, 0⟩) := by
    simpa using feed_bestSoFar arg.grants.entries [] (bestSoFar_initial group)
      (by simpa using arg.grants.distinct)
  have exactly := bestSoFar_granted op nonempty best
  rw [authCheck_iff, Allows, EmptyKeyDecides]
  by_cases excluded : Excluded (excludedKeys arg exclude) group
  · simp [excluded]
  · simpa [excluded] using exactly

/-- A policy whose only grant has the empty key. -/
def emptyKeyGrants : GrantMap where
  entries := [([], ascii "r")]
  plain := by decide
  distinct := by decide

/-- The empty key covers a group that starts with a dot, yet the check finds no grant. -/
theorem authCheck_emptyKey_denies :
    ¬ (authCheck (some (GrantsArg.bare emptyKeyGrants).text) ExcludeArg.null.text
        (some (ascii ".acme")) 0x72 = true ↔
      Allows (GrantsArg.bare emptyKeyGrants).grants.entries
        (excludedKeys (.bare emptyKeyGrants) .null) (ascii ".acme") 0x72) := by decide

/-- A policy with a wildcard, a prefix and a longer prefix. -/
def nestedGrants : GrantMap where
  entries := [(ascii "org", ascii "r"), (ascii "org.acme", ascii "c"), (ascii "*", ascii "d")]
  plain := by decide
  distinct := by decide

/-- The longest of the three grants decides, here for an operation only it has. -/
theorem authCheck_allows_iff_nested :
    authCheck (some (GrantsArg.bare nestedGrants).text) ExcludeArg.null.text
      (some (ascii "org.acme.core")) 0x63 = true := by
  have exactly := (authCheck_allows_iff (.bare nestedGrants) .null (ascii "org.acme.core") 0x63
    (by decide)).mpr (by decide)
  exact exactly.mpr (by decide)

end Cookbook.Policy
