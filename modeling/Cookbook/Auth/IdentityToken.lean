import Cookbook.Auth.TermsSurvive

/-!
# Tokens of the first version

`jwtCreate` writes subject and groups between quotes as they are, and `jwtVerify` finds them again up
to the next quote. A token carries exactly what it was made from when neither of them holds a quote.
-/
namespace Cookbook.Auth

open Library.Text

/-! ## The payload as a list of members -/

/-- The members with a text value, in the order in which they are written. -/
def identityItems (sub groups jti : Bytes) : List (Bytes × Bytes) :=
  (ascii "sub", sub) :: ((if groups = [] then [] else [(ascii "groups", groups)]) ++
    [(ascii "jti", jti)])

/-- Members with a comma behind each of them. -/
def itemsText (items : List (Bytes × Bytes)) : Bytes :=
  items.flatMap fun item => Policy.grantItem item ++ [comma]

/-- The times behind the members. -/
def timesText (now exp : Int) : Bytes :=
  memberName (ascii "iat") ++ (decimal now ++ comma ::
    (memberName (ascii "exp") ++ (decimal exp ++ [closeBrace])))

/-- The text that a payload should have. -/
def identityPayload (sub groups jti : Bytes) (now exp : Int) : Bytes :=
  openBrace :: (itemsText (identityItems sub groups jti) ++ timesText now exp)

/-- A payload is its identity members and its times. -/
theorem identityPayload_eq (sub groups jti : Bytes) (now expiry : Int) :
    front sub groups jti ++ times now expiry = identityPayload sub groups jti now expiry := by
  have exp : memberName (ascii "exp") = ascii "\"exp\":" := by decide
  have iat : memberName (ascii "iat") = ascii "\"iat\":" := by decide
  by_cases none : groups = []
  · simp only [identityPayload, identityItems, itemsText, timesText, iat, exp, none, if_true]
    simp [front, times, timesBefore, jsonWriteString, Policy.grantItem, memberName]
  · simp only [identityPayload, identityItems, itemsText, timesText, iat, exp, none, if_false]
    simp [front, times, timesBefore, jsonWriteString, Policy.grantItem, memberName, none]

/-- Short members are written whole. -/
theorem jwtPayload_whole {sub groups jti : Bytes} {now exp : Int}
    (fits : (identityPayload sub groups jti now exp).length < 2048) :
    jwtPayload sub groups jti now exp = .done (identityPayload sub groups jti now exp) := by
  rw [← identityPayload_eq, List.length_append] at fits
  have written := printIdentity_ofText sub groups jti (by decide : 0 < 2048)
  rcases written with whole | ⟨-, long⟩
  · have timed := @printTimes_whole now exp 2048 (front sub groups jti) fits
    rw [jwtPayload, whole, Outcome.bind_done, timed, Outcome.bind_done, Cursor.ofText_text]
    · rw [identityPayload_eq]
    · rw [List.length_append]
      exact fits
  · omega

/-! ## Searches -/

section Searches

variable {key tail : Bytes}

/-- The search passes members of other names whose values hold no quote. -/
theorem pass_items (letters : Letters key) {items : List (Bytes × Bytes)}
    (other : ∀ item ∈ items, item.1 ≠ key ∧ quote ∉ item.1 ∧ quote ∉ item.2) (after : Bytes) :
    strstr (memberName key ++ tail) (itemsText items ++ after) =
      strstr (memberName key ++ tail) after := by
  induction items with
  | nil => rfl
  | cons item items ih =>
    have here := other item List.mem_cons_self
    have later := ih fun next member => other next (List.mem_cons_of_mem _ member)
    have shape : itemsText (item :: items) ++ after =
        Policy.grantItem (item.1, item.2) ++ comma :: (itemsText items ++ after) := by
      simp [itemsText]
    rw [shape, pass_grantItem key tail letters (itemsText items ++ after) (.inl here.1) here.2.1
      here.2.2 (.inl rfl)]
    exact later

/-- The search passes a number of another name. -/
theorem pass_number (tail : Bytes) (letters : Letters key) {name digits : Bytes} {c : UInt8} (after : Bytes)
    (other : name ≠ key) (nameFree : quote ∉ name) (digitsFree : quote ∉ digits)
    (between : c ≠ quote) :
    strstr (memberName key ++ tail) (memberName name ++ (digits ++ c :: after)) =
      strstr (memberName key ++ tail) after := by
  have shape : memberName name ++ (digits ++ c :: after) =
      quote :: (name ++ quote :: (colon :: ((digits ++ [c]) ++ after))) := by
    simp [memberName]
  have run : quote ∉ digits ++ [c] := by
    simp only [List.mem_append, List.mem_singleton, not_or]
    exact ⟨digitsFree, fun same => between same.symm⟩
  have named : ¬ (name = key ∧ colon :: tail <+: colon :: ((digits ++ [c]) ++ after)) :=
    fun both => other both.1
  rw [shape, member_eq, strstr_field letters.quoteFree nameFree named, ← member_eq,
    pass_closing letters (.inl rfl), member_eq, strstr_run _ _ _ run]

/-- The search passes the opening brace. -/
theorem pass_open (key tail : Bytes) (after : Bytes) :
    strstr (memberName key ++ tail) (openBrace :: after) =
      strstr (memberName key ++ tail) after := by
  rw [member_eq]
  exact strstr_run _ [openBrace] _ (by decide)

/-- A text member that is found is read up to the next quote. -/
theorem jsonGetString_found {json val after : Bytes} (size : Nat)
    (search : strstr (memberName key ++ [quote]) json =
      some (Policy.grantItem (key, val) ++ comma :: after)) :
    jsonGetString json key size =
      ((val ++ quote :: comma :: after).takeWhile (· != quote)).take (size - 1) := by
  have shape : Policy.grantItem (key, val) ++ comma :: after =
      (memberName key ++ [quote]) ++ (val ++ quote :: comma :: after) := by
    simp [Policy.grantItem, memberName]
  have closes : ∃ rest, strchr quote (val ++ quote :: comma :: after) = some rest := by
    cases found : strchr quote (val ++ quote :: comma :: after) with
    | some rest => exact ⟨rest, rfl⟩
    | none =>
      unfold strchr at found
      split at found
      · rename_i nothing
        have all := List.dropWhile_eq_nil_iff.mp nothing quote (by simp)
        simp at all
      · cases found
  have closing := closes.choose_spec
  rw [shape] at search
  unfold jsonGetString
  rw [search]
  dsimp only
  rw [List.drop_left, closing]

end Searches

/-! ## What is read -/

section Reading

variable {sub groups jti : Bytes} {now exp : Int}

/-- The subject is read up to its first quote. -/
theorem read_sub (sub groups jti : Bytes) (now exp : Int) :
    ∃ after, jsonGetString (identityPayload sub groups jti now exp) (ascii "sub") 128 =
      ((sub ++ quote :: comma :: after).takeWhile (· != quote)).take 127 := by
  have shape : identityPayload sub groups jti now exp = openBrace :: (Policy.grantItem
      (ascii "sub", sub) ++ comma :: (itemsText (identityItems sub groups jti).tail ++
        timesText now exp)) := by
    simp [identityPayload, identityItems, itemsText]
  have starts : Policy.grantItem (ascii "sub", sub) = (memberName (ascii "sub") ++ [quote]) ++
      (sub ++ [quote]) := by
    simp [Policy.grantItem, memberName]
  have search : strstr (memberName (ascii "sub") ++ [quote])
      (identityPayload sub groups jti now exp) = some (Policy.grantItem (ascii "sub", sub) ++
        comma :: (itemsText (identityItems sub groups jti).tail ++ timesText now exp)) := by
    rw [shape, pass_open, starts, List.append_assoc, strstr_prefix]
  exact ⟨_, jsonGetString_found 128 search⟩

/-- Groups behind a subject without quotes are read up to their first quote. -/
theorem read_groups (subFree : quote ∉ sub) (present : groups ≠ []) (jti : Bytes) (now exp : Int) :
    ∃ after, jsonGetString (identityPayload sub groups jti now exp) (ascii "groups") 1024 =
      ((groups ++ quote :: comma :: after).takeWhile (· != quote)).take 1023 := by
  have shape : identityPayload sub groups jti now exp = openBrace ::
      (itemsText [(ascii "sub", sub)] ++ (Policy.grantItem (ascii "groups", groups) ++ comma ::
        (itemsText [(ascii "jti", jti)] ++ timesText now exp))) := by
    simp [identityPayload, identityItems, itemsText, present]
  have starts : Policy.grantItem (ascii "groups", groups) =
      (memberName (ascii "groups") ++ [quote]) ++ (groups ++ [quote]) := by
    simp [Policy.grantItem, memberName]
  have other : ∀ item ∈ [(ascii "sub", sub)],
      item.1 ≠ ascii "groups" ∧ quote ∉ item.1 ∧ quote ∉ item.2 := by
    intro item member
    rw [List.mem_singleton] at member
    subst member
    have differs : ascii "sub" ≠ ascii "groups" := by decide
    have nameFree : quote ∉ ascii "sub" := by decide
    exact ⟨differs, nameFree, subFree⟩
  have search : strstr (memberName (ascii "groups") ++ [quote])
      (identityPayload sub groups jti now exp) = some (Policy.grantItem (ascii "groups", groups) ++
        comma :: (itemsText [(ascii "jti", jti)] ++ timesText now exp)) := by
    rw [shape, pass_open, pass_items (by decide) other, starts, List.append_assoc, strstr_prefix]
  exact ⟨_, jsonGetString_found 1024 search⟩

/-- A text without quotes is read whole when it fits. -/
theorem read_whole {val : Bytes} {size : Nat} (free : quote ∉ val) (fits : val.length ≤ size)
    (after : Bytes) :
    ((val ++ quote :: comma :: after).takeWhile (· != quote)).take size = val := by
  rw [takeWhile_ne_stop free, List.take_of_length_le fits]

/-- A text with a quote is not read whole. -/
theorem read_cut {val : Bytes} (size : Nat) (after : Bytes)
    (whole : ((val ++ quote :: comma :: after).takeWhile (· != quote)).take size = val) :
    quote ∉ val := by
  intro member
  rw [← whole] at member
  have inside := List.mem_takeWhile_imp (List.mem_of_mem_take member)
  simp at inside

/-- What the reader finds behind the texts when none of them holds a quote. -/
theorem read_behind {key : Bytes} (now exp : Int) (subFree : quote ∉ sub)
    (groupsFree : quote ∉ groups) (jtiFree : quote ∉ jti) (letters : Letters key)
    (tail : Bytes) (other : key ≠ ascii "sub" ∧ key ≠ ascii "groups" ∧ key ≠ ascii "jti") :
    strstr (memberName key ++ tail) (identityPayload sub groups jti now exp) =
      strstr (memberName key ++ tail) (timesText now exp) := by
  have items : ∀ item ∈ identityItems sub groups jti,
      item.1 ≠ key ∧ quote ∉ item.1 ∧ quote ∉ item.2 := by
    intro item member
    have subName : quote ∉ ascii "sub" := by decide
    have groupsName : quote ∉ ascii "groups" := by decide
    have jtiName : quote ∉ ascii "jti" := by decide
    unfold identityItems at member
    rcases List.mem_cons.mp member with rfl | member
    · exact ⟨fun same => other.1 same.symm, subName, subFree⟩
    · rcases List.mem_append.mp member with member | member
      · split at member
        · cases member
        · rw [List.mem_singleton] at member
          subst member
          exact ⟨fun same => other.2.1 same.symm, groupsName, groupsFree⟩
      · rw [List.mem_singleton] at member
        subst member
        exact ⟨fun same => other.2.2 same.symm, jtiName, jtiFree⟩
  rw [identityPayload, pass_open, pass_items letters items]

/-- Behind the texts only the times are found, the expiry behind the time of issue. -/
theorem read_times (subFree : quote ∉ sub) (groupsFree : quote ∉ groups) (jtiFree : quote ∉ jti)
    (nowLow : 0 ≤ now) (nowHigh : now < 9223372036854775808) (expLow : 0 ≤ exp)
    (expHigh : exp < 9223372036854775808) :
    jsonGetInt (identityPayload sub groups jti now exp) (ascii "iat") = some now ∧
      jsonGetInt (identityPayload sub groups jti now exp) (ascii "exp") = some exp ∧
      jsonGetInt (identityPayload sub groups jti now exp) (ascii "v") = none := by
  have behind {key : Bytes} (letters : Letters key)
      (other : key ≠ ascii "sub" ∧ key ≠ ascii "groups" ∧ key ≠ ascii "jti") :
      strstr (memberName key) (identityPayload sub groups jti now exp) =
        strstr (memberName key) (timesText now exp) := by
    have passed := read_behind now exp subFree groupsFree jtiFree letters [] other
    rwa [List.append_nil] at passed
  have nowFree := decimal_quoteFree nowLow
  have expFree := decimal_quoteFree expLow
  have pass {key : Bytes} (letters : Letters key) {name digits : Bytes} (c : UInt8) (after : Bytes)
      (other : name ≠ key) (nameFree : quote ∉ name) (digitsFree : quote ∉ digits)
      (between : c ≠ quote) : strstr (memberName key) (memberName name ++ (digits ++ c :: after)) =
        strstr (memberName key) after := by
    have passed := pass_number [] letters after other nameFree digitsFree between
    rwa [List.append_nil] at passed
  refine ⟨?_, ?_, ?_⟩
  · have digits := strtoll_decimal now (comma :: (memberName (ascii "exp") ++
      (decimal exp ++ [closeBrace]))) (by omega) nowHigh (by simp [isDecimal])
    rw [jsonGetInt, behind (by decide) (by decide), timesText, strstr_prefix, Option.map_some,
      List.drop_left, digits]
  · have digits := strtoll_decimal exp [closeBrace] (by omega) expHigh (by decide +kernel)
    rw [jsonGetInt, behind (by decide) (by decide), timesText,
      pass (by decide) comma _ (by decide) (by decide) nowFree (by decide), strstr_prefix,
      Option.map_some, List.drop_left, digits]
  · rw [jsonGetInt, behind (by decide) (by decide), timesText,
      pass (by decide) comma _ (by decide) (by decide) nowFree (by decide),
      pass (by decide) closeBrace [] (by decide) (by decide) expFree (by decide)]
    rfl

/-- Empty groups are read as empty groups. -/
theorem read_noGroups (subFree : quote ∉ sub) (jtiFree : quote ∉ jti) (nowLow : 0 ≤ now)
    (expLow : 0 ≤ exp) :
    jsonGetString (identityPayload sub [] jti now exp) (ascii "groups") 1024 = [] := by
  have items : ∀ item ∈ [(ascii "sub", sub), (ascii "jti", jti)],
      item.1 ≠ ascii "groups" ∧ quote ∉ item.1 ∧ quote ∉ item.2 := by
    have names : (ascii "sub" ≠ ascii "groups" ∧ quote ∉ ascii "sub") ∧
        ascii "jti" ≠ ascii "groups" ∧ quote ∉ ascii "jti" := by decide
    simp only [List.mem_cons, List.not_mem_nil, or_false, forall_eq_or_imp, forall_eq]
    exact ⟨⟨names.1.1, names.1.2, subFree⟩, names.2.1, names.2.2, jtiFree⟩
  have nothing : strstr (memberName (ascii "groups") ++ [quote])
      (identityPayload sub [] jti now exp) = none := by
    have letters : Letters (ascii "groups") := by decide
    have all : identityItems sub [] jti = [(ascii "sub", sub), (ascii "jti", jti)] := rfl
    rw [identityPayload, pass_open, all, pass_items letters items, timesText,
      pass_number _ letters _ (by decide) (by decide) (decimal_quoteFree nowLow) (by decide),
      pass_number _ letters [] (by decide) (by decide) (decimal_quoteFree expLow) (by decide)]
    rfl
  rw [jsonGetString, nothing]

/-- The identifier is read whole. -/
theorem read_jti (subFree : quote ∉ sub) (groupsFree : quote ∉ groups) (jtiFree : quote ∉ jti)
    (short : jti.length ≤ 63) (now exp : Int) :
    jsonGetString (identityPayload sub groups jti now exp) (ascii "jti") 64 = jti := by
  have letters : Letters (ascii "jti") := by decide
  have front : ∀ item ∈ (identityItems sub groups jti).dropLast,
      item.1 ≠ ascii "jti" ∧ quote ∉ item.1 ∧ quote ∉ item.2 := by
    have names : (ascii "sub" ≠ ascii "jti" ∧ quote ∉ ascii "sub") ∧
        ascii "groups" ≠ ascii "jti" ∧ quote ∉ ascii "groups" := by decide
    intro item member
    by_cases none : groups = []
    · have one : (identityItems sub groups jti).dropLast = [(ascii "sub", sub)] := by
        simp [identityItems, none]
      rw [one, List.mem_singleton] at member
      subst member
      exact ⟨names.1.1, names.1.2, subFree⟩
    · have two : (identityItems sub groups jti).dropLast =
          [(ascii "sub", sub), (ascii "groups", groups)] := by
        simp [identityItems, none]
      rw [two, List.mem_cons, List.mem_singleton] at member
      rcases member with rfl | rfl
      · exact ⟨names.1.1, names.1.2, subFree⟩
      · exact ⟨names.2.1, names.2.2, groupsFree⟩
  have shape : itemsText (identityItems sub groups jti) =
      itemsText (identityItems sub groups jti).dropLast ++
        (Policy.grantItem (ascii "jti", jti) ++ [comma]) := by
    by_cases none : groups = []
    · simp [identityItems, itemsText, none]
    · simp [identityItems, itemsText, none]
  have starts : Policy.grantItem (ascii "jti", jti) = (memberName (ascii "jti") ++ [quote]) ++
      (jti ++ [quote]) := by
    simp [Policy.grantItem, memberName]
  have search : strstr (memberName (ascii "jti") ++ [quote])
      (identityPayload sub groups jti now exp) =
        some (Policy.grantItem (ascii "jti", jti) ++ comma :: timesText now exp) := by
    rw [identityPayload, pass_open, shape, List.append_assoc, pass_items letters front,
      List.append_assoc, List.singleton_append, starts, List.append_assoc, strstr_prefix]
  rw [jsonGetString_found 64 search, read_whole jtiFree short]

end Reading

/-! ## Tokens -/

/-- The claims of a token of the first version, as it was made. -/
def identityClaims (who : TokenIdentity) (jti : Bytes) (now ttl : Int) : JwtClaims where
  sub := who.sub
  groups := who.groups
  jti := jti
  grantsJson := none
  excludeJson := none
  exp := now + ttl
  iat := now
  version := 1

/-- A token is created, and up to its expiry it is verified with exactly the claims it was made
from. -/
def KeepsIdentity (verify : Bytes → Bytes → Bool) (who : TokenIdentity) (jti : Bytes)
    (now ttl : Int) (created : Outcome (Option Bytes)) : Prop :=
  ∃ token, created = .done (some token) ∧
    ∀ later ≤ now + ttl, jwtVerify verify later token = some (identityClaims who jti now ttl)

section Tokens

variable {sign : Bytes → Option Bytes} {verify : Bytes → Bytes → Bool} {who : TokenIdentity}
  {jti : Bytes} {now ttl : Int}

/-- A payload of short texts is short. -/
theorem identityPayload_length (subShort : who.sub.length < 128)
    (groupsShort : who.groups.length < 1024) (jtiShort : jti.length ≤ 63) {exp : Int}
    (timesShort : (times now exp).length ≤ 53) :
    (identityPayload who.sub who.groups jti now exp).length < 2048 := by
  rw [← identityPayload_eq, List.length_append]
  have frontShort : (front who.sub who.groups jti).length ≤ 1400 := by
    by_cases none : who.groups = []
    · simp [front, jsonWriteString, memberName, ascii, none]
      omega
    · simp [front, jsonWriteString, memberName, ascii, none]
      omega
  omega

/-- A payload of C strings holds no terminator. -/
theorem identityPayload_terminated (who : TokenIdentity) (jtiString : 0 ∉ jti) {exp : Int}
    (nowLow : 0 ≤ now) (expLow : 0 ≤ exp) :
    0 ∉ identityPayload who.sub who.groups jti now exp := by
  have terminated := who.terminated
  have sub := terminated.1
  have groups := terminated.2
  rw [← identityPayload_eq]
  by_cases none : who.groups = []
  · simp [front, jsonWriteString, memberName, ascii, times, timesBefore, none, sub, jtiString,
      decimal_terminated nowLow, decimal_terminated expLow]
  · simp [front, jsonWriteString, memberName, ascii, times, timesBefore, none, sub, groups,
      jtiString, decimal_terminated nowLow, decimal_terminated expLow]

/-- The identifier has 32 digits. -/
theorem jtiDigits_length (count : Nat) (seed : UInt64) :
    (jtiDigits count seed).length = 2 * count := by
  induction count generalizing seed with
  | zero => rfl
  | succ count ih =>
    simp only [jtiDigits, List.length_cons, ih]
    omega

/-- The claims of a payload are those it was made from exactly when neither text holds a quote. -/
theorem readClaims_identity_iff (subShort : who.sub.length < 128)
    (groupsShort : who.groups.length < 1024) (jtiFree : quote ∉ jti) (jtiShort : jti.length ≤ 63)
    (issued : 0 ≤ now) (lasting : 0 ≤ now + ttl) (nowHigh : now < 9223372036854775808)
    (range : now + ttl < 9223372036854775808) :
    readClaims (identityPayload who.sub who.groups jti now (now + ttl)) =
        identityClaims who jti now ttl ↔ quote ∉ who.sub ∧ quote ∉ who.groups := by
  have subRead := (read_sub who.sub who.groups jti now (now + ttl)).choose_spec
  constructor
  · intro same
    have subSame : jsonGetString (identityPayload who.sub who.groups jti now (now + ttl))
        (ascii "sub") 128 = who.sub := congrArg JwtClaims.sub same
    have groupsSame : jsonGetString (identityPayload who.sub who.groups jti now (now + ttl))
        (ascii "groups") 1024 = who.groups := congrArg JwtClaims.groups same
    rw [subRead] at subSame
    have subFree := read_cut 127 _ subSame
    apply And.intro subFree
    by_cases none : who.groups = []
    · rw [none]
      exact List.not_mem_nil
    · have groupsRead := (read_groups subFree none jti now (now + ttl)).choose_spec
      rw [groupsRead] at groupsSame
      exact read_cut 1023 _ groupsSame
  · intro free
    have subFree := free.1
    have groupsFree := free.2
    have times := read_times subFree groupsFree jtiFree issued nowHigh lasting range
    have jtiRead := read_jti subFree groupsFree jtiFree jtiShort now (now + ttl)
    have groupsRead : jsonGetString (identityPayload who.sub who.groups jti now (now + ttl))
        (ascii "groups") 1024 = who.groups := by
      by_cases none : who.groups = []
      · rw [none]
        exact read_noGroups subFree jtiFree issued lasting
      · have read := (read_groups subFree none jti now (now + ttl)).choose_spec
        rw [read, read_whole groupsFree (by omega)]
    rw [read_whole subFree (by omega)] at subRead
    simp only [readClaims, subRead, groupsRead, jtiRead, times.1, times.2.1, times.2.2,
      identityClaims, reduceCtorEq, if_false, Option.getD_some]

/-- A token is created and verified to the claims of its payload. -/
theorem jwtCreate_readClaims (signs : Signs sign verify) (who : TokenIdentity)
    (subShort : who.sub.length < 128) (groupsShort : who.groups.length < 1024)
    (jtiString : 0 ∉ jti) (jtiShort : jti.length ≤ 63) (issued : 0 ≤ now) (lasting : 0 ≤ ttl)
    (range : now + ttl < 9223372036854775808) :
    ∃ token, jwtCreate sign now jti who.sub who.groups ttl = .done (some token) ∧
      ∀ later, jwtVerify verify later token =
        acceptClaims later (readClaims (identityPayload who.sub who.groups jti now (now + ttl))) := by
  have timesShort := times_length issued (by omega) (by omega : 0 ≤ now + ttl) range
  have short := identityPayload_length subShort groupsShort jtiShort timesShort
  have string := identityPayload_terminated who jtiString issued (by omega : 0 ≤ now + ttl)
  have nonempty : identityPayload who.sub who.groups jti now (now + ttl) ≠ [] := by
    simp [identityPayload]
  obtain ⟨token, sealed, verified⟩ := jwtVerify_sealToken signs 4096 (by omega) nonempty
  have decoded : decodedClaims (identityPayload who.sub who.groups jti now (now + ttl)) =
      readClaims (identityPayload who.sub who.groups jti now (now + ttl)) := by
    rw [decodedClaims, List.take_of_length_le (by omega), cString_terminated string]
  rw [decoded] at verified
  refine ⟨token, ?_, verified⟩
  rw [jwtCreate, jwtPayload_whole short, Outcome.bind_done, sealed]

/-- A token of the first version carries exactly what it was made from, up to its expiry, exactly
when neither the subject nor the groups hold a quote. -/
theorem jwtCreate_keepsIdentity_iff (signs : Signs sign verify) (who : TokenIdentity)
    (subShort : who.sub.length < 128) (groupsShort : who.groups.length < 1024)
    (time counter address : UInt64) (issued : 0 ≤ now) (lasting : 0 ≤ ttl)
    (range : now + ttl < 9223372036854775808) :
    KeepsIdentity verify who (generateJti time counter address) now ttl
        (jwtCreate sign now (generateJti time counter address) who.sub who.groups ttl) ↔
      quote ∉ who.sub ∧ quote ∉ who.groups := by
  have digits := jtiDigits_free 16 (time ^^^ (counter * 2654435761) ^^^ address)
  have jtiFree : quote ∉ generateJti time counter address := fun member => (digits _ member).1 rfl
  have jtiString : 0 ∉ generateJti time counter address := fun member => (digits _ member).2 rfl
  have jtiShort : (generateJti time counter address).length ≤ 63 := by
    rw [generateJti, jtiDigits_length]
    omega
  generalize generateJti time counter address = jti at *
  obtain ⟨token, created, verified⟩ := jwtCreate_readClaims signs who subShort groupsShort jtiString
    jtiShort issued lasting range
  have claims : readClaims (identityPayload who.sub who.groups jti now (now + ttl)) =
      identityClaims who jti now ttl ↔ quote ∉ who.sub ∧ quote ∉ who.groups :=
    readClaims_identity_iff subShort groupsShort jtiFree jtiShort issued (by omega) (by omega) range
  rw [← claims]
  constructor
  · intro keeps
    have same : token = keeps.choose := by
      have both := created.symm.trans keeps.choose_spec.1
      injection both with both
      exact Option.some.inj both
    have accepted := keeps.choose_spec.2 (now + ttl) (Int.le_refl _)
    rw [← same, verified, acceptClaims] at accepted
    split at accepted
    · cases accepted
    · exact Option.some.inj accepted
  · intro same
    refine ⟨token, created, ?_⟩
    intro later early
    rw [verified, same, acceptClaims, if_neg]
    intro expired
    have late := expired.2
    simp only [identityClaims] at late
    omega

end Tokens

/-! ## Two subjects -/

/-- The text that is signed for an identity at a fixed time for one hour. -/
def identityMessage (who : TokenIdentity) : Bytes :=
  let payload := identityPayload who.sub who.groups (generateJti 1700000000 1 0x7FFC00000000)
    1700000000 1700003600
  base64urlEncode jwtHeader 256 ++ dot :: base64urlEncode payload 4096

/-- A subject with a group. -/
def aliceCore : TokenIdentity := ⟨ascii "alice", ascii "core", by decide⟩

/-- The Ed25519 signature of the message for `aliceCore` under the key whose seed is zero. -/
def aliceCoreSignature : Bytes :=
  [0x3D, 0xC5, 0x65, 0xCA, 0x7B, 0xB5, 0xF7, 0xC3, 0xF6, 0x40, 0x1D, 0x01, 0x32, 0xD6, 0x84,
    0x93, 0x90, 0xCF, 0x99, 0x0F, 0xDA, 0x56, 0xF1, 0xBC, 0x3C, 0xC9, 0x88, 0xA0, 0xB4, 0xDA,
    0xA7, 0x65, 0x41, 0xC2, 0x87, 0x7B, 0x6A, 0x43, 0x43, 0xB6, 0x63, 0x3A, 0x0E, 0xEC, 0xB6,
    0x18, 0x77, 0xBD, 0x22, 0x83, 0x6E, 0x09, 0xFF, 0xEA, 0x0A, 0xC7, 0x05, 0x82, 0xB8, 0xAD,
    0xD2, 0x64, 0xBE, 0x0D]

/-- The token for `aliceCore` carries what it was made from. -/
theorem jwtCreate_keepsIdentity_alice :
    KeepsIdentity (recordedVerify (identityMessage aliceCore) aliceCoreSignature) aliceCore
      (generateJti 1700000000 1 0x7FFC00000000) 1700000000 3600
      (jwtCreate (recordedSign (identityMessage aliceCore) aliceCoreSignature) 1700000000
        (generateJti 1700000000 1 0x7FFC00000000) aliceCore.sub aliceCore.groups 3600) :=
  (jwtCreate_keepsIdentity_iff (recorded_signs (by decide)) aliceCore (by decide) (by decide)
    1700000000 1 0x7FFC00000000 (by decide) (by decide) (by decide)).mpr (by decide)

/-- A user name that closes its string and goes on with an expiry of its own. -/
def forgedExpiry : TokenIdentity :=
  ⟨ascii "a\",\"exp\":9999999999,\"x\":\"", [], by decide⟩

/-- The Ed25519 signature of the message for `forgedExpiry` under the same key. -/
def forgedExpirySignature : Bytes :=
  [0xB1, 0x76, 0x74, 0x4E, 0xC2, 0x28, 0xBA, 0x19, 0xE8, 0x20, 0xB6, 0x63, 0x72, 0xAA, 0x6E,
    0xCB, 0xB2, 0x7F, 0x71, 0x06, 0x12, 0xEB, 0x5C, 0x0B, 0x4C, 0x1D, 0xBD, 0xDA, 0xEE, 0xF3,
    0xB8, 0xB1, 0xE8, 0xEE, 0x77, 0x46, 0xF7, 0x30, 0xB5, 0x50, 0xAD, 0x96, 0xE1, 0x96, 0xBF,
    0xEF, 0xC9, 0xE8, 0xFC, 0xC1, 0xFB, 0xE4, 0x33, 0xD3, 0xB4, 0xE6, 0xE6, 0x4E, 0x54, 0x95,
    0x8D, 0xF2, 0xBD, 0x00]

/-- The token for `forgedExpiry` is another subject's and is still accepted years after its
expiry. -/
theorem jwtCreate_forgedExpiry :
    ¬ KeepsIdentity (recordedVerify (identityMessage forgedExpiry) forgedExpirySignature)
      forgedExpiry (generateJti 1700000000 1 0x7FFC00000000) 1700000000 3600
      (jwtCreate (recordedSign (identityMessage forgedExpiry) forgedExpirySignature) 1700000000
        (generateJti 1700000000 1 0x7FFC00000000) forgedExpiry.sub forgedExpiry.groups 3600) ∧
    (jwtVerify (recordedVerify (identityMessage forgedExpiry) forgedExpirySignature) 1800000000
      (identityMessage forgedExpiry ++ dot :: base64urlEncode forgedExpirySignature 128)).map
        (fun claims => (claims.sub, claims.exp)) = some (ascii "a", 9999999999) := by
  apply And.intro
  · intro keeps
    have made : jwtCreate (recordedSign (identityMessage forgedExpiry) forgedExpirySignature)
        1700000000 (generateJti 1700000000 1 0x7FFC00000000) forgedExpiry.sub forgedExpiry.groups
        3600 = .done (some (identityMessage forgedExpiry ++
          dot :: base64urlEncode forgedExpirySignature 128)) := by
      decide +kernel
    have same := made.symm.trans keeps.choose_spec.1
    injection same with same
    have token := Option.some.inj same
    have accepted := keeps.choose_spec.2 1700000000 (by decide)
    rw [← token] at accepted
    have other : jwtVerify (recordedVerify (identityMessage forgedExpiry) forgedExpirySignature)
        1700000000 (identityMessage forgedExpiry ++
          dot :: base64urlEncode forgedExpirySignature 128) ≠
        some (identityClaims forgedExpiry (generateJti 1700000000 1 0x7FFC00000000) 1700000000
          3600) := by
      decide +kernel
    exact other accepted
  · decide +kernel

end Cookbook.Auth
