import Cookbook.Auth.IdentityToken
import Cookbook.Ldap.Entries
import Cookbook.Server.Authorize
import Cookbook.Server.BodyScans
import Cookbook.Server.Url

/-!
# Group names from a directory

Behind a successful bind the handler takes the group names of a user from the directory: the client
joins the common names in the values of an attribute, the token carries the joined text, and the access
check compares the parts between its commas. Without such names the handler keeps those that the
request asks for.
-/
namespace Cookbook.Server

open Library.Text Library.Pieces Auth Ldap

/-! ## From an entry to a token -/

/-- What `handle_auth_token` has read from the body of a login: `sub` and `groups`. -/
structure Login where
  /-- `sub` -/
  sub : Bytes
  /-- `groups` -/
  groups : Bytes
  /-- Both are C strings. -/
  terminated : 0 ∉ sub ∧ 0 ∉ groups
  /-- Both stood between quotes. -/
  closed : quote ∉ sub ∧ quote ∉ groups
  /-- Both fit their buffers. -/
  short : sub.length < 128 ∧ groups.length < 1024

/-- The groups that `cookbook_ldap_bind` finds when an entry is what is sent. -/
def foundGroups (beyond : Nat → UInt8) (groupAttr : Bytes) (entry : Entry) : Option Bytes :=
  (ldapRecvMessage whole 8192 entry.message).1.bind (entryGroups beyond groupAttr)

/-- `groups` of `handle_auth_token` behind a bind. -/
def tokenGroups (requested : Bytes) : Option Bytes → Bytes
  | none => requested
  | some names => if cString names = [] then requested else snprintf 1024 (cString names)

/-- The token of `handle_auth_token` behind a bind, for a subject without a policy. -/
def ldapToken (sign : Bytes → Option Bytes) (now : Int) (jti : Bytes) (login : Login)
    (ldapGroups : Option Bytes) (ttl : Int) : Outcome (Option Bytes) :=
  jwtCreate sign now jti login.sub (tokenGroups login.groups ldapGroups) ttl

/-! ## What it is for -/

/-- The value of the first component of a distinguished name: up to a comma, where an escaped character
stands for itself and two escaped digits stand for a byte. -/
def componentText : Bytes → Bytes
  | [] => []
  | c :: rest =>
    if c = comma then []
    else if c = 0x5C then
      match rest with
      | [] => []
      | [d] => [d]
      | d :: e :: rest =>
        if isHex d && isHex e then UInt8.ofNat (hexValue d * 16 + hexValue e) :: componentText rest
        else d :: componentText (e :: rest)
    else c :: componentText rest

/-- The common name that a value gives: a distinguished name starts with it, another value is one. -/
def groupCn (value : Bytes) : Bytes :=
  match value with
  | c :: n :: 0x3D :: name =>
    if (c = 0x43 ∨ c = 0x63) ∧ (n = 0x4E ∨ n = 0x6E) then componentText name else value
  | _ => value

/-- The common names of an entry. -/
def groupCns (entry : Entry) (groupAttr : Bytes) : List Bytes :=
  (entry.values groupAttr).map groupCn

/-- Claims that give exactly some names. -/
structure ExactGroups (claims : JwtClaims) (names : List Bytes) : Prop where
  /-- A group is theirs exactly when its name is one of them. -/
  member : ∀ group, jwtHasGroup claims group = true ↔ group ∈ names
  /-- What is compared with a group are the names one by one. -/
  single : listed comma claims.groups = names

/-- A token that is verified at a time to claims with exactly some names. -/
def KeepsGroups (verify : Bytes → Bytes → Bool) (later : Int) (names : List Bytes)
    (created : Outcome (Option Bytes)) : Prop :=
  ∃ token claims, created = .done (some token) ∧ jwtVerify verify later token = some claims ∧
    ExactGroups claims names

/-- The client gets the entry, and the names in it are not an empty C string. -/
def NamesFound (entry : Entry) (groupAttr : Bytes) : Prop :=
  entry.message.length ≤ 8192 ∧
    ∃ c ∈ ((entry.values groupAttr).map commonName).flatten.head?, c ≠ 0

/-- Values whose common names survive. -/
structure NamesFit (values : List Bytes) : Prop where
  /-- No name holds a separator, a quote or a terminator. -/
  plain : ∀ value ∈ values, comma ∉ groupCn value ∧ quote ∉ groupCn value ∧ 0 ∉ groupCn value
  /-- The first name is not empty. -/
  first : (values.map groupCn).head? ≠ some []
  /-- Neither is the last one. -/
  last : (values.map groupCn).getLast? ≠ some []
  /-- As many characters as the buffer takes of the names as they are written are the names. -/
  whole : ([comma].intercalate (values.map commonName)).take 1023 =
    [comma].intercalate (values.map groupCn)

/-- The names of the entry survive, or the requested ones are the names of the entry. -/
structure GroupsSurvive (requested : Bytes) (entry : Entry) (groupAttr : Bytes) : Prop where
  /-- Where the client finds names, they survive. -/
  found : NamesFound entry groupAttr → NamesFit (entry.values groupAttr)
  /-- Where it finds none, the requested groups are the names. -/
  missing : ¬ NamesFound entry groupAttr → listed comma requested = groupCns entry groupAttr

/-! ## The body of a login -/

/-- A field that holds no quote and no terminator. -/
def Clean (scanned : Scanned) : Prop := ∀ text, scanned = .value text → quote ∉ text ∧ 0 ∉ text

/-- What is copied of a clean field fits. -/
theorem Clean.text {scanned : Scanned} (clean : Clean scanned) {size : Nat} (some : 0 < size) :
    quote ∉ scanned.text size ∧ 0 ∉ scanned.text size ∧ (scanned.text size).length < size := by
  cases scanned with
  | value text =>
    obtain ⟨closed, terminated⟩ := clean text rfl
    refine ⟨fun member => closed (List.mem_of_mem_take member),
      fun member => terminated (List.mem_of_mem_take member), ?_⟩
    rw [Scanned.text, List.length_take]
    omega
  | absent | bare | unclosed => exact ⟨List.not_mem_nil, List.not_mem_nil, some⟩

/-- A text up to its closing quote is clean. -/
theorem quotedAt_clean {p : Bytes} {scanned : Scanned} (ends : quotedAt p = .done scanned) :
    Clean scanned := by
  rintro text rfl
  obtain ⟨found, search, value⟩ := bind_eq_done ends
  cases found with
  | none => cases value
  | some rest =>
    cases value
    refine ⟨fun member => ?_, findChr_zero search⟩
    have other := List.mem_takeWhile_imp member
    simp at other

/-- So is one behind blanks. -/
theorem behindBlanks_clean {p : Bytes} {scanned : Scanned} (ends : behindBlanks p = .done scanned) :
    Clean scanned := by
  obtain ⟨rest, -, value⟩ := bind_eq_done ends
  split at value
  · exact quotedAt_clean value
  · cases value
    exact nofun

/-- So is one behind a colon. -/
theorem behindColon_clean {p : Bytes} {scanned : Scanned} (ends : behindColon p = .done scanned) :
    Clean scanned := by
  obtain ⟨found, -, value⟩ := bind_eq_done ends
  cases found with
  | none =>
    cases value
    exact nofun
  | some rest => exact behindBlanks_clean value

/-- A field is clean. -/
theorem looseField_clean {name body : Bytes} {scanned : Scanned}
    (ends : looseField name body = .done scanned) : Clean scanned := by
  obtain ⟨found, -, value⟩ := bind_eq_done ends
  cases found with
  | none =>
    cases value
    exact nofun
  | some rest => exact behindBlanks_clean value

/-- So is one with several keys. -/
theorem colonField_clean {keys : List Bytes} {body : Bytes} {scanned : Scanned}
    (ends : colonField keys body = .done scanned) : Clean scanned := by
  induction keys with
  | nil =>
    cases ends
    exact nofun
  | cons key keys ih =>
    obtain ⟨found, -, value⟩ := bind_eq_done ends
    cases found with
    | none => exact ih value
    | some rest => exact behindColon_clean value

/-- The subject is the one of the body or the client. -/
theorem clientId_clean {sub body subject : Bytes} (ends : clientId sub body = .done subject)
    (clean : quote ∉ sub ∧ 0 ∉ sub ∧ sub.length < 128) :
    quote ∉ subject ∧ 0 ∉ subject ∧ subject.length < 128 := by
  obtain ⟨found, -, value⟩ := bind_eq_done ends
  cases found with
  | none =>
    cases value
    exact clean
  | some rest =>
    simp only at value
    split at value
    · obtain ⟨client, clientRead, value⟩ := bind_eq_done value
      cases value
      exact (behindColon_clean clientRead).text (by decide)
    · cases value
      exact clean

/-- What the handler reads from a body is a login. -/
theorem scanAuthToken_login {body sub groups method grantType clientSecret bodyToken : Bytes}
    (read : scanAuthToken body =
      .done (.authToken sub groups method grantType clientSecret bodyToken)) :
    ∃ login : Login, login.sub = sub ∧ login.groups = groups := by
  obtain ⟨subField, subRead, read⟩ := bind_eq_done read
  obtain ⟨groupsField, groupsRead, read⟩ := bind_eq_done read
  obtain ⟨methodField, _, read⟩ := bind_eq_done read
  obtain ⟨grantField, _, read⟩ := bind_eq_done read
  obtain ⟨secretField, _, read⟩ := bind_eq_done read
  obtain ⟨subject, subjectRead, read⟩ := bind_eq_done read
  obtain ⟨token, _, read⟩ := bind_eq_done read
  cases read
  obtain ⟨subClosed, subTerminated, subShort⟩ :=
    clientId_clean subjectRead ((colonField_clean subRead).text (by decide))
  obtain ⟨groupsClosed, groupsTerminated, groupsShort⟩ :=
    (looseField_clean groupsRead).text (show 0 < 1024 by decide)
  exact ⟨⟨_, _, ⟨subTerminated, groupsTerminated⟩, ⟨subClosed, groupsClosed⟩,
    ⟨subShort, groupsShort⟩⟩, rfl, rfl⟩

/-! ## Comparing names -/

/-- The access check compares a group with the listed names. -/
theorem jwtHasGroup_iff (claims : JwtClaims) (group : Bytes) :
    jwtHasGroup claims group = true ↔ group ∈ listed comma claims.groups := by
  have same : jwtHasGroup claims group =
      (listed comma claims.groups).any (· == group) := rfl
  simp [same, List.any_eq_true]

/-- Claims give exactly some names when they list them. -/
theorem exactGroups_iff (claims : JwtClaims) (names : List Bytes) :
    ExactGroups claims names ↔ listed comma claims.groups = names :=
  ⟨fun exact => exact.single, fun same => ⟨fun group => same ▸ jwtHasGroup_iff claims group, same⟩⟩

/-! ## Common names -/

/-- From a component without commas only escapes are missing. -/
theorem componentText_kept {text : Bytes} (free : comma ∉ componentText text) {c : UInt8}
    (bare : c ≠ 0x5C) (plain : isHex c = false) (member : c ∈ text.takeWhile (· != comma)) :
    c ∈ componentText text := by
  have behind {d : UInt8} {rest : Bytes} (member : c ∈ (d :: rest).takeWhile (· != comma)) :
      c = d ∨ c ∈ rest.takeWhile (· != comma) := by
    rw [List.takeWhile_cons] at member
    split at member
    · exact List.mem_cons.mp member
    · cases member
  fun_induction componentText text with
  | case1 => cases member
  | case2 => cases member
  | case3 => exact (bare ((behind member).resolve_right List.not_mem_nil)).elim
  | case4 d =>
    have second := (behind ((behind member).resolve_left bare)).resolve_right List.not_mem_nil
    exact List.mem_singleton.mpr second
  | case5 d e rest hex _ ih =>
    rw [List.mem_cons, not_or] at free
    have digits := Bool.and_eq_true_iff.mp hex
    have first := (behind ((behind member).resolve_left bare)).resolve_left
      fun same => by simp [same, digits.1] at plain
    have second := (behind first).resolve_left fun same => by simp [same, digits.2] at plain
    exact List.mem_cons_of_mem _ (ih free.2 second)
  | case6 d e rest _ _ ih =>
    rw [List.mem_cons, not_or] at free
    rcases behind ((behind member).resolve_left bare) with rfl | later
    · exact List.mem_cons_self ..
    · exact List.mem_cons_of_mem _ (ih free.2 later)
  | case7 d rest _ _ ih =>
    rw [List.mem_cons, not_or] at free
    rcases behind member with rfl | later
    · exact List.mem_cons_self ..
    · exact List.mem_cons_of_mem _ (ih free.2 later)

/-- The name that the client takes from a value, beside the common name: both the value, or both from
its first component, or the value where the common name is empty. -/
theorem commonName_cases (value : Bytes) :
    (commonName value = value ∧ groupCn value = value) ∨
      (∃ name, commonName value = name.takeWhile (· != comma) ∧
        groupCn value = componentText name) ∨
      comma ∉ commonName value ∧ quote ∉ commonName value ∧ 0 ∉ commonName value := by
  by_cases shape : ∃ c n name, value = c :: n :: 0x3D :: name
  · obtain ⟨c, n, name, rfl⟩ := shape
    simp only [commonName, groupCn]
    by_cases distinguished : (c = 0x43 ∨ c = 0x63) ∧ (n = 0x4E ∨ n = 0x6E)
    · rw [if_pos distinguished]
      by_cases none : name = []
      · rw [if_neg fun all => all.1 none, none]
        refine .inr (.inr ?_)
        obtain ⟨rfl | rfl, rfl | rfl⟩ := distinguished <;> decide
      · rw [if_pos ⟨none, distinguished⟩]
        exact .inr (.inl ⟨name, rfl, rfl⟩)
    · rw [if_neg distinguished, if_neg fun all => distinguished all.2]
      exact .inl ⟨rfl, rfl⟩
  · have named : commonName value = value := by
      unfold commonName
      split
      · next c n name => exact (shape ⟨c, n, name, rfl⟩).elim
      · rfl
    have grouped : groupCn value = value := by
      unfold groupCn
      split
      · next c n name => exact (shape ⟨c, n, name, rfl⟩).elim
      · rfl
    exact .inl ⟨named, grouped⟩

/-- A name without commas is written without commas, and holds the quotes and terminators in it. -/
theorem commonName_plain {value : Bytes} (free : comma ∉ groupCn value) :
    comma ∉ commonName value ∧ (quote ∈ commonName value → quote ∈ groupCn value) ∧
      (0 ∈ commonName value → 0 ∈ groupCn value) := by
  rcases commonName_cases value with
    ⟨same, same'⟩ | ⟨name, written, meant⟩ | ⟨noComma, noQuote, noZero⟩
  · rw [same'] at free ⊢
    rw [same]
    exact ⟨free, id, id⟩
  · rw [meant] at free ⊢
    rw [written]
    refine ⟨fun member => by simpa using List.mem_takeWhile_imp member, ?_, ?_⟩
    · exact componentText_kept free (by decide) (by decide)
    · exact componentText_kept free (by decide) (by decide)
  · exact ⟨noComma, fun member => (noQuote member).elim, fun member => (noZero member).elim⟩

/-! ## The text of the names -/

/-- What a token shows of the names that the client has joined. -/
def shownNames (joined : Bytes) : Bytes := (snprintf 1024 (cString joined)).takeWhile (· != quote)

section Values

variable {values : List Bytes}

/-- Names that fit hold no separator. -/
theorem NamesFit.free (fit : NamesFit values) : ∀ name ∈ values.map groupCn, comma ∉ name :=
  List.forall_mem_map.mpr fun value member => (fit.plain value member).1

/-- The first of names that fit is written with a character. -/
theorem NamesFit.tight (fit : NamesFit values) : (values.map commonName).head? ≠ some [] := by
  intro empty
  cases values with
  | nil => cases empty
  | cons value values =>
    rw [List.map_cons, List.head?_cons, Option.some.injEq] at empty
    have same := fit.whole
    have first := fit.first
    have free := (fit.plain value (List.mem_cons_self ..)).1
    rw [List.map_cons, List.map_cons, intercalate_items, intercalate_items, empty,
      List.nil_append] at same
    rw [List.map_cons, List.head?_cons, ne_eq, Option.some.injEq] at first
    obtain ⟨c, name, shape⟩ := List.exists_cons_of_ne_nil first
    rw [shape] at same free
    -- behind an empty text there is nothing or a separator
    cases values with
    | nil => simp at same
    | cons next values =>
      rw [List.map_cons, List.flatMap_cons, List.cons_append, List.take_succ_cons,
        List.cons_append] at same
      exact free ((List.cons.inj same).1 ▸ List.mem_cons_self ..)

/-- Names that fit are written into the token as they are joined, without quotes and terminators. -/
theorem NamesFit.written (fit : NamesFit values) :
    snprintf 1024 (cString (joinedTight comma (values.map commonName))) =
      [comma].intercalate (values.map groupCn) ∧
        quote ∉ [comma].intercalate (values.map groupCn) := by
  have closed : quote ∉ [comma].intercalate (values.map groupCn) :=
    intercalate_free (by decide) (List.forall_mem_map.mpr fun value member =>
      (fit.plain value member).2.1)
  have terminated : 0 ∉ [comma].intercalate (values.map groupCn) :=
    intercalate_free (by decide) (List.forall_mem_map.mpr fun value member =>
      (fit.plain value member).2.2)
  refine ⟨?_, closed⟩
  rw [joinedTight_eq fit.tight, snprintf, cString, List.take_takeWhile, fit.whole]
  exact cString_terminated terminated

/-- The names that are listed hold no separators, no quotes and no terminators. -/
theorem plain_of_listed {joined name : Bytes} (member : name ∈ listed comma (shownNames joined)) :
    comma ∉ name ∧ quote ∉ name ∧ 0 ∉ name := by
  refine ⟨stop_notMem_part (listed_subset member), fun inside => ?_, fun inside => ?_⟩
  · have shown := List.mem_takeWhile_imp (mem_of_mem_listed member inside)
    simp at shown
  · have shown := (List.takeWhile_prefix _).subset (mem_of_mem_listed member inside)
    exact zero_notMem_cString joined (List.mem_of_mem_take shown)

/-- Joined names are listed as they are exactly when they fit. -/
theorem listed_shown_iff (some : values ≠ []) :
    listed comma (shownNames (joinedTight comma (values.map commonName))) = values.map groupCn ↔
      NamesFit values := by
  constructor
  · intro same
    have plain : ∀ value ∈ values, comma ∉ groupCn value ∧ quote ∉ groupCn value ∧
        0 ∉ groupCn value := fun value member =>
      plain_of_listed (same ▸ List.mem_map_of_mem member)
    have written (value : Bytes) (member : value ∈ values) := commonName_plain (plain value member).1
    have free : ∀ text ∈ values.map commonName, comma ∉ text :=
      List.forall_mem_map.mpr fun value member => (written value member).1
    have starts : shownNames (joinedTight comma (values.map commonName)) <+:
        joinedTight comma (values.map commonName) :=
      (List.takeWhile_prefix _).trans ((List.take_prefix _ _).trans (List.takeWhile_prefix _))
    obtain ⟨tight, first, last, joined⟩ :=
      listed_tight free starts (by simp) (by simpa using some) same
    refine ⟨plain, first, last, ?_⟩
    -- the names that are shown hold all quotes and terminators that are written
    have closed : quote ∉ [comma].intercalate (values.map commonName) :=
      intercalate_free (by decide) (List.forall_mem_map.mpr fun value member inside =>
        (plain value member).2.1 ((written value member).2.1 inside))
    have terminated : 0 ∉ [comma].intercalate (values.map commonName) :=
      intercalate_free (by decide) (List.forall_mem_map.mpr fun value member inside =>
        (plain value member).2.2 ((written value member).2.2 inside))
    rw [joined, joinedTight_eq tight, shownNames, cString_terminated terminated, snprintf,
      List.takeWhile_eq_self_iff.mpr]
    exact accepts_of_notMem fun inside => closed (List.mem_of_mem_take inside)
  · intro fit
    obtain ⟨written, closed⟩ := fit.written
    rw [shownNames, written, List.takeWhile_eq_self_iff.mpr (accepts_of_notMem closed),
      listed_joined fit.free fit.last]

end Values

/-! ## The token -/

section Token

variable {sign : Bytes → Option Bytes} {verify : Bytes → Bytes → Bool} {now ttl : Int}

/-- The groups of a token fit their buffer and are a C string. -/
theorem tokenGroups_fits (login : Login) (found : Option Bytes) :
    0 ∉ tokenGroups login.groups found ∧ (tokenGroups login.groups found).length < 1024 := by
  cases found with
  | none => exact ⟨login.terminated.2, login.short.2⟩
  | some names =>
    rw [tokenGroups]
    split
    · exact ⟨login.terminated.2, login.short.2⟩
    · refine ⟨fun inside => zero_notMem_cString names (List.mem_of_mem_take inside), ?_⟩
      rw [snprintf, List.length_take]
      omega

/-- A token is verified to its groups up to their first quote; without a quote it is accepted until
its expiry. -/
theorem ldapToken_verified (signs : Signs sign verify) (login : Login) (found : Option Bytes)
    (time counter address : UInt64) (issued : 0 ≤ now) (lasting : 0 ≤ ttl)
    (range : now + ttl < 9223372036854775808) :
    ∃ token claims, ldapToken sign now (generateJti time counter address) login found ttl =
        .done (some token) ∧
      claims.groups = (tokenGroups login.groups found).takeWhile (· != quote) ∧
      (quote ∉ tokenGroups login.groups found → claims.exp = now + ttl) ∧
      ∀ later, jwtVerify verify later token = acceptClaims later claims := by
  obtain ⟨terminated, short⟩ := tokenGroups_fits login found
  have digits := jtiDigits_free 16 (time ^^^ (counter * 2654435761) ^^^ address)
  have jtiFree : quote ∉ generateJti time counter address := fun member => (digits _ member).1 rfl
  have jtiString : 0 ∉ generateJti time counter address := fun member => (digits _ member).2 rfl
  have jtiShort : (generateJti time counter address).length ≤ 63 := by
    rw [generateJti, jtiDigits_length]
    omega
  rw [ldapToken]
  generalize generateJti time counter address = jti at *
  generalize tokenGroups login.groups found = groups at *
  obtain ⟨token, created, verified⟩ := jwtCreate_readClaims signs
    ⟨login.sub, groups, login.terminated.1, terminated⟩ login.short.1 short jtiString jtiShort issued
    lasting range
  refine ⟨token, _, created, ?_, fun groupsFree => ?_, verified⟩
  · simp only [readClaims]
    by_cases none : groups = []
    · rw [none, read_noGroups login.closed.1 jtiFree issued (by omega)]
      rfl
    · obtain ⟨after, read⟩ := read_groups login.closed.1 none jti now (now + ttl)
      have cut := (List.takeWhile_prefix (l := groups) (· != quote)).length_le
      rw [read, takeWhile_delimited, List.take_of_length_le (by omega)]
  · have times := read_times login.closed.1 groupsFree jtiFree issued (by omega)
      (by omega : 0 ≤ now + ttl) range
    simp only [readClaims, times.2.1, Option.getD_some]

/-- A verified token gives exactly some names when its groups list them; groups with a quote are cut
there. -/
theorem keepsGroups_iff (signs : Signs sign verify) (login : Login) (found : Option Bytes)
    (time counter address : UInt64) (issued : 0 ≤ now) (lasting : 0 ≤ ttl)
    (range : now + ttl < 9223372036854775808) {later : Int} (early : later ≤ now + ttl)
    (names : List Bytes) :
    (quote ∉ tokenGroups login.groups found →
      (KeepsGroups verify later names
          (ldapToken sign now (generateJti time counter address) login found ttl) ↔
        listed comma (tokenGroups login.groups found) = names)) ∧
    (KeepsGroups verify later names
        (ldapToken sign now (generateJti time counter address) login found ttl) →
      listed comma ((tokenGroups login.groups found).takeWhile (· != quote)) = names) := by
  obtain ⟨token, claims, created, groups, expiry, verified⟩ :=
    ldapToken_verified signs login found time counter address issued lasting range
  have only : KeepsGroups verify later names
      (ldapToken sign now (generateJti time counter address) login found ttl) →
        listed comma ((tokenGroups login.groups found).takeWhile (· != quote)) = names := by
    rintro ⟨other, accepted, created', verified', exact⟩
    obtain rfl : token = other := by simpa using created.symm.trans created'
    rw [verified, acceptClaims] at verified'
    split at verified'
    · cases verified'
    · obtain rfl := Option.some.inj verified'
      rw [← groups]
      exact exact.single
  refine ⟨fun free => ⟨fun keeps => ?_, fun same => ?_⟩, only⟩
  · have whole := only keeps
    rwa [List.takeWhile_eq_self_iff.mpr (accepts_of_notMem free)] at whole
  · rw [List.takeWhile_eq_self_iff.mpr (accepts_of_notMem free)] at groups
    refine ⟨token, claims, created, ?_, (exactGroups_iff claims names).mpr (groups ▸ same)⟩
    rw [verified, acceptClaims, if_neg]
    intro expired
    rw [expiry free] at expired
    omega

/-! ## The names of an entry -/

/-- What the client finds in an entry. -/
theorem foundGroups_eq (beyond : Nat → UInt8) (groupAttr : Bytes) (entry : Entry) :
    foundGroups beyond groupAttr entry =
      if entry.message.length ≤ 8192 then collect none (entry.values groupAttr) else none := by
  have received := @ldapRecvMessage_written 8192 (by omega) berSequence
    (Library.Ber.writeElement berInteger entry.id ++
      Library.Ber.writeElement ldapSearchEntry entry.body) []
  rw [List.append_nil] at received
  change (ldapRecvMessage whole 8192 entry.message).1 =
    if entry.message.length ≤ 8192 then some entry.message else none at received
  rw [foundGroups, received]
  split
  · next fits =>
    rw [Option.bind_some, entryGroups, if_pos (hasTag_message beyond entry (by omega)),
      parseSearchEntryAttr_message beyond entry groupAttr (by omega)]
  · rfl

/-- Where the client finds names they are written into the token, and elsewhere the requested groups
are. -/
theorem tokenGroups_found (beyond : Nat → UInt8) (groupAttr : Bytes) (entry : Entry)
    (requested : Bytes) :
    tokenGroups requested (foundGroups beyond groupAttr entry) =
      if entry.message.length ≤ 8192 ∧
          cString (joinedTight comma ((entry.values groupAttr).map commonName)) ≠ [] then
        snprintf 1024 (cString (joinedTight comma ((entry.values groupAttr).map commonName)))
      else requested := by
  rw [foundGroups_eq]
  by_cases fits : entry.message.length ≤ 8192
  · rw [if_pos fits]
    cases entry.values groupAttr with
    | nil => simp [collect, tokenGroups, joinedTight, cString]
    | cons value values =>
      rw [collect_none, collect_eq, tokenGroups]
      simp only [fits, true_and, ne_eq, ite_not]
  · simp [fits, tokenGroups]

/-- Names are found where the text of the client is not an empty C string. -/
theorem namesFound_iff (entry : Entry) (groupAttr : Bytes) :
    NamesFound entry groupAttr ↔ entry.message.length ≤ 8192 ∧
      cString (joinedTight comma ((entry.values groupAttr).map commonName)) ≠ [] := by
  rw [NamesFound, ← @joinedTight_head UInt8 _ comma]
  refine and_congr_right fun _ => ?_
  cases joinedTight comma ((entry.values groupAttr).map commonName) with
  | nil => simp [cString]
  | cons c text =>
    by_cases zero : c = 0
    · simp [cString, zero]
    · simp [cString, zero]

/-- **A token of a login over LDAP gives exactly the common names of the entry if and only if they
survive: they are found and fit, or none is found and the requested groups are the names.** -/
theorem ldapToken_keepsGroups_iff (signs : Signs sign verify) (login : Login) (entry : Entry)
    (groupAttr : Bytes) (beyond : Nat → UInt8) (time counter address : UInt64) (issued : 0 ≤ now)
    (lasting : 0 ≤ ttl) (range : now + ttl < 9223372036854775808) {later : Int}
    (early : later ≤ now + ttl) :
    KeepsGroups verify later (groupCns entry groupAttr)
        (ldapToken sign now (generateJti time counter address) login
          (foundGroups beyond groupAttr entry) ttl) ↔
      GroupsSurvive login.groups entry groupAttr := by
  obtain ⟨whole, only⟩ := keepsGroups_iff signs login (foundGroups beyond groupAttr entry) time counter
    address issued lasting range early (groupCns entry groupAttr)
  rw [tokenGroups_found] at whole only
  by_cases found : NamesFound entry groupAttr
  · rw [if_pos ((namesFound_iff entry groupAttr).mp found)] at whole only
    have some : entry.values groupAttr ≠ [] := fun none => by
      obtain ⟨-, c, first, -⟩ := found
      simp [none] at first
    have survive : GroupsSurvive login.groups entry groupAttr ↔
        NamesFit (entry.values groupAttr) :=
      ⟨fun survive => survive.found found, fun fit => ⟨fun _ => fit, fun none => (none found).elim⟩⟩
    rw [survive]
    constructor
    · exact fun keeps => (listed_shown_iff some).mp (only keeps)
    · intro fit
      obtain ⟨written, closed⟩ := fit.written
      rw [written] at whole
      rw [whole closed]
      exact listed_joined fit.free fit.last
  · rw [if_neg (mt (namesFound_iff entry groupAttr).mpr found)] at whole only
    rw [whole login.closed.2]
    exact ⟨fun same => ⟨fun present => (found present).elim, fun _ => same⟩,
      fun survive => survive.missing found⟩

end Token

/-! ## Two entries -/

/-- An entry with group names. -/
def groupEntry (vals : List Bytes) : Entry where
  id := [2]
  name := ascii "uid=alice,ou=people"
  attributes := [⟨ascii "uid", [ascii "alice"]⟩, ⟨ascii "memberOf", vals⟩]
  numbered := by decide

/-- Its texts are C strings. -/
theorem aliceLogin_terminated : 0 ∉ ascii "alice" ∧ 0 ∉ ([] : Bytes) := by decide

/-- They have no quotes. -/
theorem aliceLogin_closed : quote ∉ ascii "alice" ∧ quote ∉ ([] : Bytes) := by decide

/-- They are short. -/
theorem aliceLogin_short : (ascii "alice").length < 128 ∧ (([] : Bytes)).length < 1024 := by decide

/-- A login that asks for no groups. -/
def aliceLogin : Login where
  sub := ascii "alice"
  groups := []
  terminated := aliceLogin_terminated
  closed := aliceLogin_closed
  short := aliceLogin_short

/-- An entry with two groups. -/
def teamsEntry : Entry :=
  groupEntry [ascii "CN=core,OU=groups,DC=acme", ascii "cn=release,OU=groups,DC=acme"]

/-- What the token carries of them. -/
def aliceTeams : TokenIdentity := ⟨ascii "alice", ascii "core,release", by decide⟩

/-- The Ed25519 signature of the message for `aliceTeams` under the key whose seed is zero. -/
def aliceTeamsSignature : Bytes :=
  [0x6F, 0xD6, 0xD5, 0x66, 0xBB, 0xCA, 0x0B, 0x03, 0xA3, 0x72, 0x41, 0x9C, 0x37, 0xE1, 0xC5, 0x24,
    0x07, 0xA5, 0x15, 0x6A, 0xBA, 0x34, 0x5C, 0xFC, 0x1D, 0xC9, 0xB1, 0xE8, 0x9B, 0x82, 0x25, 0x4B,
    0x9F, 0xE4, 0x0F, 0x0C, 0x04, 0x00, 0x17, 0xAA, 0x59, 0x71, 0x62, 0x06, 0x24, 0x8D, 0x15, 0x18,
    0xCB, 0x8D, 0x38, 0x4D, 0x56, 0xE1, 0x37, 0xEC, 0x4F, 0x87, 0xD1, 0x65, 0x6E, 0xE4, 0x04, 0x07]

/-- The token of a user with two groups gives both. -/
theorem ldapToken_keepsGroups_teams :
    KeepsGroups (recordedVerify (identityMessage aliceTeams) aliceTeamsSignature) (1700000000 + 3600)
      [ascii "core", ascii "release"]
      (ldapToken (recordedSign (identityMessage aliceTeams) aliceTeamsSignature) 1700000000
        (generateJti 1700000000 1 0x7FFC00000000) aliceLogin
        (foundGroups (fun _ => 0) (ascii "memberof") teamsEntry) 3600) := by
  have names : groupCns teamsEntry (ascii "memberof") = [ascii "core", ascii "release"] := by
    decide +kernel
  have fit : NamesFit (teamsEntry.values (ascii "memberof")) :=
    ⟨by decide +kernel, by decide +kernel, by decide +kernel, by decide +kernel⟩
  have survive : GroupsSurvive aliceLogin.groups teamsEntry (ascii "memberof") :=
    ⟨fun _ => fit, fun missing => (missing ⟨by decide +kernel, by decide +kernel⟩).elim⟩
  rw [← names]
  exact (ldapToken_keepsGroups_iff (recorded_signs (by decide)) aliceLogin teamsEntry
    (ascii "memberof") (fun _ => 0) 1700000000 1 0x7FFC00000000 (by decide) (by decide) (by decide)
    (Int.le_refl _)).mpr survive

/-- A group whose name holds a comma, which is escaped in its distinguished name. -/
def salesEntry : Entry := groupEntry [ascii "CN=Sales\\, EMEA,OU=groups"]

/-- What the token carries of it. -/
def aliceSales : TokenIdentity := ⟨ascii "alice", ascii "Sales\\", by decide⟩

/-- The Ed25519 signature of the message for `aliceSales` under the key whose seed is zero. -/
def aliceSalesSignature : Bytes :=
  [0x09, 0x0F, 0x8E, 0xCF, 0x1F, 0x9A, 0xBA, 0xF4, 0xCD, 0xDF, 0xEA, 0x96, 0x09, 0xEB, 0x8D, 0x68,
    0x1D, 0xC9, 0x06, 0x48, 0xCD, 0xE3, 0xC5, 0xE7, 0xFE, 0xDC, 0x8E, 0x6D, 0xDB, 0x95, 0x93, 0xB6,
    0xB1, 0x9A, 0x4E, 0xAF, 0xF8, 0x0B, 0x3F, 0xC6, 0x2E, 0x7E, 0xE7, 0x57, 0xA1, 0x01, 0xC4, 0xB3,
    0x15, 0x4B, 0x51, 0x57, 0x62, 0xBA, 0x3D, 0x98, 0x11, 0xED, 0x35, 0x03, 0x7A, 0x2C, 0x94, 0x08]

/-- Its texts are C strings. -/
theorem coreLogin_terminated : 0 ∉ ascii "alice" ∧ 0 ∉ ascii "core" := by decide

/-- They have no quotes. -/
theorem coreLogin_closed : quote ∉ ascii "alice" ∧ quote ∉ ascii "core" := by decide

/-- They are short. -/
theorem coreLogin_short : (ascii "alice").length < 128 ∧ (ascii "core").length < 1024 := by decide

/-- A login that asks for a group. -/
def coreLogin : Login where
  sub := ascii "alice"
  groups := ascii "core"
  terminated := coreLogin_terminated
  closed := coreLogin_closed
  short := coreLogin_short

/-- A name is cut at an escaped comma, and a user without groups gets the one that was asked for. -/
theorem ldapToken_losesGroups :
    ¬ KeepsGroups (recordedVerify (identityMessage aliceSales) aliceSalesSignature)
        (1700000000 + 3600) (groupCns salesEntry (ascii "memberOf"))
        (ldapToken (recordedSign (identityMessage aliceSales) aliceSalesSignature) 1700000000
          (generateJti 1700000000 1 0x7FFC00000000) aliceLogin
          (foundGroups (fun _ => 0) (ascii "memberOf") salesEntry) 3600) ∧
      ¬ KeepsGroups (recordedVerify (identityMessage aliceCore) aliceCoreSignature)
        (1700000000 + 3600) (groupCns (groupEntry []) (ascii "memberOf"))
        (ldapToken (recordedSign (identityMessage aliceCore) aliceCoreSignature) 1700000000
          (generateJti 1700000000 1 0x7FFC00000000) coreLogin
          (foundGroups (fun _ => 0) (ascii "memberOf") (groupEntry [])) 3600) := by
  constructor
  · intro keeps
    have listed := (keepsGroups_iff (recorded_signs (by decide)) aliceLogin
      (foundGroups (fun _ => 0) (ascii "memberOf") salesEntry) 1700000000 1 0x7FFC00000000
      (by decide) (by decide) (by decide) (Int.le_refl _) _).2 keeps
    revert listed
    decide +kernel
  · intro keeps
    have listed := (keepsGroups_iff (recorded_signs (by decide)) coreLogin
      (foundGroups (fun _ => 0) (ascii "memberOf") (groupEntry [])) 1700000000 1 0x7FFC00000000
      (by decide) (by decide) (by decide) (Int.le_refl _) _).2 keeps
    revert listed
    decide +kernel

end Cookbook.Server
