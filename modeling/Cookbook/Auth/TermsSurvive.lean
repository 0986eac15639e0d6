import Cookbook.Auth.TokenTerms

/-!
# Which tokens keep the terms of their policy

A token is created from a resolved policy and verified at any later time. The result keeps the terms
of the policy when the token is accepted exactly until its expiry, and the grants, the exclusions
and the expiry are read back as they were written. This holds exactly when the policy text was
written whole, the head of the payload fits its buffer, no name is taken for the expiry, and the
reader's buffer takes the payload up to its closing brace.
-/
namespace Cookbook.Auth

open Library.Text Policy

/-! ## Signed payloads -/

/-- The scheme signs every message with 64 bytes that verify. -/
def Signs (sign : Bytes → Option Bytes) (verify : Bytes → Bytes → Bool) : Prop :=
  ∀ message, ∃ sig, sign message = some sig ∧ sig.length = 64 ∧ verify sig message = true

/-- The claims read from a payload: the reader's buffer holds 4095 characters of it. -/
def decodedClaims (payload : Bytes) : JwtClaims := readClaims (cString (payload.take 4095))

variable {sign : Bytes → Option Bytes} {verify : Bytes → Bytes → Bool}

/-- A sealed payload is verified, decoded and checked for its expiry. -/
theorem jwtVerify_sealToken (signs : Signs sign verify) {payload : Bytes} (size : Nat)
    (room : 4 * ((payload.length + 2) / 3) ≤ size) (nonempty : payload ≠ []) :
    ∃ token, sealToken sign (base64urlEncode jwtHeader 256) (base64urlEncode payload size) =
        some token ∧
      ∀ now, jwtVerify verify now token = acceptClaims now (decodedClaims payload) := by
  obtain ⟨_, hdrFree, hdrNonempty⟩ := base64url_roundTrip jwtHeader 256 0 (by decide)
  obtain ⟨decoded, payFree, payNonempty⟩ := base64url_roundTrip payload size 4095 room
  generalize base64urlEncode jwtHeader 256 = hdr at *
  generalize base64urlEncode payload size = pay at *
  obtain ⟨sig, signed, length, verified⟩ := signs (hdr ++ dot :: pay)
  obtain ⟨sigDecoded, _, sigNonempty⟩ := base64url_roundTrip sig 128 64 (by omega)
  have sigFound : sig ≠ [] := fun empty => by simp [empty] at length
  obtain ⟨sigB64, sigShape⟩ : ∃ text, base64urlEncode sig 128 = text := ⟨_, rfl⟩
  rw [sigShape] at sigDecoded sigNonempty
  refine ⟨hdr ++ dot :: pay ++ dot :: sigB64, ?_, fun now => ?_⟩
  · have present : ¬ (hdr = [] ∨ pay = []) :=
      fun missing => missing.elim (hdrNonempty (by decide)) (payNonempty nonempty)
    simp only [sealToken, if_neg present, signed, Option.bind_some, sigShape,
      if_neg (sigNonempty sigFound)]
  · have first : strchr dot (hdr ++ dot :: pay ++ dot :: sigB64) =
        some (dot :: (pay ++ dot :: sigB64)) := by
      rw [List.append_assoc, List.cons_append, strchr_stop _ hdrFree]
    have second : strchr dot (pay ++ dot :: sigB64) = some (dot :: sigB64) := strchr_stop _
      payFree
    have input : (hdr ++ dot :: pay ++ dot :: sigB64).take
        ((hdr ++ dot :: pay ++ dot :: sigB64).length - (dot :: sigB64).length) =
          hdr ++ dot :: pay := by
      rw [List.length_append, Nat.add_sub_cancel, List.take_left]
    have body : (pay ++ dot :: sigB64).take
        ((pay ++ dot :: sigB64).length - (dot :: sigB64).length) = pay := by
      rw [List.length_append, Nat.add_sub_cancel, List.take_left]
    have whole : sig.take 64 = sig := List.take_of_length_le (by omega)
    have kept : payload.take 4095 ≠ [] := by simpa using nonempty
    simp only [jwtVerify, first, second, input, body, List.drop_one, List.tail_cons, sigDecoded,
      whole, length, verified, decoded, ne_eq, not_true_eq_false, Bool.true_eq_false, if_false,
      if_neg kept, decodedClaims]

/-! ## Terms -/

/-- Who a token is for: C strings. -/
structure TokenIdentity where
  /-- The subject. -/
  sub : Bytes
  /-- The group names, empty when there are none. -/
  groups : Bytes
  /-- Neither holds a terminator. -/
  terminated : 0 ∉ sub ∧ 0 ∉ groups

/-- The token of a policy: its text is serialized and embedded. -/
def policyToken (sign : Bytes → Option Bytes) (now : Int) (jti : Bytes) (who : TokenIdentity)
    (policy : ResolvedPolicy) (ttl : Int) : Outcome (Option Bytes) :=
  (serializeEntries policy.grants policy.excludes).bind fun resolved =>
    jwtCreateV2 sign now jti who.sub who.groups resolved ttl

/-- The claims carry the policy and the expiry. -/
structure Carries (policy : ResolvedPolicy) (exp : Int) (claims : JwtClaims) : Prop where
  /-- The token is of the second version. -/
  version : claims.version = 2
  /-- The expiry is the one that was written. -/
  expiry : claims.exp = exp
  /-- The grants object is the one that was written. -/
  grants : claims.grantsJson = some (object policy.grantsBody)
  /-- The exclude object is the one that was written. -/
  exclude : claims.excludeJson = some (object policy.excludesBody)

/-- A creation inside its buffers whose token, if there is one, is accepted exactly until the expiry
and carries the policy. -/
structure KeepsTerms (verify : Bytes → Bytes → Bool) (policy : ResolvedPolicy) (exp : Int)
    (created : Outcome (Option Bytes)) : Prop where
  /-- No write falls outside a buffer. -/
  inside : created ≠ .overrun
  /-- The token is accepted exactly until the expiry. -/
  accepted : ∀ token, created = .done (some token) →
    ∀ now, (jwtVerify verify now token).isSome ↔ now ≤ exp
  /-- The claims of the token carry the policy. -/
  carried : ∀ token, created = .done (some token) →
    ∀ now, ∀ claims ∈ jwtVerify verify now token, Carries policy exp claims

/-- What a policy and an identity have to satisfy for the terms to survive. -/
structure TermsSurvive (sub groups jti : Bytes) (policy : ResolvedPolicy) (now exp : Int) :
    Prop where
  /-- The policy text was written whole. -/
  complete : MiddleFits policy.grants
  /-- The head of the payload fits the buffer that is sized by the policy text. -/
  headFits : (head sub groups jti).length < 512 + (policy.members.length + 2)
  /-- No granted or excluded prefix is `exp`. -/
  unnamed : ExpiryUnnamed policy
  /-- The reader's buffer takes the payload, perhaps without its closing brace. -/
  decoded : (payloadText sub groups jti policy.members now exp).length ≤ 4096

section Terms

variable {policy : ResolvedPolicy} {exp : Int}

/-- The terms are kept when the decoded claims carry them. -/
theorem keepsTerms_iff (signs : Signs sign verify) {payload : Bytes} (nonempty : payload ≠ [])
    (positive : 0 < exp) :
    KeepsTerms verify policy exp (.done (sealToken sign (base64urlEncode jwtHeader 256)
      (base64urlEncode payload (payload.length * 2 + 16)))) ↔
        Carries policy exp (decodedClaims payload) := by
  have room : 4 * ((payload.length + 2) / 3) ≤ payload.length * 2 + 16 := by omega
  obtain ⟨token, sealed, verified⟩ := jwtVerify_sealToken signs _ room nonempty
  rw [sealed]
  constructor
  · intro kept
    have accepted := (kept.accepted token rfl exp).mpr (Int.le_refl _)
    rw [verified] at accepted
    obtain ⟨claims, found⟩ := Option.isSome_iff_exists.mp accepted
    have same : decodedClaims payload = claims := by
      unfold acceptClaims at found
      split at found
      · cases found
      · exact Option.some.inj found
    exact same ▸ kept.carried token rfl exp claims ((verified exp).trans found)
  · intro carries
    refine ⟨nofun, fun other same now => ?_, fun other same now claims found => ?_⟩
    all_goals
      obtain rfl : token = other := by simpa using same
      rw [verified, acceptClaims, carries.expiry] at *
    · split
      · rename_i expired
        simpa using expired.2
      · rename_i fresh
        simp only [Option.isSome_some, true_iff]
        by_contra late
        exact fresh ⟨positive, by omega⟩
    · split at found
      · cases found
      · exact Option.some.inj found ▸ carries

/-- Claims with another expiry do not keep the terms. -/
theorem not_carries_of_exp {payload : Bytes}
    (other : (jsonGetInt (cString (payload.take 4095)) (ascii "exp")).getD 0 ≠ exp) :
    ¬ Carries policy exp (decodedClaims payload) := fun carries => other carries.expiry

end Terms

/-! ## Payloads without terminators -/

/-- A digit of an identifier closes no string and is no terminator. -/
theorem jtiDigits_free (count : Nat) (seed : UInt64) :
    ∀ c ∈ jtiDigits count seed, c ≠ quote ∧ c ≠ 0 := by
  have digit : ∀ value < 16, hexDigit value ≠ quote ∧ hexDigit value ≠ 0 := by decide
  have high (byte : UInt8) : byte.toNat / 16 < 16 := by
    have small := byte.toNat_lt
    omega
  induction count generalizing seed with
  | zero => simp [jtiDigits]
  | succ count ih =>
    intro c member
    simp only [jtiDigits, List.mem_cons] at member
    rcases member with rfl | rfl | later
    · exact digit _ (high _)
    · exact digit _ (Nat.mod_lt _ (by decide))
    · exact ih _ c later

/-- A numeral is no terminator. -/
theorem decimal_terminated {number : Int} (low : 0 ≤ number) : 0 ∉ decimal number := by
  obtain ⟨number, rfl⟩ := Int.eq_ofNat_of_zero_le low
  exact fun member => absurd ((decimalNat_spec number).2.1 _ member).1 (by decide)

/-- A numeral closes no string. -/
theorem decimal_quoteFree {number : Int} (low : 0 ≤ number) : quote ∉ decimal number := by
  obtain ⟨number, rfl⟩ := Int.eq_ofNat_of_zero_le low
  exact fun member => absurd ((decimalNat_spec number).2.1 _ member).1 (by decide)

/-- The members of a policy hold no terminator. -/
theorem members_terminated (policy : ResolvedPolicy) :
    0 ∉ policy.grantsBody ∧ 0 ∉ policy.excludesBody ∧ 0 ∉ policy.members := by
  have grants : 0 ∉ policy.grantsBody := intercalate_free (by decide) fun item member => by
    obtain ⟨entry, inside, rfl⟩ := List.mem_map.mp member
    simp [grantItem, policy.terminated.1 entry inside]
  have excludes : 0 ∉ policy.excludesBody := intercalate_free (by decide) fun item member => by
    obtain ⟨name, inside, rfl⟩ := List.mem_map.mp member
    simp [excludeItem, policy.terminated.2 name inside, ascii]
  refine ⟨grants, excludes, ?_⟩
  simp [ResolvedPolicy.members, grants, excludes, grantsMarker, excludeMarker, ascii]

/-- The head holds no terminator. -/
theorem head_terminated (who : TokenIdentity) {jti : Bytes} (jtiString : 0 ∉ jti) :
    0 ∉ head who.sub who.groups jti := by
  obtain ⟨sub, groups⟩ := who.terminated
  by_cases none : who.groups = [] <;>
    simp [head, front, jsonWriteString, memberName, ascii, sub, groups, jtiString, none]

/-- A payload holds no terminator when its members hold none. -/
theorem payloadText_terminated (who : TokenIdentity) {jti members : Bytes} {now exp : Int}
    (jtiString : 0 ∉ jti) (membersString : 0 ∉ members) (nowLow : 0 ≤ now) (expLow : 0 ≤ exp) :
    0 ∉ payloadText who.sub who.groups jti members now exp := by
  simp [payloadText, head_terminated who jtiString, membersString, times, timesBefore, ascii,
    decimal_terminated nowLow, decimal_terminated expLow]

/-! ## Reading a payload -/

/-- A number member in a cut text is read from what is left of it, or missing. -/
theorem jsonGetInt_take {text key more : Bytes} (size : Nat)
    (search : strstr (memberName key) text = some (memberName key ++ more)) :
    jsonGetInt (text.take size) key = none ∨ jsonGetInt (text.take size) key =
      some (strtoll (more.take (size - (text.length - more.length)))) := by
  rcases strstr_take (by simp [memberName]) size search with missing | found
  · exact Or.inl (by simp [jsonGetInt, missing])
  · exact Or.inr (by simp [jsonGetInt, found])

/-- A cut text has no object that the whole text does not have. -/
theorem jsonExtractObject_take {text key : Bytes} (size : Nat)
    (absent : strstr (memberName key ++ [openBrace]) text = none) :
    jsonExtractObject (text.take size) key = none := by
  have missing : strstr (memberName key ++ [openBrace]) (text.take size) = none := by
    rw [strstr_none_iff] at absent ⊢
    exact fun occurs => absent (occurs.trans (List.take_prefix size text).isInfix)
  rw [jsonExtractObject, missing, Option.map_none]

section Reading

variable {who : TokenIdentity} {jti : Bytes} {policy : ResolvedPolicy} {now exp : Int}

/-- A payload that satisfies the conditions carries the terms. -/
theorem carries_of_survive (readable : Readable who.sub who.groups jti policy)
    (jtiString : 0 ∉ jti) (nowLow : 0 ≤ now) (expLow : 0 ≤ exp) (expHigh : exp < 9223372036854775808)
    (survive : TermsSurvive who.sub who.groups jti policy now exp) :
    Carries policy exp
      (decodedClaims (payloadText who.sub who.groups jti policy.members now exp)) := by
  have shape : payloadText who.sub who.groups jti policy.members now exp =
      head who.sub who.groups jti ++ (policy.members ++ timesBefore now (decimal exp)) ++
        [closeBrace] := by
    simp [payloadText, times, timesBefore]
  have short := survive.decoded
  rw [shape, List.length_append, List.length_singleton] at short
  obtain ⟨rest, kept⟩ : ∃ rest,
      (payloadText who.sub who.groups jti policy.members now exp).take 4095 =
        head who.sub who.groups jti ++
          (policy.members ++ timesBefore now (decimal exp ++ rest)) ∧
        ∀ c ∈ rest.head?, isDecimal c = false := by
    refine ⟨[closeBrace].take (4095 - (head who.sub who.groups jti ++
      (policy.members ++ timesBefore now (decimal exp))).length), ?_, ?_⟩
    · rw [shape, List.take_append, List.take_of_length_le (by omega)]
      simp [timesBefore]
    · intro c first
      have member := List.mem_of_mem_take (List.mem_of_mem_head? first)
      simp only [List.mem_singleton] at member
      subst member
      decide
  have whole : 0 ∉ (payloadText who.sub who.groups jti policy.members now exp).take 4095 :=
    fun member => payloadText_terminated who jtiString (members_terminated policy).2.2 nowLow
      expLow (List.mem_of_mem_take member)
  rw [decodedClaims, cString_terminated whole, kept.1]
  have members_shape (after : Bytes) : policy.members ++ after = grantsMarker ++
      (policy.grantsBody ++ closeBrace :: comma :: (excludeMarker ++
        (policy.excludesBody ++ closeBrace :: after))) := by
    simp [ResolvedPolicy.members]
  have version := find_version readable
    (policy.members ++ timesBefore now (decimal exp ++ rest))
  have grants := find_grants readable (comma :: (excludeMarker ++
    (policy.excludesBody ++ closeBrace :: timesBefore now (decimal exp ++ rest))))
  rw [← members_shape] at grants
  have exclude := find_exclude readable (timesBefore now (decimal exp ++ rest))
  have expiry := find_exp readable survive.unnamed nowLow (decimal exp ++ rest)
  refine ⟨?_, ?_, ?_, ?_⟩
  · simp only [readClaims, version, ↓reduceIte]
  · simp only [readClaims, jsonGetInt, expiry, Option.map_some, List.drop_left, Option.getD_some]
    exact strtoll_decimal exp rest (by omega) expHigh kept.2
  · simp only [readClaims, version, grants, ↓reduceIte]
  · simp only [readClaims, version, exclude, ↓reduceIte]

/-- A name taken for the expiry hides it. -/
theorem not_carries_of_named (readable : Readable who.sub who.groups jti policy)
    (jtiString : 0 ∉ jti) (nowLow : 0 ≤ now) (positive : 0 < exp)
    (named : ¬ ExpiryUnnamed policy) :
    ¬ Carries policy exp
      (decodedClaims (payloadText who.sub who.groups jti policy.members now exp)) := by
  refine not_carries_of_exp ?_
  have whole : 0 ∉ (payloadText who.sub who.groups jti policy.members now exp).take 4095 :=
    fun member => payloadText_terminated who jtiString (members_terminated policy).2.2 nowLow
      (Int.le_of_lt positive) (List.mem_of_mem_take member)
  obtain ⟨c, more, other, found⟩ := find_named readable named (times now exp)
  rw [cString_terminated whole]
  rw [← pass_head_exp readable] at found
  rcases jsonGetInt_take 4095 found with missing | read
  · change (jsonGetInt ((head who.sub who.groups jti ++ (policy.members ++ times now exp)).take
      4095) (ascii "exp")).getD 0 ≠ exp
    rw [missing, Option.getD_none]
    omega
  · change (jsonGetInt ((head who.sub who.groups jti ++ (policy.members ++ times now exp)).take
      4095) (ascii "exp")).getD 0 ≠ exp
    rw [read, Option.getD_some, strtoll_noNumber other]
    omega

/-- A payload that the reader cuts in front of its last digit loses the expiry. -/
theorem not_carries_of_long (readable : Readable who.sub who.groups jti policy)
    (jtiString : 0 ∉ jti) (nowLow : 0 ≤ now) (positive : 0 < exp)
    (unnamed : ExpiryUnnamed policy)
    (long : 4096 < (payloadText who.sub who.groups jti policy.members now exp).length) :
    ¬ Carries policy exp
      (decodedClaims (payloadText who.sub who.groups jti policy.members now exp)) := by
  refine not_carries_of_exp ?_
  have whole : 0 ∉ (payloadText who.sub who.groups jti policy.members now exp).take 4095 :=
    fun member => payloadText_terminated who jtiString (members_terminated policy).2.2 nowLow
      (Int.le_of_lt positive) (List.mem_of_mem_take member)
  rw [cString_terminated whole]
  have found : strstr (memberName (ascii "exp"))
      (payloadText who.sub who.groups jti policy.members now exp) = _ :=
    find_exp readable unnamed nowLow (decimal exp ++ [closeBrace])
  obtain ⟨number, rfl⟩ := Int.eq_ofNat_of_zero_le (Int.le_of_lt positive)
  rcases jsonGetInt_take 4095 found with missing | read
  · rw [missing, Option.getD_none]
    omega
  · rw [read, Option.getD_some]
    have suffix := (strstr_some found).1.length_le
    have digits : 0 < (decimalNat number).length :=
      List.length_pos_iff.mpr (decimalNat_spec number).1
    refine Int.ne_of_lt (strtoll_cut (by omega) ?_)
    simp only [decimal, List.length_append, List.length_singleton] at suffix ⊢
    omega

/-- A payload that ends inside its head has no expiry. -/
theorem not_carries_of_head (readable : Readable who.sub who.groups jti policy)
    (jtiString : 0 ∉ jti) (positive : 0 < exp) (size : Nat) :
    ¬ Carries policy exp (decodedClaims ((head who.sub who.groups jti).take size)) := by
  refine not_carries_of_exp ?_
  have whole : 0 ∉ ((head who.sub who.groups jti).take size).take 4095 := fun member =>
    head_terminated who jtiString (List.mem_of_mem_take (List.mem_of_mem_take member))
  have absent : strstr (memberName (ascii "exp")) (head who.sub who.groups jti) = none := by
    have passed := pass_head_exp readable []
    rwa [List.append_nil] at passed
  have missing : strstr (memberName (ascii "exp"))
      (((head who.sub who.groups jti).take size).take 4095) = none := by
    rw [strstr_none_iff] at absent ⊢
    rw [List.take_take]
    exact fun occurs => absent (occurs.trans (List.take_prefix _ _).isInfix)
  rw [cString_terminated whole, jsonGetInt, missing, Option.map_none, Option.getD_none]
  omega

/-- The members of a policy text that was cut between its two maps. -/
def cutMembers (policy : ResolvedPolicy) (kept : Nat) : Bytes :=
  grantsMarker ++ (policy.grantsBody ++ closeBrace :: comma :: excludeMarker.take kept)

/-- A cut policy text has no exclude object. -/
theorem not_carries_of_cut (readable : Readable who.sub who.groups jti policy)
    (jtiString : 0 ∉ jti) (nowLow : 0 ≤ now) (expLow : 0 ≤ exp) {kept : Nat}
    (low : 7 ≤ kept) (high : kept < 10) :
    ¬ Carries policy exp
      (decodedClaims (payloadText who.sub who.groups jti (cutMembers policy kept) now exp)) := by
  have membersString : 0 ∉ cutMembers policy kept := by
    have marker : 0 ∉ excludeMarker.take kept := fun member =>
      absurd (List.mem_of_mem_take member) (by decide)
    simp [cutMembers, (members_terminated policy).1, marker, grantsMarker, ascii]
  have whole : 0 ∉ (payloadText who.sub who.groups jti (cutMembers policy kept) now exp).take
      4095 := fun member => payloadText_terminated who jtiString membersString nowLow expLow
        (List.mem_of_mem_take member)
  have marker : excludeMarker = memberName (ascii "exclude") ++ [openBrace] := by decide
  have passed := pass_head who.sub who.groups (ascii "exclude") [openBrace] (by decide)
    (by decide) (by rw [← marker]; exact readable.clear.exclude) (Or.inl (by decide))
    readable.jtiFree (cutMembers policy kept ++ times now exp) rfl
  have behind := pass_grantsObject (ascii "exclude") [openBrace] (by decide) readable
    (fun _ _ => Or.inr rfl) (comma :: (excludeMarker.take kept ++ times now exp)) (fun _ => rfl)
  have shape : cutMembers policy kept ++ times now exp = grantsMarker ++
      (policy.grantsBody ++ closeBrace :: comma :: (excludeMarker.take kept ++ times now exp)) := by
    simp [cutMembers]
  have nowFree : quote ∉ decimal now := decimal_quoteFree nowLow
  have expFree : quote ∉ decimal exp ++ [closeBrace] := by
    simpa using decimal_quoteFree expLow
  have ends : strstr (memberName (ascii "exclude") ++ [openBrace])
      (decimal now ++ comma :: (ascii "\"exp\":" ++ (decimal exp ++ [closeBrace]))) = none := by
    rw [member_eq, strstr_run _ _ _ nowFree]
    have last := strstr_run (ascii "exclude" ++ quote :: (colon :: [openBrace])) _ [] expFree
    rw [List.append_nil] at last
    exact last
  have absent : strstr (memberName (ascii "exclude") ++ [openBrace])
      (payloadText who.sub who.groups jti (cutMembers policy kept) now exp) = none := by
    rw [payloadText, passed, shape, behind]
    obtain rfl | rfl | rfl : kept = 7 ∨ kept = 8 ∨ kept = 9 := by omega
    all_goals exact ends
  intro carries
  have found := carries.exclude
  simp only [decodedClaims, cString_terminated whole, readClaims,
    jsonExtractObject_take 4095 absent] at found
  split at found <;> cases found

end Reading

/-! ## Creation and verification -/

section Tokens

variable {who : TokenIdentity} {jti : Bytes} {policy : ResolvedPolicy} {now exp ttl : Int}

/-- A serialized policy is one object, whole or cut inside its exclude marker. -/
theorem serialized_shape (policy : ResolvedPolicy) :
    (MiddleFits policy.grants ∧ serializeEntries policy.grants policy.excludes =
      .done (openBrace :: (policy.members ++ [closeBrace]))) ∨
    (¬ MiddleFits policy.grants ∧ ∃ kept last, 7 ≤ kept ∧ kept < 10 ∧
      serializeEntries policy.grants policy.excludes =
        .done (openBrace :: (cutMembers policy kept ++ [last]))) := by
  by_cases complete : MiddleFits policy.grants
  · refine Or.inl ⟨complete, ?_⟩
    rw [serializeEntries_fits _ complete]
    simp [ResolvedPolicy.members, ResolvedPolicy.grantsBody, ResolvedPolicy.excludesBody]
  · obtain ⟨kept, low, high, cut⟩ := serializeEntries_cut policy.excludes complete
    refine Or.inr ⟨complete, kept - 3, middle.getD (kept - 1) 0, by omega, by omega, ?_⟩
    rw [cut]
    obtain rfl | rfl | rfl : kept = 10 ∨ kept = 11 ∨ kept = 12 := by omega
    all_goals
      simp [cutMembers, ResolvedPolicy.grantsBody, middle, excludeMarker, ascii]

/-- A token whose payload is written whole keeps the terms when the payload carries them. -/
theorem keepsTerms_whole {members : Bytes} {last : UInt8} (signs : Signs sign verify)
    (positive : 0 < now + ttl) (short : (times now (now + ttl)).length ≤ 53)
    (fits : (head who.sub who.groups jti).length < 512 + (members.length + 2)) :
    KeepsTerms verify policy (now + ttl)
        (jwtCreateV2 sign now jti who.sub who.groups (openBrace :: (members ++ [last])) ttl) ↔
      Carries policy (now + ttl)
        (decodedClaims (payloadText who.sub who.groups jti members now (now + ttl))) := by
  rw [jwtCreateV2, jwtPayloadV2_whole short fits, Outcome.bind_done]
  exact keepsTerms_iff signs (by simp [payloadText, head, front]) positive

/-- A token whose head does not fit does not keep the terms. -/
theorem not_keepsTerms_head {members : Bytes} {last : UInt8} (signs : Signs sign verify)
    (readable : Readable who.sub who.groups jti policy) (jtiString : 0 ∉ jti)
    (positive : 0 < now + ttl) (short : (times now (now + ttl)).length ≤ 53)
    (full : 512 + (members.length + 2) ≤ (head who.sub who.groups jti).length) :
    ¬ KeepsTerms verify policy (now + ttl)
      (jwtCreateV2 sign now jti who.sub who.groups (openBrace :: (members ++ [last])) ttl) := by
  rw [jwtCreateV2]
  rcases jwtPayloadV2_cut last short full with overrun | cut
  · rw [overrun]
    exact fun kept => kept.inside rfl
  · rw [cut, Outcome.bind_done, keepsTerms_iff signs (by simp [head, front]) positive]
    exact not_carries_of_head readable jtiString positive _

/-- A token keeps the terms of its policy exactly when policy, identity and payload satisfy the
conditions. The names in identity and operation letters are ones that cannot be taken for members:
the letters are plain, and subject and groups hold none of the member texts. -/
theorem policyToken_keepsTerms_iff (signs : Signs sign verify) (who : TokenIdentity)
    (policy : ResolvedPolicy) (time counter address : UInt64) (issued : 0 ≤ now)
    (lasting : 0 < ttl) (range : now + ttl < 9223372036854775808) (clear : IdentityClear who.sub who.groups)
    (plain : ∀ entry ∈ policy.grants, Plain entry.2) :
    KeepsTerms verify policy (now + ttl)
        (policyToken sign now (generateJti time counter address) who policy ttl) ↔
      TermsSurvive who.sub who.groups (generateJti time counter address) policy now
        (now + ttl) := by
  have jtiFree := jtiDigits_free 16 (time ^^^ (counter * 2654435761) ^^^ address)
  have jtiString : 0 ∉ generateJti time counter address := fun member => (jtiFree _ member).2 rfl
  have readable : Readable who.sub who.groups (generateJti time counter address) policy :=
    ⟨clear, fun member => (jtiFree _ member).1 rfl, plain⟩
  generalize generateJti time counter address = jti at *
  have short := times_length issued (by omega) (by omega : 0 ≤ now + ttl) range
  have positive : 0 < now + ttl := by omega
  rcases serialized_shape policy with ⟨complete, whole⟩ | ⟨cut, kept, last, low, high, shape⟩
  · rw [policyToken, whole, Outcome.bind_done]
    by_cases fits : (head who.sub who.groups jti).length < 512 + (policy.members.length + 2)
    · rw [keepsTerms_whole signs positive short fits]
      constructor
      · intro carries
        have unnamed : ExpiryUnnamed policy := by
          by_contra named
          exact not_carries_of_named readable jtiString issued positive named carries
        refine ⟨complete, fits, unnamed, ?_⟩
        by_contra long
        exact not_carries_of_long readable jtiString issued positive unnamed (by omega) carries
      · exact carries_of_survive readable jtiString issued (by omega) range
    · exact iff_of_false
        (not_keepsTerms_head signs readable jtiString positive short (by omega))
        (fun survive => fits survive.headFits)
  · refine iff_of_false ?_ fun survive => cut survive.complete
    rw [policyToken, shape, Outcome.bind_done]
    by_cases fits : (head who.sub who.groups jti).length <
        512 + ((cutMembers policy kept).length + 2)
    · rw [keepsTerms_whole signs positive short fits]
      exact not_carries_of_cut readable jtiString issued (by omega) low high
    · exact not_keepsTerms_head signs readable jtiString positive short (by omega)

end Tokens

/-! ## Recorded signatures -/

/-- A scheme that answers with the recorded signature of one message. -/
def recordedSign (message sig : Bytes) (asked : Bytes) : Option Bytes :=
  some (if asked = message then sig else List.replicate 64 0)

/-- The signatures that the scheme gives are the ones it accepts. -/
def recordedVerify (message sig : Bytes) (shown asked : Bytes) : Bool :=
  recordedSign message sig asked == some shown

/-- A recorded signature of 64 bytes makes a signing scheme. -/
theorem recorded_signs {message sig : Bytes} (length : sig.length = 64) :
    Signs (recordedSign message sig) (recordedVerify message sig) := by
  intro asked
  refine ⟨_, rfl, ?_, by simp [recordedVerify, recordedSign]⟩
  split
  · exact length
  · simp

/-- A subject without groups. -/
def alice : TokenIdentity := ⟨ascii "alice", [], by decide⟩

/-- A policy with one granted and one excluded prefix. -/
def nestedPolicy : ResolvedPolicy where
  grants := [(ascii "org.acme", ascii "r")]
  excludes := [ascii "org.acme.secret"]
  grantsPlain := by decide
  excludesPlain := by decide
  terminated := by decide

/-- The text that is signed for a policy granted to `alice` at a fixed time for one hour. -/
def aliceMessage (policy : ResolvedPolicy) : Bytes :=
  let payload := payloadText alice.sub alice.groups (generateJti 1700000000 1 0x7FFC00000000)
    policy.members 1700000000 1700003600
  base64urlEncode jwtHeader 256 ++ dot :: base64urlEncode payload (payload.length * 2 + 16)

/-- The Ed25519 signature of the message for `nestedPolicy` under the key whose seed is zero. -/
def nestedSignature : Bytes :=
  [0xB7, 0x54, 0xAD, 0xC9, 0xC9, 0xFD, 0xC6, 0xEC, 0xB3, 0xF2, 0x3D, 0x2D, 0xCC, 0xFF, 0xB7, 0x35,
    0xF3, 0x7D, 0x1A, 0x84, 0x87, 0x65, 0xDC, 0xCB, 0xA9, 0x80, 0x25, 0x9C, 0xCB, 0x66, 0xF8, 0xEA,
    0xF7, 0x77, 0x8F, 0x59, 0xD4, 0x38, 0x06, 0xBA, 0xFB, 0x4F, 0x52, 0x7B, 0x55, 0xB4, 0xBD, 0x07,
    0x2F, 0x03, 0x22, 0xF8, 0xD6, 0x76, 0xCA, 0x5A, 0x47, 0xD3, 0xA1, 0x4F, 0x71, 0xE8, 0x30, 0x06]

/-- The token for `nestedPolicy` keeps its terms. -/
theorem policyToken_keepsTerms_nested :
    KeepsTerms (recordedVerify (aliceMessage nestedPolicy) nestedSignature) nestedPolicy (1700000000 + 3600)
      (policyToken (recordedSign (aliceMessage nestedPolicy) nestedSignature) 1700000000
        (generateJti 1700000000 1 0x7FFC00000000) alice nestedPolicy 3600) :=
  (policyToken_keepsTerms_iff (recorded_signs (by decide)) alice nestedPolicy 1700000000 1
    0x7FFC00000000 (by omega) (by omega) (by omega)
    ⟨by decide +kernel, by decide +kernel, by decide +kernel, by decide +kernel⟩
    (by decide)).mpr ⟨by decide, by decide +kernel, ⟨by decide, by decide⟩, by decide +kernel⟩

/-- A policy that grants a prefix named like the expiry. -/
def expPolicy : ResolvedPolicy where
  grants := [(ascii "exp", ascii "r")]
  excludes := []
  grantsPlain := by decide
  excludesPlain := by decide
  terminated := by decide

/-- The Ed25519 signature of the message for `expPolicy` under the same key. -/
def expSignature : Bytes :=
  [0xE9, 0x23, 0x05, 0xB2, 0x88, 0x7B, 0x52, 0x73, 0x48, 0xCD, 0xF4, 0x03, 0x8C, 0x3D, 0xF5, 0xA2,
    0xB9, 0xCD, 0x49, 0xF9, 0xC4, 0x3D, 0x70, 0xD1, 0x37, 0xFD, 0x7F, 0x9C, 0xC8, 0xD2, 0x29, 0xC0,
    0x22, 0x4E, 0x0F, 0x48, 0xFB, 0x9B, 0x86, 0x36, 0x14, 0xA5, 0xF4, 0x54, 0xE1, 0xC6, 0x97, 0xB8,
    0x02, 0xD3, 0xAF, 0x62, 0x93, 0xE2, 0x8C, 0xEB, 0x3C, 0x0D, 0x3B, 0x68, 0x40, 0xAB, 0xB4, 0x01]

/-- The token for `expPolicy` is still accepted years after its expiry. -/
theorem policyToken_keepsNoExpiry :
    ¬ KeepsTerms (recordedVerify (aliceMessage expPolicy) expSignature) expPolicy
      (1700000000 + 3600) (policyToken (recordedSign (aliceMessage expPolicy) expSignature)
        1700000000 (generateJti 1700000000 1 0x7FFC00000000) alice expPolicy 3600) := by
  intro kept
  have created : ∃ token, policyToken (recordedSign (aliceMessage expPolicy) expSignature)
      1700000000 (generateJti 1700000000 1 0x7FFC00000000) alice expPolicy 3600 =
        .done (some token) ∧ (jwtVerify (recordedVerify (aliceMessage expPolicy) expSignature)
          1800000000 token).isSome = true := by
    refine ⟨aliceMessage expPolicy ++ dot :: base64urlEncode expSignature 128, ?_, ?_⟩
    all_goals decide +kernel
  obtain ⟨token, created, accepted⟩ := created
  have late := (kept.accepted token created 1800000000).mp accepted
  omega

end Cookbook.Auth
