import Cookbook.Auth.IdentityToken
import Cookbook.Grid.Artifact
import Cookbook.Server.Device
import Mathlib.Data.List.Perm.Basic

/-!
# Runs of the device flow

Over any sequence of requests, every device code yields at most one token, for a subject that was
verified, as long as the random bytes stay inside the alphabet of the user codes, no device code is
drawn twice, and the entry that is taken out of the table is the last one or one of the same subject.
-/
namespace Cookbook.Server

open Library.Text Auth

/-! ## Runs -/

/-- A request of the device flow, with what its handler gets besides the table. -/
inductive DeviceCall
  /-- `POST /auth/device` -/
  | device (request : Request) (now : Int) (draw : DeviceDraw)
  /-- `POST /auth/device/verify` -/
  | verify (request : Request) (rows : List Row) (now : Int)
  /-- `POST /auth/device/token` -/
  | token (request : Request) (now : Int) (jti : Bytes) (resolved : Option Bytes)

/-- The time of a request. -/
def DeviceCall.now : DeviceCall → Int
  | device _ now _ => now
  | verify _ _ now => now
  | token _ now _ _ => now

/-- A request that was answered, with the table in front of it. -/
structure DeviceStep where
  /-- The table. -/
  before : List DeviceCode
  /-- The request. -/
  call : DeviceCall
  /-- What its handler left. -/
  result : DeviceResult

variable (config : Config) (credentialVerify : Bytes → Bytes → Bool)

/-- The handler of a request. -/
def deviceCall (call : DeviceCall) (codes : List DeviceCode) : Outcome DeviceResult :=
  match call with
  | .device request now draw => handleAuthDevice config request now draw codes
  | .verify request rows now =>
    .done (handleAuthDeviceVerify credentialVerify request rows now codes)
  | .token request now jti resolved =>
    handleAuthDeviceToken config request now jti resolved codes

/-- A sequence of requests from an empty table, with a clock that does not go back. -/
inductive DeviceRun : List DeviceStep → List DeviceCode → Prop
  /-- Nothing has happened. -/
  | start : DeviceRun [] []
  /-- One more request is answered. -/
  | step {steps : List DeviceStep} {codes : List DeviceCode} {call : DeviceCall}
      {result : DeviceResult} (run : DeviceRun steps codes)
      (clock : ∀ earlier ∈ steps, earlier.call.now ≤ call.now)
      (ends : deviceCall config credentialVerify call codes = .done result) :
      DeviceRun (steps ++ [⟨codes, call, result⟩]) result.codes

/-! ## The property -/

/-- The text is a user code: twice four characters of the alphabet. -/
def UserCodeFormed (text : Bytes) : Prop :=
  ∃ front back, text = front ++ ascii "-" ++ back ∧ front.length = 4 ∧ back.length = 4 ∧
    ∀ c ∈ front ++ back, c ∈ ascii "ABCDEFGHJKLMNPQRSTUVWXYZ23456789"

/-- The request names a user code with the correct credentials of a subject. -/
def DeviceCall.Verifies (userCode subject : Bytes) : DeviceCall → Prop
  | verify request rows _ => ∃ body, readBody request 4096 = some body ∧
      namedUserCode (bodyString request body) = userCode ∧
      namedSubject (bodyString request body) = subject ∧
      credentialFits credentialVerify rows (namedToken (bodyString request body)) = true
  | _ => False

/-- The code of a table was issued, and a user was verified for it where it is authorized. -/
def Backed (steps : List DeviceStep) (code : DeviceCode) : Prop :=
  ∃ early issue late issued, steps = early ++ issue :: late ∧
    issue.result.issued = some issued ∧ issued.deviceCode = code.deviceCode ∧
    issued.userCode = code.userCode ∧ issued.expiresAt = code.expiresAt ∧
    (code.authorized ≠ 0 → ∃ verify ∈ late,
      verify.call.Verifies credentialVerify code.userCode code.subject ∧
        verify.call.now < code.expiresAt)

/-- What holds of the requests of a run. -/
structure DeviceFlow (steps : List DeviceStep) : Prop where
  /-- A device code yields at most one token. -/
  once : ∀ deviceCode,
    (steps.countP fun step => step.result.made.any (·.deviceCode == deviceCode)) ≤ 1
  /-- A token is handed out for a code that was issued and has not expired, and for a subject that
  was verified for the user code of it before it expired. -/
  verified : ∀ early step late made, steps = early ++ step :: late →
    step.result.made = some made → ∃ code, Backed credentialVerify early code ∧
      code.deviceCode = made.deviceCode ∧ code.authorized ≠ 0 ∧ code.subject = made.sub ∧
      step.call.now < code.expiresAt
  /-- The line of the audit log names the subject of the token. -/
  audited : ∀ step ∈ steps, ∀ made, step.result.made = some made →
    step.result.audit.map (·.subject) = [made.sub]
  /-- At most 64 codes are pending. -/
  pending : ∀ step ∈ steps, step.result.codes.length ≤ 64
  /-- Every user code consists of characters of the alphabet. -/
  symbols : ∀ step ∈ steps, ∀ code, step.result.issued = some code → UserCodeFormed code.userCode

/-! ## The condition -/

/-- The device code that a request for a token names. -/
def tokenNames (request : Request) : Option Bytes :=
  (readBody request 4096).map fun body => namedDeviceCode (bodyString request body)

/-- The fourth bit of the first random byte is clear and the device code is new; the code for which a
token is handed out is the last one of the table, or has the same subject. -/
def DeviceStep.Clean (early : List DeviceStep) (step : DeviceStep) : Prop :=
  match step.call with
  | .device _ _ draw => draw.r0 &&& 0x08 = 0 ∧ ∀ other ∈ early, ∀ code,
      other.result.issued = some code → code.deviceCode ≠ hexText draw.device
  | .verify _ _ _ => True
  | .token request now _ _ => ∀ named code, tokenNames request = some named →
      step.before.find? (·.deviceCode == named) = some code → 0 < code.authorized →
      now < code.expiresAt → (step.before.getLastD code).subject = code.subject

/-! ## What one request does -/

section Steps

variable {config credentialVerify}

/-- Two small indices make a small index. -/
theorem or_small {a b : UInt8} (left : a < 32) (right : b < 32) : a ||| b < 32 := by
  rw [UInt8.lt_iff_toNat_lt] at left right ⊢
  rw [UInt8.toNat_or]
  exact Nat.or_lt_two_pow (n := 5) left right

/-- With the fourth bit of the first byte clear every index is one of the alphabet. -/
theorem userIndices_small {r0 : UInt8} (clear : r0 &&& 0x08 = 0) (r1 r2 r3 : UInt8) :
    ∀ index ∈ userIndices r0 r1 r2 r3, index < 32 := by
  have low : ∀ r : UInt8, r &&& 0x1F < 32 := byte_forall (by decide +kernel)
  have five : ∀ r : UInt8, r >>> 5 < 32 := byte_forall (by decide +kernel)
  have two : ∀ r : UInt8, (r &&& 0x03) <<< 3 < 32 := byte_forall (by decide +kernel)
  have seven : ∀ r : UInt8, r >>> 7 < 32 := byte_forall (by decide +kernel)
  have four : ∀ r : UInt8, (r &&& 0x0F) <<< 1 < 32 := byte_forall (by decide +kernel)
  have high : ∀ r : UInt8, r >>> 4 < 32 := byte_forall (by decide +kernel)
  have one : ∀ r : UInt8, (r &&& 0x01) <<< 4 < 32 := byte_forall (by decide +kernel)
  have six : ∀ r : UInt8, r >>> 6 < 32 := byte_forall (by decide +kernel)
  have packed : ∀ r : UInt8, r &&& 0x08 = 0 → (r &&& 0x0F) <<< 2 < 32 :=
    byte_forall (by decide +kernel)
  unfold userIndices
  simp only [List.mem_cons, List.not_mem_nil, or_false, forall_eq_or_imp, forall_eq]
  exact ⟨low _, or_small (five _) (two _), low _, or_small (seven _) (four _),
    or_small (high _) (one _), low _, or_small (six _) (packed _ clear), low _⟩

/-- The symbols of small indices are characters of the alphabet. -/
theorem userSymbols_small {indices : List UInt8} (small : ∀ index ∈ indices, index < 32) :
    ∃ text, userSymbols indices = .done text ∧ text.length = indices.length ∧
      ∀ c ∈ text, c ∈ ascii "ABCDEFGHJKLMNPQRSTUVWXYZ23456789" := by
  induction indices with
  | nil => exact ⟨[], rfl, rfl, nofun⟩
  | cons index indices ih =>
    obtain ⟨text, rest, length, inside⟩ := ih fun other member =>
      small other (List.mem_cons_of_mem _ member)
    have here := small index List.mem_cons_self
    have size : (ascii "ABCDEFGHJKLMNPQRSTUVWXYZ23456789").length = 32 := by decide
    have bound : index.toNat < (ascii "ABCDEFGHJKLMNPQRSTUVWXYZ23456789").length := by
      rw [size]
      exact UInt8.lt_iff_toNat_lt.mp here
    have symbol : userSymbol index =
        .done (ascii "ABCDEFGHJKLMNPQRSTUVWXYZ23456789")[index.toNat] := by
      unfold userSymbol userAlphabet
      rw [List.getElem?_append_left bound, List.getElem?_eq_getElem bound]
    refine ⟨(ascii "ABCDEFGHJKLMNPQRSTUVWXYZ23456789")[index.toNat] :: text, ?_, ?_, ?_⟩
    · rw [userSymbols, symbol, Outcome.bind_done, rest, Outcome.bind_done]
    · rw [List.length_cons, List.length_cons, length]
    · intro c member
      rcases List.mem_cons.mp member with rfl | later
      · exact List.getElem_mem bound
      · exact inside c later

/-- A clean draw makes a user code of the alphabet. -/
theorem generateUserCode_clean {r0 : UInt8} (clear : r0 &&& 0x08 = 0) (r1 r2 r3 : UInt8) :
    ∃ text, generateUserCode r0 r1 r2 r3 = .done text ∧ UserCodeFormed text := by
  obtain ⟨text, symbols, length, inside⟩ := userSymbols_small (userIndices_small clear r1 r2 r3)
  have eight : text.length = 8 := length
  have visible : ∀ c ∈ ascii "ABCDEFGHJKLMNPQRSTUVWXYZ23456789", c ≠ 0 := by decide +kernel
  have free : 0 ∉ text.take 4 ++ ascii "-" ++ text.drop 4 := by
    have front : 0 ∉ text.take 4 := fun member =>
      visible _ (inside _ (List.mem_of_mem_take member)) rfl
    have back : 0 ∉ text.drop 4 := fun member =>
      visible _ (inside _ (List.mem_of_mem_drop member)) rfl
    have dash : (0 : UInt8) ∉ ascii "-" := by decide
    simp only [List.mem_append, not_or]
    exact ⟨⟨front, dash⟩, back⟩
  refine ⟨_, by rw [generateUserCode, symbols, Outcome.bind_done], ?_⟩
  rw [cString_terminated free]
  refine ⟨text.take 4, text.drop 4, rfl, ?_, ?_, ?_⟩
  · rw [List.length_take, eight]
    rfl
  · rw [List.length_drop, eight]
  · rw [List.take_append_drop]
    exact inside

/-- A request for a code leaves codes that were there, and issues at most one new one. -/
theorem device_cases {request : Request} {now : Int} {draw : DeviceDraw} {codes : List DeviceCode}
    {result : DeviceResult} (ends : handleAuthDevice config request now draw codes = .done result) :
    result.made = none ∧ (result.issued = none ∧ result.codes.Sublist codes ∨
      ∃ userCode kept, kept.Sublist codes ∧ kept.length < 64 ∧
        generateUserCode draw.r0 draw.r1 draw.r2 draw.r3 = .done userCode ∧
        result.issued = some ⟨hexText draw.device, userCode, [], [], 0, now + 900⟩ ∧
        result.codes = kept ++ [⟨hexText draw.device, userCode, [], [], 0, now + 900⟩]) := by
  have kept : (unexpiredCodes codes now).Sublist codes := List.filter_sublist
  unfold handleAuthDevice at ends
  split at ends
  · cases ends
    exact ⟨rfl, .inl ⟨rfl, List.Sublist.refl _⟩⟩
  · split at ends
    · cases ends
      exact ⟨rfl, .inl ⟨rfl, List.Sublist.refl _⟩⟩
    · by_cases full : 64 ≤ (unexpiredCodes codes now).length
      · simp only [if_pos full] at ends
        cases ends
        exact ⟨rfl, .inl ⟨rfl, kept⟩⟩
      · simp only [if_neg full] at ends
        cases drawn : generateUserCode draw.r0 draw.r1 draw.r2 draw.r3 with
        | overrun =>
          rw [drawn] at ends
          cases ends
        | done userCode =>
          rw [drawn, Outcome.bind_done] at ends
          cases ends
          exact ⟨rfl, .inr ⟨userCode, _, kept, by omega, rfl, rfl, rfl⟩⟩

/-- An authorization changes one code of the table. -/
theorem authorizeCode_cases {userCode subject groups : Bytes} {now : Int}
    {codes after : List DeviceCode}
    (authorized : authorizeCode userCode subject groups now codes = some (.ok after)) :
    ∃ front code back, codes = front ++ code :: back ∧ code.userCode = userCode ∧
      now < code.expiresAt ∧ after = front ++ { code with
        subject := snprintf 128 subject, groups := snprintf 1024 groups, authorized := 1 } ::
          back := by
  induction codes generalizing after with
  | nil => cases authorized
  | cons code codes ih =>
    unfold authorizeCode at authorized
    by_cases named : code.userCode = userCode
    · rw [if_pos named] at authorized
      split at authorized
      · cases authorized
      · rename_i fresh
        have same := Except.ok.inj (Option.some.inj authorized)
        exact ⟨[], code, codes, rfl, named, by omega, same.symm⟩
    · rw [if_neg named] at authorized
      obtain ⟨rest, found, wrapped⟩ := Option.map_eq_some_iff.mp authorized
      cases rest with
      | error reply => cases wrapped
      | ok tail =>
        obtain ⟨front, other, back, split, same, fresh, shape⟩ := ih found
        refine ⟨code :: front, other, back, ?_, same, fresh, ?_⟩
        · rw [split, List.cons_append]
        · have whole := Except.ok.inj wrapped
          rw [← whole, shape, List.cons_append]

/-- A subject that is named fits its buffer. -/
theorem namedSubject_length (body : Bytes) : (namedSubject body).length ≤ 127 := by
  have short : ∀ pattern, (bodyField pattern 128 body).length ≤ 127 := by
    intro pattern
    unfold bodyField
    split
    · exact Nat.zero_le _
    · split
      · exact Nat.zero_le _
      · exact List.length_take_le _ _
  unfold namedSubject
  split
  · exact short _
  · exact short _

/-- A verification changes nothing, or authorizes one code for a subject with its credentials. -/
theorem verify_cases (credentialVerify : Bytes → Bytes → Bool) (request : Request)
    (rows : List Row) (now : Int) (codes : List DeviceCode) :
    let result := handleAuthDeviceVerify credentialVerify request rows now codes
    result.made = none ∧ result.issued = none ∧ (result.codes = codes ∨
      ∃ front code back, codes = front ++ code :: back ∧ now < code.expiresAt ∧
        ∃ subject groups, (DeviceCall.verify request rows now).Verifies credentialVerify
          code.userCode subject ∧ result.codes = front ++ { code with
            subject := subject, groups := groups, authorized := 1 } :: back) := by
  intro result
  have here : result = handleAuthDeviceVerify credentialVerify request rows now codes := rfl
  unfold handleAuthDeviceVerify at here
  split at here
  · rw [here]
    exact ⟨rfl, rfl, .inl rfl⟩
  · cases read : readBody request 4096 with
    | none =>
      rw [read] at here
      rw [here]
      exact ⟨rfl, rfl, .inl rfl⟩
    | some body =>
      rw [read] at here
      simp only [verifyDevice] at here
      split at here
      · rw [here]
        exact ⟨rfl, rfl, .inl rfl⟩
      · split at here
        · rw [here]
          exact ⟨rfl, rfl, .inl rfl⟩
        · rename_i fits
          split at here
          · rw [here]
            exact ⟨rfl, rfl, .inl rfl⟩
          · rw [here]
            exact ⟨rfl, rfl, .inl rfl⟩
          · rename_i after authorized
            obtain ⟨front, code, back, split, named, fresh, shape⟩ :=
              authorizeCode_cases authorized
            have whole : snprintf 128 (namedSubject (bodyString request body)) =
                namedSubject (bodyString request body) :=
              snprintf_fits (Nat.lt_succ_of_le (namedSubject_length _))
            rw [whole] at shape
            rw [here]
            refine ⟨rfl, rfl, .inr ⟨front, code, back, split, fresh, _, _, ?_, shape⟩⟩
            exact ⟨body, read, named.symm, rfl, by simpa using fits⟩

/-- The entry that is taken out and what is left are the entries of the table. -/
theorem removeCode_perm {codes : List DeviceCode} {index : Nat} {code : DeviceCode}
    (there : codes[index]? = some code) : codes.Perm (code :: removeCode codes index) := by
  obtain ⟨bound, value⟩ := List.getElem?_eq_some_iff.mp there
  have nonempty : codes ≠ [] := List.ne_nil_of_length_pos (by omega)
  obtain ⟨init, last, shape⟩ : ∃ init last, codes = init ++ [last] :=
    ⟨codes.dropLast, codes.getLast nonempty, (List.dropLast_append_getLast nonempty).symm⟩
  have removed : removeCode codes index = ((init ++ [last]).set index last).dropLast := by
    unfold removeCode
    rw [shape, List.getLast?_concat]
  rw [removed]
  by_cases inside : index < init.length
  · have same : init[index] = code := by
      rw [← value]
      simp [shape, inside]
    have parts : init = init.take index ++ code :: init.drop (index + 1) := by
      rw [← same, ← List.drop_eq_getElem_cons inside, List.take_append_drop]
    have written : init.set index last = init.take index ++ last :: init.drop (index + 1) :=
      List.set_eq_take_append_cons_drop ▸ if_pos inside
    rw [List.set_append_left _ _ inside, List.dropLast_concat, shape, written]
    nth_rewrite 1 [parts]
    have moved : (init.take index ++ code :: init.drop (index + 1) ++ [last]).Perm
        (code :: (init.take index ++ init.drop (index + 1) ++ [last])) := by
      rw [List.append_assoc, List.cons_append, List.append_assoc]
      exact List.perm_middle
    have ended : (init.take index ++ init.drop (index + 1) ++ [last]).Perm
        (init.take index ++ last :: init.drop (index + 1)) := by
      rw [List.append_assoc]
      exact List.Perm.append_left _ (List.perm_append_singleton _ _)
    exact moved.trans (ended.cons code)
  · have at_last : index = init.length := by
      rw [shape, List.length_append, List.length_singleton] at bound
      omega
    have same : last = code := by
      rw [← value]
      simp [shape, at_last]
    have written : ((init ++ [last]).set index last).dropLast = init := by
      rw [at_last]
      simp
    rw [written, shape, same]
    exact List.perm_append_singleton _ _

/-- A request for a token leaves the table, or takes out the entry that it names. -/
theorem token_cases {request : Request} {now : Int} {jti : Bytes} {resolved : Option Bytes}
    {codes : List DeviceCode} {result : DeviceResult}
    (ends : handleAuthDeviceToken config request now jti resolved codes = .done result) :
    result.issued = none ∧ (result.made = none ∧ result.codes = codes ∨
      ∃ named code, tokenNames request = some named ∧
        codes.find? (·.deviceCode == named) = some code ∧
        codes.Perm (code :: result.codes) ∧ now < code.expiresAt ∧ (result.made = none ∨
          0 < code.authorized ∧ (∃ token, result.made =
            some ⟨code.deviceCode, code.subject, code.groups, token⟩) ∧
          result.audit.map (·.subject) = [(codes.getLastD code).subject])) := by
  unfold handleAuthDeviceToken at ends
  split at ends
  · cases ends
    exact ⟨rfl, .inl ⟨rfl, rfl⟩⟩
  · cases read : readBody request 4096 with
    | none =>
      rw [read] at ends
      cases ends
      exact ⟨rfl, .inl ⟨rfl, rfl⟩⟩
    | some body =>
      rw [read] at ends
      simp only at ends
      split at ends
      · cases ends
        exact ⟨rfl, .inl ⟨rfl, rfl⟩⟩
      · have named : tokenNames request =
            some (namedDeviceCode (bodyString request body)) := by
          rw [tokenNames, read, Option.map_some]
        generalize namedDeviceCode (bodyString request body) = name at ends named
        split at ends
        · cases ends
          exact ⟨rfl, .inl ⟨rfl, rfl⟩⟩
        · rename_i index found
          split at ends
          · cases ends
            exact ⟨rfl, .inl ⟨rfl, rfl⟩⟩
          · rename_i code there
            have first : codes.find? (·.deviceCode == name) = some code := by
              rw [List.find?_eq_bind_findIdx?_getElem?, found, Option.bind_some, there]
            have taken := removeCode_perm there
            unfold grantDevice at ends
            split at ends
            · cases ends
              exact ⟨rfl, .inl ⟨rfl, rfl⟩⟩
            · rename_i fresh
              have later : now < code.expiresAt := by omega
              split at ends
              · cases ends
                exact ⟨rfl, .inl ⟨rfl, rfl⟩⟩
              · rename_i settled
                split at ends
                · cases ends
                  exact ⟨rfl, .inr ⟨name, code, named, first, taken, later, .inl rfl⟩⟩
                · rename_i allowed
                  have positive : 0 < code.authorized := by omega
                  cases made : deviceToken config now jti resolved code with
                  | overrun =>
                    rw [made] at ends
                    cases ends
                  | done token =>
                    rw [made, Outcome.bind_done] at ends
                    cases token with
                    | none =>
                      cases ends
                      exact ⟨rfl, .inr ⟨name, code, named, first, taken, later, .inl rfl⟩⟩
                    | some token =>
                      cases ends
                      exact ⟨rfl, .inr ⟨name, code, named, first, taken, later,
                        .inr ⟨positive, ⟨token, rfl⟩, rfl⟩⟩⟩

end Steps

/-! ## The invariant -/

/-- What holds behind every request: the pending codes were issued, each under a device code of its
own, and no token has been handed out for any of them. -/
structure DeviceInvariant (steps : List DeviceStep) (codes : List DeviceCode) : Prop where
  /-- There are at most 64 of them. -/
  short : codes.length ≤ 64
  /-- They were issued, and verified where they are authorized. -/
  backed : ∀ code ∈ codes, Backed credentialVerify steps code
  /-- No two of them have one device code. -/
  distinct : codes.Pairwise fun first second => first.deviceCode ≠ second.deviceCode
  /-- No token was handed out for them. -/
  unspent : ∀ code ∈ codes, ∀ step ∈ steps, ∀ made, step.result.made = some made →
    made.deviceCode ≠ code.deviceCode
  /-- The requests so far keep the flow. -/
  flow : DeviceFlow credentialVerify steps

section Invariant

variable {config credentialVerify} {steps : List DeviceStep} {codes : List DeviceCode}

/-- A code stays backed. -/
theorem Backed.later {code : DeviceCode} (backed : Backed credentialVerify steps code)
    (more : List DeviceStep) : Backed credentialVerify (steps ++ more) code := by
  obtain ⟨early, issue, late, issued, split, given, same, named, expiry, verified⟩ := backed
  refine ⟨early, issue, late ++ more, issued, ?_, given, same, named, expiry, ?_⟩
  · rw [split, List.append_assoc, List.cons_append]
  · intro authorized
    obtain ⟨verify, member, by_whom⟩ := verified authorized
    exact ⟨verify, List.mem_append_left _ member, by_whom⟩

/-- The flow goes on with a request that hands out no token, or one for a backed code. -/
theorem DeviceFlow.later (flow : DeviceFlow credentialVerify steps) {step : DeviceStep}
    (made : ∀ made, step.result.made = some made →
      (∀ other ∈ steps, ∀ older, other.result.made = some older →
        older.deviceCode ≠ made.deviceCode) ∧
      (∃ code, Backed credentialVerify steps code ∧ code.deviceCode = made.deviceCode ∧
        code.authorized ≠ 0 ∧ code.subject = made.sub ∧ step.call.now < code.expiresAt) ∧
      step.result.audit.map (·.subject) = [made.sub])
    (pending : step.result.codes.length ≤ 64)
    (symbols : ∀ code, step.result.issued = some code → UserCodeFormed code.userCode) :
    DeviceFlow credentialVerify (steps ++ [step]) := by
  refine ⟨?_, ?_, ?_, ?_, ?_⟩
  · intro deviceCode
    have before := flow.once deviceCode
    rw [List.countP_append, List.countP_singleton]
    split
    · rename_i here
      obtain ⟨token, given, same⟩ : ∃ token, step.result.made = some token ∧
          token.deviceCode = deviceCode := by
        cases given : step.result.made with
        | none =>
          rw [given] at here
          cases here
        | some token =>
          rw [given] at here
          exact ⟨token, rfl, by simpa using here⟩
      have fresh : (steps.countP fun other =>
          other.result.made.any (·.deviceCode == deviceCode)) = 0 := by
        rw [List.countP_eq_zero]
        intro other member found
        cases older : other.result.made with
        | none =>
          rw [older] at found
          cases found
        | some token' =>
          rw [older] at found
          have clash : token'.deviceCode = deviceCode := by simpa using found
          exact (made token given).1 other member token' older (clash.trans same.symm)
      omega
    · omega
  · intro early other late token split given
    rcases List.eq_nil_or_concat late with rfl | ⟨rest, last, rfl⟩
    · obtain ⟨rfl, whole⟩ := List.append_inj' split rfl
      rw [List.cons.injEq] at whole
      rw [← whole.1] at given ⊢
      exact (made token given).2.1
    · have shape : steps ++ [step] = (early ++ other :: rest) ++ [last] := by
        rw [split, List.append_assoc, List.cons_append, List.concat_eq_append]
      have front := (List.append_inj' shape rfl).1
      exact flow.verified early other rest token front given
  · intro other member token given
    rcases List.mem_append.mp member with before | here
    · exact flow.audited other before token given
    · rw [List.mem_singleton] at here
      rw [here] at given ⊢
      exact (made token given).2.2
  · intro other member
    rcases List.mem_append.mp member with before | here
    · exact flow.pending other before
    · rw [List.mem_singleton] at here
      rw [here]
      exact pending
  · intro other member code issued
    rcases List.mem_append.mp member with before | here
    · exact flow.symbols other before code issued
    · rw [List.mem_singleton] at here
      rw [here] at issued
      exact symbols code issued

/-- A step that hands out nothing and keeps some of the codes keeps the invariant. -/
theorem DeviceInvariant.shrinks (holds : DeviceInvariant credentialVerify steps codes)
    {step : DeviceStep} (unmade : step.result.made = none) (unissued : step.result.issued = none)
    (fewer : step.result.codes.Subperm codes) :
    DeviceInvariant credentialVerify (steps ++ [step]) step.result.codes := by
  have inside : ∀ code ∈ step.result.codes, code ∈ codes := fun code member => fewer.subset member
  have short := fewer.length_le.trans holds.short
  have differ : ∀ {first second : DeviceCode}, first.deviceCode ≠ second.deviceCode →
      second.deviceCode ≠ first.deviceCode := fun unequal same => unequal same.symm
  refine ⟨short, ?_, ?_, ?_, ?_⟩
  · exact fun code member => (holds.backed code (inside code member)).later [step]
  · obtain ⟨kept, perm, sub⟩ := fewer
    exact (perm.pairwise_iff differ).mp (holds.distinct.sublist sub)
  · intro code member other among token given
    rcases List.mem_append.mp among with before | here
    · exact holds.unspent code (inside code member) other before token given
    · rw [List.mem_singleton] at here
      rw [here, unmade] at given
      cases given
  · refine holds.flow.later ?_ short ?_
    · intro token given
      rw [unmade] at given
      cases given
    · intro code issued
      rw [unissued] at issued
      cases issued

/-- A clean request for a code keeps the invariant. -/
theorem DeviceInvariant.device (holds : DeviceInvariant credentialVerify steps codes)
    {request : Request} {now : Int} {draw : DeviceDraw} {result : DeviceResult}
    (clean : DeviceStep.Clean steps ⟨codes, .device request now draw, result⟩)
    (ends : handleAuthDevice config request now draw codes = .done result) :
    DeviceInvariant credentialVerify (steps ++ [⟨codes, .device request now draw, result⟩])
      result.codes := by
  obtain ⟨unmade, ⟨unissued, fewer⟩ | ⟨userCode, kept, sub, room, drawn, issued, shape⟩⟩ :=
    device_cases ends
  · exact holds.shrinks unmade unissued fewer.subperm
  · obtain ⟨text, same, formed⟩ := generateUserCode_clean clean.1 draw.r1 draw.r2 draw.r3
    have code : userCode = text := by
      rw [drawn] at same
      exact Outcome.done.inj same
    have inside : ∀ other ∈ kept, other ∈ codes := fun other member => sub.subset member
    -- What was issued so far has other device codes, and so has what a token was handed out for.
    have fresh : ∀ other, Backed credentialVerify steps other →
        other.deviceCode ≠ hexText draw.device := by
      intro other backed
      obtain ⟨early, issue, late, older, split, given, named, -⟩ := backed
      rw [← named]
      refine clean.2 issue ?_ older given
      rw [split]
      exact List.mem_append_right _ List.mem_cons_self
    have short : result.codes.length ≤ 64 := by
      rw [shape, List.length_append, List.length_singleton]
      omega
    refine ⟨short, ?_, ?_, ?_, ?_⟩
    · intro other member
      rw [shape] at member
      rcases List.mem_append.mp member with before | here
      · exact (holds.backed other (inside other before)).later _
      · rw [List.mem_singleton] at here
        rw [here]
        exact ⟨steps, _, [], _, rfl, issued, rfl, rfl, rfl, fun authorized => absurd rfl authorized⟩
    · rw [shape, List.pairwise_append]
      refine ⟨holds.distinct.sublist sub, List.pairwise_singleton _ _, ?_⟩
      intro other member last here
      rw [List.mem_singleton] at here
      rw [here]
      exact fresh other (holds.backed other (inside other member))
    · intro other member step among token given
      have earlier : step ∈ steps := by
        rcases List.mem_append.mp among with before | here
        · exact before
        · rw [List.mem_singleton] at here
          rw [here, unmade] at given
          cases given
      rw [shape] at member
      rcases List.mem_append.mp member with before | here
      · exact holds.unspent other (inside other before) step earlier token given
      · rw [List.mem_singleton] at here
        obtain ⟨early, late, split⟩ := List.append_of_mem earlier
        obtain ⟨granted, backed, named, -⟩ := holds.flow.verified early step late token split given
        have backedNow : Backed credentialVerify steps granted := by
          rw [split]
          exact backed.later _
        rw [here, ← named]
        exact fresh granted backedNow
    · refine holds.flow.later ?_ short ?_
      · intro token given
        rw [unmade] at given
        cases given
      · intro other given
        rw [issued] at given
        rw [← Option.some.inj given, code]
        exact formed

/-- A verification keeps the invariant. -/
theorem DeviceInvariant.verify (holds : DeviceInvariant credentialVerify steps codes)
    (request : Request) (rows : List Row) (now : Int) :
    let result := handleAuthDeviceVerify credentialVerify request rows now codes
    DeviceInvariant credentialVerify (steps ++ [⟨codes, .verify request rows now, result⟩])
      result.codes := by
  intro result
  have step := verify_cases credentialVerify request rows now codes
  change result.made = none ∧ result.issued = none ∧ (result.codes = codes ∨ _) at step
  obtain ⟨unmade, unissued, same | changed⟩ := step
  · exact holds.shrinks unmade unissued (same ▸ (List.Perm.refl codes).subperm)
  · obtain ⟨front, code, back, split, fresh, subject, groups, verifies, shape⟩ := changed
    -- The table has the same device codes as before.
    have names : result.codes.map (·.deviceCode) = codes.map (·.deviceCode) := by
      rw [shape, split, List.map_append, List.map_append, List.map_cons, List.map_cons]
    have short : result.codes.length ≤ 64 := by
      have length := congrArg List.length names
      rw [List.length_map, List.length_map] at length
      have before := holds.short
      omega
    refine ⟨short, ?_, ?_, ?_, ?_⟩
    · intro other member
      rw [shape] at member
      rcases List.mem_append.mp member with before | later
      · exact (holds.backed other (split ▸ List.mem_append_left _ before)).later _
      · rcases List.mem_cons.mp later with here | behind
        · have there : code ∈ codes := split ▸ List.mem_append_right _ List.mem_cons_self
          obtain ⟨early, issue, late, issued, cut, given, name, user, expiry, -⟩ :=
            holds.backed code there
          rw [here]
          refine ⟨early, issue, late ++ [⟨codes, .verify request rows now, result⟩], issued, ?_,
            given, name, user, expiry, ?_⟩
          · rw [cut, List.append_assoc, List.cons_append]
          · intro authorized
            exact ⟨_, List.mem_append_right _ (List.mem_singleton.mpr rfl), verifies, fresh⟩
        · have there : other ∈ codes :=
            split ▸ List.mem_append_right _ (List.mem_cons_of_mem _ behind)
          exact (holds.backed other there).later _
    · have before := holds.distinct
      rw [← List.pairwise_map (R := fun first second => first ≠ second)] at before ⊢
      rw [names]
      exact before
    · intro other member step among token given
      have earlier : step ∈ steps := by
        rcases List.mem_append.mp among with before | here
        · exact before
        · rw [List.mem_singleton] at here
          rw [here] at given
          exact absurd (unmade.symm.trans given) nofun
      have named : other.deviceCode ∈ codes.map (·.deviceCode) := by
        rw [← names]
        exact List.mem_map_of_mem member
      obtain ⟨old, there, same⟩ := List.mem_map.mp named
      rw [← same]
      exact holds.unspent old there step earlier token given
    · refine holds.flow.later ?_ short ?_
      · intro token given
        exact absurd (unmade.symm.trans given) nofun
      · intro other given
        exact absurd (unissued.symm.trans given) nofun

/-- A clean request for a token keeps the invariant. -/
theorem DeviceInvariant.token (holds : DeviceInvariant credentialVerify steps codes)
    {request : Request} {now : Int} {jti : Bytes} {resolved : Option Bytes}
    {result : DeviceResult}
    (clean : DeviceStep.Clean steps ⟨codes, .token request now jti resolved, result⟩)
    (ends : handleAuthDeviceToken config request now jti resolved codes = .done result) :
    DeviceInvariant credentialVerify
      (steps ++ [⟨codes, .token request now jti resolved, result⟩]) result.codes := by
  obtain ⟨unissued, ⟨unmade, same⟩ | taken⟩ := token_cases ends
  · exact holds.shrinks unmade unissued (same ▸ (List.Perm.refl codes).subperm)
  · obtain ⟨named, code, names, found, perm, fresh, unmade | granted⟩ := taken
    · have fewer : result.codes.Subperm codes :=
        (List.sublist_cons_self code result.codes).subperm.trans perm.symm.subperm
      exact holds.shrinks unmade unissued fewer
    · obtain ⟨positive, ⟨token, made⟩, audit⟩ := granted
      have there : code ∈ codes := List.mem_of_find?_eq_some found
      have inside : ∀ other ∈ result.codes, other ∈ codes := fun other member =>
        perm.symm.subset (List.mem_cons_of_mem _ member)
      have short : result.codes.length ≤ 64 := by
        have length := perm.length_eq
        rw [List.length_cons] at length
        have before := holds.short
        omega
      have differ : ∀ {first second : DeviceCode}, first.deviceCode ≠ second.deviceCode →
          second.deviceCode ≠ first.deviceCode := fun unequal same => unequal same.symm
      have apart := (perm.pairwise_iff differ).mp holds.distinct
      rw [List.pairwise_cons] at apart
      refine ⟨short, ?_, apart.2, ?_, ?_⟩
      · exact fun other member => (holds.backed other (inside other member)).later _
      · intro other member step among older given
        rcases List.mem_append.mp among with before | here
        · exact holds.unspent other (inside other member) step before older given
        · rw [List.mem_singleton] at here
          rw [here, made] at given
          rw [← Option.some.inj given]
          exact apart.1 other member
      · refine holds.flow.later ?_ short ?_
        · intro handed given
          rw [made] at given
          rw [← Option.some.inj given]
          refine ⟨?_, ?_, ?_⟩
          · intro other member older earlier
            exact holds.unspent code there other member older earlier
          · exact ⟨code, holds.backed code there, rfl, Int.ne_of_gt positive, rfl, fresh⟩
          · rw [audit, clean named code names found positive fresh]
        · intro other given
          rw [unissued] at given
          cases given

/-- Every run of clean requests keeps the invariant. -/
theorem deviceRun_invariant (run : DeviceRun config credentialVerify steps codes)
    (clean : ∀ early step late, steps = early ++ step :: late → step.Clean early) :
    DeviceInvariant credentialVerify steps codes := by
  induction run with
  | start =>
    have none : ∀ step : DeviceStep, step ∉ [] := fun _ => List.not_mem_nil
    refine ⟨Nat.zero_le _, fun _ member => absurd member List.not_mem_nil, List.Pairwise.nil,
      fun _ member => absurd member List.not_mem_nil, fun _ => Nat.zero_le _, ?_, ?_, ?_, ?_⟩
    · intro early step late made split
      have length := congrArg List.length split
      rw [List.length_append, List.length_cons, List.length_nil] at length
      omega
    · exact fun step member => absurd member (none step)
    · exact fun step member => absurd member (none step)
    · exact fun step member => absurd member (none step)
  | @step steps codes call result _ clock ends ih =>
    have before := ih fun early step late split => clean early step (late ++ [_]) (by
      rw [split, List.append_assoc, List.cons_append])
    have here := clean steps ⟨codes, call, result⟩ [] rfl
    cases call with
    | device request now draw => exact before.device here ends
    | verify request rows now =>
      have same := Outcome.done.inj ends
      rw [← same]
      exact before.verify request rows now
    | token request now jti resolved => exact before.token here ends

end Invariant

/-- A run whose draws stay inside the alphabet and repeat no device code, and whose tokens are taken for
the last entry of the table or for its subject, keeps the flow. -/
theorem deviceRun_flow {config : Config} {credentialVerify : Bytes → Bytes → Bool}
    {steps : List DeviceStep} {codes : List DeviceCode}
    (run : DeviceRun config credentialVerify steps codes)
    (clean : ∀ early step late, steps = early ++ step :: late → step.Clean early) :
    DeviceFlow credentialVerify steps := (deviceRun_invariant run clean).flow

/-! ## One device and two -/

/-- A server that signs the token for `aliceCore`. -/
def deviceConfig : Config :=
  { Grid.openConfig with sign := recordedSign (identityMessage aliceCore) aliceCoreSignature }

/-- The password `secret` fits one hash. -/
def secretVerify (token hash : Bytes) : Bool :=
  token == ascii "secret" && hash == ascii "$argon2id$v=19$m=65536,t=3,p=1$c2FsdHNhbHQ$aGFzaA"

/-- What the query for the credential of `alice` returns. -/
def aliceCredential : List Row :=
  [[some (ascii "$argon2id$v=19$m=65536,t=3,p=1$c2FsdHNhbHQ$aGFzaA"), some (ascii "core")]]

/-- A request with a body. -/
def postRequest (uri body : String) : Request where
  method := ascii "POST"
  localUri := ascii uri
  queryString := none
  headers := []
  contentLength := (ascii body).length
  body := ascii body
  behindBody := []

/-- A draw whose sixteen bytes are one. -/
def sameDraw (byte r0 : UInt8) : DeviceDraw :=
  ⟨List.replicate 16 byte, List.length_replicate, r0, 0, 0, 0⟩

/-- A request for a code. -/
def deviceRequest (byte r0 : UInt8) : DeviceCall :=
  .device (postRequest "/auth/device" "") 1699999990 (sameDraw byte r0)

/-- `alice` names the code of the first device. -/
def aliceVerifies : DeviceCall :=
  .verify (postRequest "/auth/device/verify"
    "\x7b\"user_code\":\"AAAA-AAAA\",\"subject\":\"alice\",\"token\":\"secret\"\x7d")
    aliceCredential 1699999995

/-- The first device asks for its token. -/
def firstAsks : DeviceCall :=
  .token (postRequest "/auth/device/token"
    "\x7b\"device_code\":\"11111111111111111111111111111111\"\x7d") 1700000000
    (generateJti 1700000000 1 0x7FFC00000000) none

/-- The code of the first device. -/
def firstCode : DeviceCode :=
  ⟨hexText (List.replicate 16 0x11), ascii "AAAA-AAAA", [], [], 0, 1700000890⟩

/-- The code of the second device. -/
def secondCode : DeviceCode :=
  ⟨hexText (List.replicate 16 0x22), ascii "BAAA-AAEA", [], [], 0, 1700000890⟩

/-- The code of the first device when `alice` has named it. -/
def aliceCode : DeviceCode :=
  { firstCode with subject := ascii "alice", groups := ascii "core", authorized := 1 }

/-- A code is issued. -/
def issueStep (before : List DeviceCode) (call : DeviceCall) (code : DeviceCode) : DeviceStep :=
  ⟨before, call, { DeviceResult.logged (deviceReply code) (before ++ [code]) (ascii "unknown")
    "device-code-issued" "ok" with issued := some code }⟩

/-- `alice` authorizes the first device in front of others. -/
def verifyStep (others : List DeviceCode) : DeviceStep :=
  ⟨firstCode :: others, aliceVerifies,
    .logged (sendJson 200 (jsonLine "status" (ascii "authorized"))) (aliceCode :: others)
      (ascii "alice") "device-verify" "ok"⟩

/-- The token of the first device. -/
def firstToken : Bytes :=
  identityMessage aliceCore ++ dot :: base64urlEncode aliceCoreSignature 128

/-- The first device gets its token; the audit log names a subject. -/
def tokenStep (others : List DeviceCode) (logged : Bytes) : DeviceStep :=
  ⟨aliceCode :: others, firstAsks,
    { DeviceResult.logged (deviceTokenReply deviceConfig none firstToken) others logged
      "device-code-token" "ok" with
      made := some ⟨firstCode.deviceCode, ascii "alice", ascii "core", firstToken⟩ }⟩

/-- The first device has got its code. -/
theorem firstIssued_run : DeviceRun deviceConfig secretVerify
    [issueStep [] (deviceRequest 0x11 0) firstCode] [firstCode] :=
  .step .start nofun (by decide +kernel)

/-- A single device gets the token of the subject that named its code. -/
theorem deviceRun_flow_single :
    DeviceFlow secretVerify [issueStep [] (deviceRequest 0x11 0) firstCode, verifyStep [],
      tokenStep [] (ascii "alice")] := by
  have verified : DeviceRun deviceConfig secretVerify
      [issueStep [] (deviceRequest 0x11 0) firstCode, verifyStep []] [aliceCode] :=
    .step firstIssued_run (by decide) (by decide +kernel)
  have run : DeviceRun deviceConfig secretVerify
      [issueStep [] (deviceRequest 0x11 0) firstCode, verifyStep [],
        tokenStep [] (ascii "alice")] [] :=
    .step verified (by decide) (by decide +kernel)
  refine deviceRun_flow run ?_
  intro early step late split
  rcases early with _ | ⟨_, _ | ⟨_, _ | ⟨_, early⟩⟩⟩
  · cases split
    exact ⟨by decide, nofun⟩
  · cases split
    trivial
  · cases split
    intro named code _ found _ _
    have same : code = aliceCode := List.mem_singleton.mp (List.mem_of_find?_eq_some found)
    rw [same]
    rfl
  · have length := congrArg List.length split
    simp only [List.length_cons, List.length_nil, List.cons_append, List.length_append] at length
    omega

/-- With a second device pending the audit log names no subject for the token of the first one. -/
theorem deviceRun_otherSubject :
    let steps := [issueStep [] (deviceRequest 0x11 0) firstCode,
      issueStep [firstCode] (deviceRequest 0x22 1) secondCode, verifyStep [secondCode],
      tokenStep [secondCode] []]
    DeviceRun deviceConfig secretVerify steps [secondCode] ∧ ¬ DeviceFlow secretVerify steps := by
  intro steps
  have two : DeviceRun deviceConfig secretVerify
      [issueStep [] (deviceRequest 0x11 0) firstCode,
        issueStep [firstCode] (deviceRequest 0x22 1) secondCode] [firstCode, secondCode] :=
    .step firstIssued_run (by decide) (by decide +kernel)
  have named : DeviceRun deviceConfig secretVerify
      [issueStep [] (deviceRequest 0x11 0) firstCode,
        issueStep [firstCode] (deviceRequest 0x22 1) secondCode, verifyStep [secondCode]]
      [aliceCode, secondCode] :=
    .step two (by decide) (by decide +kernel)
  refine ⟨.step named (by decide) (by decide +kernel), ?_⟩
  intro flow
  have logged := flow.audited (tokenStep [secondCode] []) (by simp [steps]) _ rfl
  exact absurd logged (by decide)

end Cookbook.Server
