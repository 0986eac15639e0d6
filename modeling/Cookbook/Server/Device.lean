import Cookbook.Server.Requests

/-!
# The device flow

A device asks for a code, a user names the code with the credentials of a subject, and the device
fetches a token for that subject. The three handlers share one table of pending codes. This is the
flow of a server without an OIDC issuer; what `cookbook_policy_resolve` returns is an argument.
-/
namespace Cookbook.Server

open Library.Text Auth

/-! ## The table -/

/-- `device_code_entry` -/
structure DeviceCode where
  /-- `device_code` -/
  deviceCode : Bytes
  /-- `user_code` -/
  userCode : Bytes
  /-- `subject`, empty while the code is pending -/
  subject : Bytes
  /-- `groups`, empty while the code is pending -/
  groups : Bytes
  /-- `authorized` -/
  authorized : Int
  /-- `expires_at` -/
  expiresAt : Int
  deriving DecidableEq

/-- What `audit_log` is called with. -/
structure AuditEntry where
  /-- `event` -/
  event : Bytes
  /-- `subject` -/
  subject : Bytes
  /-- `target` -/
  target : Bytes
  /-- `result` -/
  result : Bytes
  deriving DecidableEq

/-- A token that a handler has created. -/
structure MadeToken where
  /-- The device code it is handed out for. -/
  deviceCode : Bytes
  /-- The subject it is created for. -/
  sub : Bytes
  /-- The groups it is created with. -/
  groups : Bytes
  /-- The token. -/
  token : Bytes
  deriving DecidableEq

/-- What a handler of the device flow leaves. -/
structure DeviceResult where
  /-- The reply. -/
  reply : Reply
  /-- `device_codes`, up to `device_code_count` -/
  codes : List DeviceCode
  /-- The lines of the audit log. -/
  audit : List AuditEntry
  /-- The code in the reply. -/
  issued : Option DeviceCode
  /-- The token in the reply. -/
  made : Option MadeToken
  deriving DecidableEq

/-- A result without a code, a token or a line of the audit log. -/
def DeviceResult.plain (reply : Reply) (codes : List DeviceCode) : DeviceResult :=
  ⟨reply, codes, [], none, none⟩

/-- A result with a line of the audit log. -/
def DeviceResult.logged (reply : Reply) (codes : List DeviceCode) (subject : Bytes)
    (target result : String) : DeviceResult :=
  ⟨reply, codes, [⟨ascii "auth", subject, ascii target, ascii result⟩], none, none⟩

/-! ## Codes -/

/-- The characters of a user code, and the terminator of the text. -/
def userAlphabet : Bytes := ascii "ABCDEFGHJKLMNPQRSTUVWXYZ23456789" ++ [0]

/-- A character of the alphabet: outside of it and its terminator the read has no result. -/
def userSymbol (index : UInt8) : Outcome UInt8 :=
  match userAlphabet[index.toNat]? with
  | some c => .done c
  | none => .overrun

/-- The indices of `generate_user_code`, from four random bytes. -/
def userIndices (r0 r1 r2 r3 : UInt8) : List UInt8 :=
  [r0 &&& 0x1F, (r0 >>> 5) ||| ((r1 &&& 0x03) <<< 3),
    (r1 >>> 2) &&& 0x1F, (r1 >>> 7) ||| ((r2 &&& 0x0F) <<< 1),
    (r2 >>> 4) ||| ((r3 &&& 0x01) <<< 4), (r3 >>> 1) &&& 0x1F,
    (r3 >>> 6) ||| ((r0 &&& 0x0F) <<< 2), (r2 >>> 3) &&& 0x1F]

/-- The characters of some indices. -/
def userSymbols : List UInt8 → Outcome Bytes
  | [] => .done []
  | index :: indices =>
    (userSymbol index).bind fun c => (userSymbols indices).bind fun rest => .done (c :: rest)

/-- `generate_user_code` -/
def generateUserCode (r0 r1 r2 r3 : UInt8) : Outcome Bytes :=
  (userSymbols (userIndices r0 r1 r2 r3)).bind fun symbols =>
    .done (cString (symbols.take 4 ++ ascii "-" ++ symbols.drop 4))

/-- What `handle_auth_device` draws from `entropy_get_system`. -/
structure DeviceDraw where
  /-- The bytes of the device code. -/
  device : List UInt8
  /-- There are sixteen of them. -/
  sixteen : device.length = 16
  /-- The first byte of the user code. -/
  r0 : UInt8
  /-- The second byte of the user code. -/
  r1 : UInt8
  /-- The third byte of the user code. -/
  r2 : UInt8
  /-- The fourth byte of the user code. -/
  r3 : UInt8

/-- Bytes in hexadecimal digits. -/
def hexText (bytes : Bytes) : Bytes :=
  bytes.flatMap fun byte => [hexDigit (byte.toNat / 16), hexDigit (byte.toNat % 16)]

/-! ## `handle_auth_device` -/

/-- The reply with a new code. -/
def deviceReply (code : DeviceCode) : Reply :=
  sendJson 200 (snprintf 1024 (ascii "\x7b\"device_code\":\"" ++ code.deviceCode ++
    ascii "\"," ++ ascii "\"user_code\":\"" ++ code.userCode ++ ascii "\"," ++
    ascii "\"verification_uri\":" ++ ascii "\"http://localhost:" ++ ascii "8080" ++
    ascii "/auth/device/verify\"," ++ ascii "\"interval\":5," ++ ascii "\"expires_in\":900\x7d\n"))

/-- The codes that have not expired. -/
def unexpiredCodes (codes : List DeviceCode) (now : Int) : List DeviceCode :=
  codes.filter fun code => decide (now < code.expiresAt)

/-- `handle_auth_device` -/
def handleAuthDevice (config : Config) (request : Request) (now : Int) (draw : DeviceDraw)
    (codes : List DeviceCode) : Outcome DeviceResult :=
  if request.method ≠ ascii "POST" then .done (.plain (sendError 405 "Method not allowed") codes)
  else if config.hasRegistryKey = false then
    .done (.plain (sendError 503 "Auth not configured") codes)
  else
    let codes := unexpiredCodes codes now
    if 64 ≤ codes.length then .done (.plain (sendError 503 "Too many pending device codes") codes)
    else
      (generateUserCode draw.r0 draw.r1 draw.r2 draw.r3).bind fun userCode =>
        let code : DeviceCode := ⟨hexText draw.device, userCode, [], [], 0, now + 900⟩
        .done { DeviceResult.logged (deviceReply code) (codes ++ [code]) (ascii "unknown")
          "device-code-issued" "ok" with issued := some code }

/-! ## `handle_auth_device_verify` -/

/-- A text field of a body, cut to a buffer of a size: empty where it is missing. -/
def bodyField (pattern : Bytes) (size : Nat) (body : Bytes) : Bytes :=
  match strstr pattern body with
  | none => []
  | some start =>
    match strchr quote (start.drop pattern.length) with
    | none => []
    | some _ => ((start.drop pattern.length).takeWhile (· != quote)).take (size - 1)

/-- The user code that a request names. -/
def namedUserCode (body : Bytes) : Bytes := bodyField (ascii "\"user_code\":\"") 16 body

/-- The subject that a request names: the shorter name is read when the longer one is missing. -/
def namedSubject (body : Bytes) : Bytes :=
  match strstr (ascii "\"subject\":\"") body with
  | some _ => bodyField (ascii "\"subject\":\"") 128 body
  | none => bodyField (ascii "\"sub\":\"") 128 body

/-- The password of a request. -/
def namedToken (body : Bytes) : Bytes := bodyField (ascii "\"token\":\"") 512 body

/-- `cred_lookup_ctx` -/
structure CredLookup where
  /-- `hash` -/
  hash : Bytes
  /-- `groups` -/
  groups : Bytes
  /-- `found` -/
  found : Bool

/-- `cred_lookup_cb` -/
def credLookupCb (lookup : CredLookup) (row : Row) : CredLookup where
  hash :=
    match row[0]?.join with
    | some value => value.take 255
    | none => lookup.hash
  groups :=
    match row[1]?.join with
    | some value => value.take 1023
    | none => lookup.groups
  found := true

/-- The lookup of a credential in the rows of its query. -/
def credLookup (rows : List Row) : CredLookup := rows.foldl credLookupCb ⟨[], [], false⟩

/-- The password fits the credential that the query has found. -/
def credentialFits (credentialVerify : Bytes → Bytes → Bool) (rows : List Row) (token : Bytes) :
    Bool :=
  (credLookup rows).found && credentialVerify token (credLookup rows).hash

/-- Authorize the first code with a user code: none where there is none. -/
def authorizeCode (userCode subject groups : Bytes) (now : Int) :
    List DeviceCode → Option (Except Reply (List DeviceCode))
  | [] => none
  | code :: codes =>
    if code.userCode = userCode then
      if code.expiresAt ≤ now then some (.error (sendError 400 "Device code expired"))
      else some (.ok ({ code with
        subject := snprintf 128 subject, groups := snprintf 1024 groups, authorized := 1 } :: codes))
    else (authorizeCode userCode subject groups now codes).map fun rest =>
      rest.map (code :: ·)

/-- The part of `handle_auth_device_verify` behind the body, where `rows` is what the query for the
subject's credential returns. -/
def verifyDevice (credentialVerify : Bytes → Bytes → Bool) (rows : List Row) (now : Int)
    (userCode subject token : Bytes) (codes : List DeviceCode) : DeviceResult :=
  if userCode = [] ∨ subject = [] ∨ token = [] then
    .plain (sendError 400 "user_code, subject, and token required") codes
  else if credentialFits credentialVerify rows token = false then
    .logged (sendError 401 "Invalid credentials") codes subject "device-verify" "bad-credentials"
  else
    match authorizeCode userCode subject (credLookup rows).groups now codes with
    | none => .plain (sendError 404 "Unknown user_code") codes
    | some (.error reply) => .plain reply codes
    | some (.ok codes) =>
      .logged (sendJson 200 (jsonLine "status" (ascii "authorized"))) codes subject "device-verify"
        "ok"

/-- `handle_auth_device_verify` -/
def handleAuthDeviceVerify (credentialVerify : Bytes → Bytes → Bool) (request : Request)
    (rows : List Row) (now : Int) (codes : List DeviceCode) : DeviceResult :=
  if request.method ≠ ascii "POST" then .plain (sendError 405 "Method not allowed") codes
  else
    match readBody request 4096 with
    | none => .plain (sendError 400 "Body required") codes
    | some body =>
      let text := bodyString request body
      verifyDevice credentialVerify rows now (namedUserCode text) (namedSubject text)
        (namedToken text) codes

/-! ## `handle_auth_device_token` -/

/-- The device code that a request names. -/
def namedDeviceCode (body : Bytes) : Bytes := bodyField (ascii "\"device_code\":\"") 64 body

/-- The reply while a code is pending. -/
def pendingReply : Reply := sendError 428 "authorization_pending"

/-- Take an entry out of the table: the last one takes its place. What a pointer to the place reads
then is the last entry. -/
def removeCode (codes : List DeviceCode) (index : Nat) : List DeviceCode :=
  match codes.getLast? with
  | none => []
  | some last => (codes.set index last).dropLast

/-- The token for a code, with the policy of its subject where there is one. -/
def deviceToken (config : Config) (now : Int) (jti : Bytes) (resolved : Option Bytes)
    (code : DeviceCode) : Outcome (Option Bytes) :=
  match resolved with
  | some policy =>
    jwtCreateV2 config.sign now jti code.subject code.groups policy config.jwtTtlSec
  | none => jwtCreate config.sign now jti code.subject code.groups config.jwtTtlSec

/-- The reply with a token. -/
def deviceTokenReply (config : Config) (resolved : Option Bytes) (token : Bytes) : Reply :=
  sendJson 200 (snprintf 8192 (ascii "\x7b\"token\":\"" ++ token ++ ascii "\"," ++
    ascii "\"expires_in\":" ++ decimal config.jwtTtlSec ++ ascii "," ++ ascii "\"version\":" ++
    (if resolved.isSome then ascii "2" else ascii "1") ++ ascii "\x7d\n"))

/-- The part of `handle_auth_device_token` at the entry it has found. The audit line is written when
the entry is gone: its subject is read at the place, where the last entry lies then. -/
def grantDevice (config : Config) (now : Int) (jti : Bytes) (resolved : Option Bytes)
    (codes : List DeviceCode) (index : Nat) (code : DeviceCode) : Outcome DeviceResult :=
  if code.expiresAt ≤ now then .done (.plain (sendError 400 "expired_token") codes)
  else if code.authorized = 0 then .done (.plain pendingReply codes)
  else if code.authorized < 0 then
    .done (.plain (sendError 403 "access_denied") (removeCode codes index))
  else
    (deviceToken config now jti resolved code).bind fun token =>
      match token with
      | none => .done (.plain (sendError 500 "Token creation failed") (removeCode codes index))
      | some token =>
        .done { DeviceResult.logged (deviceTokenReply config resolved token)
          (removeCode codes index) (codes.getLastD code).subject "device-code-token" "ok" with
          made := some ⟨code.deviceCode, code.subject, code.groups, token⟩ }

/-- `handle_auth_device_token` -/
def handleAuthDeviceToken (config : Config) (request : Request) (now : Int) (jti : Bytes)
    (resolved : Option Bytes) (codes : List DeviceCode) : Outcome DeviceResult :=
  if request.method ≠ ascii "POST" then .done (.plain (sendError 405 "Method not allowed") codes)
  else
    match readBody request 4096 with
    | none => .done (.plain (sendError 400 "Body required") codes)
    | some body =>
      let named := namedDeviceCode (bodyString request body)
      if named = [] then .done (.plain (sendError 400 "Missing device_code") codes)
      else
        match codes.findIdx? (·.deviceCode == named) with
        | none => .done (.plain (sendError 400 "Invalid device_code") codes)
        | some index =>
          match codes[index]? with
          | none => .done (.plain (sendError 400 "Invalid device_code") codes)
          | some code => grantDevice config now jti resolved codes index code

end Cookbook.Server
