import Cookbook.Auth.Base64
import Cookbook.Library.Buffer
import Cookbook.Library.Number

/-!
# Tokens

A token is a JSON payload in base64url behind a fixed header and in front of an Ed25519 signature.
The first version lists group names; the second embeds the grants and the exclusions of a resolved
policy. The reader decodes the payload into a buffer of fixed size and finds every claim by the
first occurrence of its member text.
-/
namespace Cookbook.Auth

open Library.Text

/-! ## Token identifiers -/

/-- A lower-case hexadecimal digit. -/
def hexDigit (value : Nat) : UInt8 := UInt8.ofNat (if value < 10 then 0x30 + value else 0x57 + value)

/-- The bytes that the linear congruential generator draws from a seed, each as two digits. -/
def jtiDigits : Nat → UInt64 → Bytes
  | 0, _ => []
  | count + 1, seed =>
    let seed := seed * 6364136223846793005 + 1442695040888963407
    let byte := (seed >>> 33).toUInt8.toNat
    hexDigit (byte / 16) :: hexDigit (byte % 16) :: jtiDigits count seed

/-- `generate_jti`, from the time, the counter and the address of the caller's buffer. -/
def generateJti (time counter address : UInt64) : Bytes :=
  jtiDigits 16 (time ^^^ (counter * 2654435761) ^^^ address)

/-! ## Members of the payload -/

/-- `"key":` -/
def memberName (key : Bytes) : Bytes := quote :: (key ++ [quote, colon])

/-- `json_write_string`: the value is written as it is. -/
def jsonWriteString (key val : Bytes) (first : Bool) : Bytes :=
  (if first then [] else [comma]) ++ memberName key ++ quote :: (val ++ [quote])

/-- `json_write_int` -/
def jsonWriteInt (key : Bytes) (val : Int) (first : Bool) : Bytes :=
  (if first then [] else [comma]) ++ memberName key ++ decimal val

/-- `json_get_string`: empty where the source leaves the zeroed field alone. -/
def jsonGetString (json key : Bytes) (outSz : Nat) : Bytes :=
  match strstr (memberName key ++ [quote]) json with
  | none => []
  | some start =>
    let start := start.drop (memberName key ++ [quote]).length
    match strchr quote start with
    | none => []
    | some _ => (start.takeWhile (· != quote)).take (outSz - 1)

/-- `json_get_int` -/
def jsonGetInt (json key : Bytes) : Option Int :=
  (strstr (memberName key) json).map fun start => strtoll (start.drop (memberName key).length)

/-- The loop of `json_extract_object`: the text up to the brace that closes the first one. -/
def closeObject : Nat → Bytes → Bytes
  | _, [] => []
  | depth, c :: rest =>
    let depth := if c = openBrace then depth + 1 else if c = closeBrace then depth - 1 else depth
    if 0 < depth then c :: closeObject depth rest else [c]

/-- `json_extract_object` -/
def jsonExtractObject (json key : Bytes) : Option Bytes :=
  (strstr (memberName key ++ [openBrace]) json).map fun start =>
    closeObject 0 (start.drop (memberName key).length)

/-! ## Creation -/

/-- `JWT_HEADER` -/
def jwtHeader : Bytes := ascii "\x7b\"alg\":\"EdDSA\",\"typ\":\"JWT\"\x7d"

/-- Sign an encoded header and payload and append the encoded signature. -/
def sealToken (sign : Bytes → Option Bytes) (hdrB64 payB64 : Bytes) : Option Bytes :=
  if hdrB64 = [] ∨ payB64 = [] then none
  else
    let signingInput := hdrB64 ++ dot :: payB64
    (sign signingInput).bind fun sig =>
      let sigB64 := base64urlEncode sig 128
      if sigB64 = [] then none else some (signingInput ++ dot :: sigB64)

/-- The groups member, left out when there are no groups. -/
def printGroups (groups : Bytes) (cursor : Cursor) : Outcome Cursor :=
  if groups = [] then .done cursor
  else cursor.printf (jsonWriteString (ascii "groups") groups false)

/-- The members that both formats start with. -/
def printIdentity (sub groups jti : Bytes) (cursor : Cursor) : Outcome Cursor :=
  (cursor.printf [openBrace]).bind fun cursor =>
  (cursor.printf (jsonWriteString (ascii "sub") sub true)).bind fun cursor =>
  (printGroups groups cursor).bind fun cursor =>
    cursor.printf (jsonWriteString (ascii "jti") jti false)

/-- The times that both formats end with. -/
def printTimes (now exp : Int) (cursor : Cursor) : Outcome Cursor :=
  (cursor.printf (jsonWriteInt (ascii "iat") now false)).bind fun cursor =>
  (cursor.printf (jsonWriteInt (ascii "exp") exp false)).bind fun cursor =>
    cursor.printf [closeBrace]

/-- The payload of `cookbook_jwt_create`. -/
def jwtPayload (sub groups jti : Bytes) (now exp : Int) : Outcome Bytes :=
  (printIdentity sub groups jti (Cursor.empty 2048)).bind fun cursor =>
  (printTimes now exp cursor).bind fun cursor => .done cursor.text

/-- `cookbook_jwt_create` at the time `now` with a new identifier. -/
def jwtCreate (sign : Bytes → Option Bytes) (now : Int) (jti sub groups : Bytes) (ttl : Int) :
    Outcome (Option Bytes) :=
  (jwtPayload sub groups jti now (now + ttl)).bind fun payload =>
    .done (sealToken sign (base64urlEncode jwtHeader 256) (base64urlEncode payload 4096))

/-- Grow the payload buffer and copy the members of a resolved policy to the position. The copy
brings no terminator: it is read when the text reaches up to it. -/
def spliceMembers (cursor : Cursor) (inner : Bytes) : Cursor where
  cap :=
    if cursor.cap < cursor.pos + inner.length + 64 then cursor.pos + inner.length + 256
    else cursor.cap
  text := if cursor.text.length = cursor.pos then cursor.text ++ inner else cursor.text
  pos := cursor.pos + inner.length

/-- The comma and the members between the outer braces of a resolved policy. -/
def printResolved (resolved : Bytes) (cursor : Cursor) : Outcome Cursor :=
  if 2 ≤ resolved.length ∧ resolved.head? = some openBrace then
    (cursor.printf [comma]).bind fun cursor =>
      .done (spliceMembers cursor ((resolved.drop 1).take (resolved.length - 2)))
  else .done cursor

/-- The payload of `cookbook_jwt_create_v2`. -/
def jwtPayloadV2 (sub groups jti resolved : Bytes) (now exp : Int) : Outcome Bytes :=
  (printIdentity sub groups jti (Cursor.empty (512 + resolved.length))).bind fun cursor =>
  (cursor.printf (jsonWriteInt (ascii "v") 2 false)).bind fun cursor =>
  (printResolved resolved cursor).bind fun cursor =>
  (printTimes now exp cursor).bind fun cursor => .done cursor.text

/-- `cookbook_jwt_create_v2` at the time `now` with a new identifier. -/
def jwtCreateV2 (sign : Bytes → Option Bytes) (now : Int) (jti sub groups resolved : Bytes)
    (ttl : Int) : Outcome (Option Bytes) :=
  (jwtPayloadV2 sub groups jti resolved now (now + ttl)).bind fun payload =>
    .done (sealToken sign (base64urlEncode jwtHeader 256)
      (base64urlEncode payload (payload.length * 2 + 16)))

/-! ## Verification -/

/-- `cookbook_jwt_claims` -/
structure JwtClaims where
  /-- The subject. -/
  sub : Bytes
  /-- The group names, separated by commas. -/
  groups : Bytes
  /-- The token identifier. -/
  jti : Bytes
  /-- The text of the grants object. -/
  grantsJson : Option Bytes
  /-- The text of the exclude object. -/
  excludeJson : Option Bytes
  /-- The time from which on the token is refused. -/
  exp : Int
  /-- The time of issue. -/
  iat : Int
  /-- The token format. -/
  version : Nat
  deriving DecidableEq

/-- The claims of a payload text. -/
def readClaims (payload : Bytes) : JwtClaims :=
  let v2 := jsonGetInt payload (ascii "v") = some 2
  { sub := jsonGetString payload (ascii "sub") 128
    groups := jsonGetString payload (ascii "groups") 1024
    jti := jsonGetString payload (ascii "jti") 64
    grantsJson := if v2 then jsonExtractObject payload (ascii "grants") else none
    excludeJson := if v2 then jsonExtractObject payload (ascii "exclude") else none
    exp := (jsonGetInt payload (ascii "exp")).getD 0
    iat := (jsonGetInt payload (ascii "iat")).getD 0
    version := if v2 then 2 else 1 }

/-- The claims with the expiry checked, as the end of `cookbook_jwt_verify` does. -/
def acceptClaims (now : Int) (claims : JwtClaims) : Option JwtClaims :=
  if 0 < claims.exp ∧ claims.exp < now then none else some claims

/-- `cookbook_jwt_verify` at the time `now`: none where the source returns `-1`. -/
def jwtVerify (verify : Bytes → Bytes → Bool) (now : Int) (token : Bytes) : Option JwtClaims :=
  match strchr dot token with
  | none => none
  | some dot1 =>
    match strchr dot (dot1.drop 1) with
    | none => none
    | some dot2 =>
      let signingInput := token.take (token.length - dot2.length)
      let sig := base64urlDecode (dot2.drop 1) 64
      if sig.length ≠ 64 then none
      else if verify sig signingInput = false then none
      else
        let payB64 := (dot1.drop 1).take ((dot1.drop 1).length - dot2.length)
        let payload := base64urlDecode payB64 4095
        if payload = [] then none else acceptClaims now (readClaims (cString payload))

end Cookbook.Auth
