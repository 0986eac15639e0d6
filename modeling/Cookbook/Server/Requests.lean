import Cookbook.Auth.Jwt
import Cookbook.Library.Calendar
import Cookbook.Server.Machine

/-!
# What the handlers read from a request

The body is read into a buffer that the string functions do not know the end of; the bearer token
comes from the first Authorization field. Times are written into the database as text.
-/
namespace Cookbook.Server

open Library.Text Library.Calendar Grid Auth

/-! ## Bodies -/

/-- `read_body`: none when there is no body or it is longer than the limit. -/
def readBody (request : Request) (maxBytes : Nat) : Option Bytes :=
  if 0 < maxBytes ∧ 0 < request.contentLength ∧ (maxBytes : Int) < request.contentLength then none
  else if request.contentLength ≤ 0 then
    if request.body = [] ∨ 0 < maxBytes ∧ maxBytes ≤ request.body.length then none
    else some request.body
  else
    let body := request.body.take request.contentLength.toNat
    if body = [] then none else some body

/-- A body as the string functions see it: they read on behind it up to a zero. -/
def bodyString (request : Request) (body : Bytes) : Bytes := cString (body ++ request.behindBody)

/-! ## Bearer tokens -/

/-- The token of the Authorization field, when it is a bearer token. -/
def bearerToken (request : Request) : Option Bytes :=
  (findHeader request.headers (ascii "Authorization")).bind fun auth =>
    if ascii "Bearer " <+: auth then some (auth.drop 7) else none

/-! ## Times -/

/-- `utc_now` as a text of the clock. -/
def utcText (now : Int) : Bytes :=
  let date := civilDate (now / 86400)
  let seconds := now % 86400
  decimal date.year ++ ascii "-" ++ twoDigits date.month ++ ascii "-" ++ twoDigits date.day ++
    ascii "T" ++ twoDigits (seconds / 3600) ++ ascii ":" ++ twoDigits (seconds / 60 % 60) ++
    ascii ":" ++ twoDigits (seconds % 60) ++ ascii "Z"

example : utcText 1700000000 = ascii "2023-11-14T22:13:20Z" := by decide +kernel

/-- `utc_now` -/
def utcNow : Handler Bytes := Handler.time.bind fun now => .done (utcText now)

/-! ## Tokens -/

/-- `extract_bearer_jwt`: none where the source does not return zero. -/
def extractBearerJwt (config : Config) (request : Request) : Handler (Option JwtClaims) :=
  if config.hasRegistryKey = false then .done none
  else
    match bearerToken request with
    | none => .done none
    | some token =>
      Handler.time.bind fun now =>
        match jwtVerify config.verify now token with
        | none => .done none
        | some claims =>
          if claims.jti = [] then .done (some claims)
          else
            (Handler.revocationCheck claims.jti).bind fun revoked =>
              .done (if revoked then none else some claims)

end Cookbook.Server
