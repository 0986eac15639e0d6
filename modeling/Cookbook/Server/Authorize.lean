import Cookbook.Policy.Check
import Cookbook.Server.Requests

/-!
# The access check in front of the handlers

Without a registry key every request passes. With one, a request needs a bearer token that is
accepted, that is within the rate limit, and that allows the operation on the group: a token of the
second format by its grants, one of the first by its group names, which reads do not need.
-/
namespace Cookbook.Server

open Library.Text Library.Program Auth

/-- The claims where the check is off. -/
def noClaims : JwtClaims := ⟨[], [], [], none, none, 0, 0, 0⟩

/-- `cookbook_jwt_has_group`: an empty name behind the last comma is not seen. -/
def jwtHasGroup (claims : JwtClaims) (group : Bytes) : Bool :=
  let names := claims.groups.splitOn comma
  (if names.getLast? = some [] then names.dropLast else names).any (· == group)

/-- The decision of `require_auth_v2` on accepted claims. -/
def authorizeClaims (claims : JwtClaims) (groupId : Bytes) (op : UInt8) : Except Reply JwtClaims :=
  if claims.version = 2 then
    if Policy.authCheck claims.grantsJson claims.excludeJson (some groupId) op then .ok claims
    else .error (sendError 403 "Insufficient permissions")
  else if op ≠ 0x72 ∧ jwtHasGroup claims groupId = false then
    .error (sendError 403 "JWT does not authorize this group")
  else .ok claims

/-- `require_auth_v2`: the claims, or the answer that was sent. -/
def requireAuthV2 (config : Config) (request : Request) (groupId : Bytes) (op : UInt8) :
    Handler (Except Reply JwtClaims) :=
  if config.hasRegistryKey = false then .done (.ok noClaims)
  else
    (extractBearerJwt config request).bind fun extracted =>
      match extracted with
      | none => .done (.error (sendError 401 "Valid Bearer JWT required"))
      | some claims =>
        (Handler.checkRateLimit config.rateLimitPerMin claims.sub).bind fun limited =>
          if limited then .done (.error (sendError 429 "Rate limit exceeded"))
          else .done (authorizeClaims claims groupId op)

end Cookbook.Server
