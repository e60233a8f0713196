import Throttle.Http.Message

/-!
Signing requests. An authorizer is asked each time a request is about to leave, so that what waited
long leaves with the credentials of the moment; it may refuse.
-/

namespace Throttle

open Http

/-- Why a request was not signed. -/
structure Refusal where
  reason : String
  deriving DecidableEq, Repr

/-- Adds credentials to a request, or refuses to. -/
abbrev Authorizer := Request → Except Refusal Request

namespace Authorizer

/-- Leaves every request as it is. -/
def none : Authorizer := .ok

/-- Signs with a bearer token, if it can stand in a header. -/
def bearer (token : String) : Authorizer := fun r =>
  match HeaderValue.ofString? ("Bearer " ++ token) with
  | some v => .ok (r.withHeader authorizationName { v with sensitive := true })
  | .none => .error ⟨"Bearer token is not a valid header value."⟩

/-- Refuses the requests to addresses that hold a text. -/
def refusing (part : String) (reason : String) : Authorizer := fun r =>
  if (r.url.render.splitOn part).length > 1 || part.isEmpty then .error ⟨reason⟩ else .ok r

end Authorizer

/-- The written form of a token does not show it. -/
def bearerTokenText : String := "BearerToken(<redacted>)"

end Throttle
