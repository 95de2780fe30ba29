import CatalogQuery.Report.Code
/-!
# Token errors

Why a token does not lead to a page. The wording says nothing about the token itself.
-/
namespace CatalogQuery

inductive TokenError
  /-- Malformed, signed otherwise, for another issuer or audience, or used already. -/
  | invalidToken
  | expiredToken
  /-- The query behind the token is not live any more. -/
  | staleQuery
  /-- No token could be made: its expiry would leave the calendar, or its page has no number. The
  request breaks off there. -/
  | generationFailed
  deriving DecidableEq, Repr, Inhabited

namespace TokenError

def code : TokenError → ErrorCode
  | .invalidToken => .invalidToken
  | .expiredToken => .expiredToken
  | .staleQuery => .staleQuery
  | .generationFailed => .executionFailure

def message : TokenError → String
  | .invalidToken => "Query token is invalid"
  | .expiredToken => "Query token has expired"
  | .staleQuery => "Query is no longer available; re-issue the plan"
  | .generationFailed => "Query token could not be generated"

end TokenError

end CatalogQuery
