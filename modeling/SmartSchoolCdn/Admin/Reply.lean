import SmartSchoolCdn.Foundation.Text
import Mathlib.Data.Nat.Notation

/-!
# Requests and replies of the admin server

What the routes of `services/admin-server` share: the error envelope, and the functions of
the JavaScript runtime that they call on strings and URLs.
-/

namespace SmartSchoolCdn

/-- The standard error envelope with its status. -/
structure ErrorReply where
  status : ℕ
  error : String
  message : String
  deriving DecidableEq, Repr

/-- The parts of a `URL` object that the routes read; `query` is `search` without its
question mark. -/
structure WebUrl where
  protocol : String
  hostname : String
  pathname : String
  query : String
  deriving DecidableEq, Repr

/-- The runtime: `String.prototype.trim`, `String.prototype.toLowerCase` and the constructor
of `URL`, which is `none` where it throws. -/
structure Runtime where
  trim : String → String
  toLowerCase : String → String
  parseUrl : String → Option WebUrl

/-- `normalizeHost` of the routes. -/
def Runtime.normalizeHost (js : Runtime) (value : String) : String :=
  js.toLowerCase (js.trim value)

end SmartSchoolCdn
