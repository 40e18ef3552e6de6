import SmartSchoolCdn.Foundation.Text
import Mathlib.Data.Nat.Notation

/-!
# HTTP messages

The values of the `http` crate that the proxy reads: methods, request URIs, header maps and
messages.  Header names are lower case, as `HeaderName` keeps them; a header value is a
string whose characters stand for its bytes, so that a byte outside visible ASCII is a
character for which `toStr` fails.
-/

namespace SmartSchoolCdn

/-- Bodies. -/
abbrev Bytes := List UInt8

/-- Points in time and lengths of time, in nanoseconds. -/
abbrev Time := ℕ

/-- One second. -/
def second : Time := 1000000000

/-- The whole seconds of a point in time (`DateTime::timestamp`). -/
def timestamp (t : Time) : ℕ := t / second

/-- Request methods. -/
inductive Method
  | get
  | head
  | other (name : String)
  deriving DecidableEq, Repr

/-- A request URI. `schemeAuthority` is empty unless the request line has the absolute form. -/
structure Uri where
  schemeAuthority : String
  path : String
  query : Option String
  deriving DecidableEq, Repr

namespace Uri

/-- `uri.query().unwrap_or("")`. -/
def queryOrEmpty (u : Uri) : String := u.query.getD ""

/-- `uri.path_and_query()`. -/
def pathAndQuery (u : Uri) : String :=
  match u.query with
  | some q => u.path ++ "?" ++ q
  | none => u.path

/-- `uri.to_string()`. -/
def toText (u : Uri) : String := u.schemeAuthority ++ u.pathAndQuery

end Uri

/-- A header map: names in lower case, several values of one name in their order. -/
abbrev HeaderMap := List (String × String)

/-- `HeaderValue::to_str`: the value when all its bytes are visible ASCII or tabs. -/
def toStr (v : String) : Option String :=
  if v.toList.all fun c => c == '\t' || (32 ≤ c.toNat && c.toNat < 127) then some v else none

namespace HeaderMap

/-- `headers.get(name)`: the first value of a name. -/
def get (h : HeaderMap) (name : String) : Option String :=
  (h.find? fun nv => nv.1 == name).map (·.2)

/-- `headers.get_all(name)`. -/
def getAll (h : HeaderMap) (name : String) : List String :=
  (h.filter fun nv => nv.1 == name).map (·.2)

/-- `headers.contains_key(name)`. -/
def containsKey (h : HeaderMap) (name : String) : Bool :=
  h.any fun nv => nv.1 == name

/-- `headers.get(name).and_then(|v| v.to_str().ok())`. -/
def getStr (h : HeaderMap) (name : String) : Option String :=
  (get h name).bind toStr

/-- The first value in two header lists one after the other. -/
lemma get_append (h h' : HeaderMap) (name : String) :
    get (h ++ h') name = (get h name).or (get h' name) := by
  unfold get
  rw [List.find?_append]
  cases h.find? fun nv => nv.1 == name <;> rfl

/-- A name that no entry has has no value. -/
lemma get_eq_none {h : HeaderMap} {name : String} (hname : ∀ nv ∈ h, nv.1 ≠ name) :
    get h name = none := by
  unfold get
  rw [List.find?_eq_none.mpr, Option.map_none]
  intro nv hnv
  simpa using hname nv hnv

end HeaderMap

/-- A client request. -/
structure Request where
  method : Method
  uri : Uri
  headers : HeaderMap
  deriving DecidableEq, Repr

/-- The response of an origin server, read completely. -/
structure OriginResponse where
  status : ℕ
  headers : HeaderMap
  body : Bytes
  deriving DecidableEq, Repr

/-- A response the proxy sends; the header list is in the order of the builder calls. -/
structure Response where
  status : ℕ
  headers : HeaderMap
  body : Bytes
  deriving DecidableEq, Repr

/-- `status.is_success()`. -/
def isSuccess (status : ℕ) : Bool := 200 ≤ status && status < 300

/-- `status.is_server_error()`. -/
def isServerError (status : ℕ) : Bool := 500 ≤ status && status < 600

end SmartSchoolCdn
