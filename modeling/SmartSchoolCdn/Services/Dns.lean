import SmartSchoolCdn.Foundation.FiniteMap
import SmartSchoolCdn.Foundation.Text
import Mathlib.Data.Nat.Notation
import Mathlib.Logic.Function.Basic

/-!
# The resolver of dns-service

`sync_domains` replaces the domain map.  A query of type `A` for a name that the map matches,
exactly or by a wildcard one label up, is answered with the address of the CDN; every other
query goes to the upstream resolver.
-/

namespace SmartSchoolCdn.Dns

/-- `sync_domains`: the map from hosts to origins is built anew. -/
def syncDomains (domains : List (String × String)) : String → Option String :=
  domains.foldl (fun map (d : String × String) => Function.update map d.1 (some d.2)) fun _ => none

/-- A name without the dots at its end. -/
def trimDots (name : String) : String := String.ofList (name.toList.rdropWhile (· == '.'))

/-- The wildcard entry one label up, for a name with a dot. -/
def wildcardOf (host : String) : Option String :=
  (Text.splitOnce host '.').map fun parts => "*." ++ parts.2

/-- `is_domain_registered`. -/
def isDomainRegistered (map : String → Option String) (host : String) : Bool :=
  (map host).isSome || (wildcardOf host).any fun wildcard => (map wildcard).isSome

/-- How a query counts. -/
inductive QueryResult
  | matched
  | nxdomain
  | forwarded
  deriving DecidableEq, Repr

/-- `classify`. -/
def classify (qtypeIsA mapHit : Bool) (upstreamOk : Option Bool) : QueryResult :=
  if qtypeIsA && mapHit then .matched
  else if upstreamOk = some true then .forwarded
  else .nxdomain

/-- The first question of a query, its name as `Name::to_string` writes it. -/
structure Query where
  name : String
  isA : Bool
  deriving DecidableEq, Repr

/-- What becomes of a query: the address of the CDN, or the upstream resolver. -/
inductive Reply
  | cdnAddress
  | upstream
  deriving DecidableEq, Repr

/-- `handle_dns_query` on a message that was decoded, with what it records.  `sent` is whether
the answer can be encoded and sent, `upstreamOk` whether the upstream resolver answers. -/
def handleDnsQuery (map : String → Option String) (query : Option Query) (sent upstreamOk : Bool) :
    Reply × QueryResult :=
  match query with
  | some q =>
    if q.isA then
      if isDomainRegistered map (trimDots q.name) then
        (.cdnAddress, if sent then classify true true none else .nxdomain)
      else (.upstream, classify true false (some upstreamOk))
    else (.upstream, classify false false (some upstreamOk))
  | none => (.upstream, classify false false (some upstreamOk))

/-! ## The map -/

variable {domains : List (String × String)} {host : String}

/-- The hosts of the map are those of the list. -/
theorem isSome_syncDomains : (syncDomains domains host).isSome = true ↔ host ∈ domains.map Prod.fst := by
  have hinsert : ∀ (map : String → Option String) (d : String × String),
      (Function.update map d.1 (some d.2) host).isSome = true ↔ (map host).isSome = true ∨ d.1 = host := by
    intro map d
    by_cases hhost : d.1 = host
    · simp [← hhost]
    · simp [Function.update_of_ne (Ne.symm hhost), hhost]
  rw [syncDomains, FiniteMaps.isSome_foldl hinsert, List.mem_map]
  simp

/-- The CDN answers a query of type `A` when the map has the name without its dots. -/
theorem cdnAddress_iff {map : String → Option String} {name : String} {sent upstreamOk : Bool} :
    (handleDnsQuery map (some ⟨name, true⟩) sent upstreamOk).1 = .cdnAddress ↔
      isDomainRegistered map (trimDots name) = true := by
  unfold handleDnsQuery
  by_cases h : isDomainRegistered map (trimDots name) = true
  · simp [h]
  · simp [h]

example : wildcardOf "a.b.example" = some "*.b.example" := by decide

end SmartSchoolCdn.Dns
