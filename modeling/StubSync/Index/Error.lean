/-
What can go wrong between this program and a package index.
-/

namespace StubSync

/-- Each error names the index, and most of them the distribution that was
asked for. -/
inductive IndexError where
  | network (package registry message : String)
  | server (package registry : String) (status : Nat)
  | client (package registry : String) (status : Nat)
  | rateLimited (registry : String)
  | invalid (package registry message : String)
  | timeout (package registry : String)
  /-- All attempts have failed in a passing way. -/
  | unavailable (package registry : String) (attempts : Nat) (message : String)
deriving Repr, DecidableEq

namespace IndexError

def message : IndexError → String
  | .network package registry message =>
      s!"failed to fetch package '{package}' from {registry}: {message}"
  | .server package registry status => s!"{registry} returned HTTP {status} for '{package}'"
  | .client package registry status =>
      s!"{registry} rejected request for '{package}': HTTP {status}"
  | .rateLimited registry => s!"rate limit exceeded for {registry} registry"
  | .invalid package registry message =>
      s!"invalid response from {registry} for '{package}': {message}"
  | .timeout package registry => s!"timeout while fetching '{package}' from {registry}"
  | .unavailable package registry attempts message =>
      s!"{registry} unavailable for '{package}' after {attempts} attempts: {message}"

/-- The error may pass, so asking again is worth it. -/
def isTransient : IndexError → Bool
  | .network .. | .server .. | .rateLimited _ | .timeout .. => true
  | .client .. | .invalid .. | .unavailable .. => false

end IndexError

end StubSync
