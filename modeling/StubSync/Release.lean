/-
Releases of a distribution.
-/
import StubSync.Time.Instant
import StubSync.Version.Printer
import StubSync.Version.Reader

namespace StubSync

structure Release where
  version : Version
  /-- The version as it was published. -/
  raw : String
  releasedAt : Option Instant := none
  prerelease : Bool
  yanked : Bool := false
  /-- The distribution ships its own types. -/
  typed : Bool := false
deriving Repr, DecidableEq

namespace Release

def parse (raw : String) : Except VersionError Release := do
  let version ← Version.parse raw
  return { version, raw, prerelease := version.isPrerelease }

/-- A release counts unless it is yanked, or is a pre-release where these are
not followed. -/
def isEligible (release : Release) (includePrereleases : Bool) : Bool :=
  !release.yanked && (includePrereleases || !release.prerelease)

def compareOption {α : Type} (cmp : α → α → Ordering) : Option α → Option α → Ordering
  | none, none => .eq
  | none, some _ => .lt
  | some _, none => .gt
  | some left, some right => cmp left right

/-- By version, and among spellings of one version by all other fields, so
that releases which compare equal are spelled alike. -/
def cmp (left right : Release) : Ordering :=
  (Version.cmp left.version right.version).then <|
    (compare left.raw right.raw).then <|
      (compareOption Instant.cmp left.releasedAt right.releasedAt).then <|
        (compare left.prerelease right.prerelease).then <|
          (compare left.yanked right.yanked).then
            (compare left.typed right.typed)

/-- The newer of two releases; of equal ones the second. -/
def newer (left right : Release) : Release :=
  if (cmp left right).isLE then right else left

/-- The newest release that counts. -/
def latest? (releases : List Release) (includePrereleases : Bool) : Option Release :=
  match releases.filter (·.isEligible includePrereleases) with
  | [] => none
  | first :: others => some (others.foldl newer first)

/-- The releases from the newest to the oldest. -/
def newestFirst (releases : List Release) : List Release :=
  releases.mergeSort fun left right => (cmp right left).isLE

end Release

end StubSync
