/-
Versions of a distribution and their order.

Two versions are compared by epoch, then by release segments, then by what
follows the release.  Missing trailing segments count as zero, and a local
label does not take part in the comparison.
-/

namespace StubSync

/-- The phase of a pre-release. -/
inductive Phase where
  | alpha
  | beta
  | candidate
deriving Repr, DecidableEq

structure Version where
  epoch : Nat
  release : List Nat
  pre : Option (Phase × Nat)
  post : Option Nat
  dev : Option Nat
  localLabel : Option String
deriving Repr, DecidableEq

namespace Version

/-- Compare two lists of numbers from the front; a list that ends goes on
with zeros. -/
def compareSegments : List Nat → List Nat → Ordering
  | [], others => if others.all (· == 0) then .eq else .lt
  | n :: segments, others =>
      (compare n (others.headD 0)).then (compareSegments segments others.tail)

/-- The place of a phase among the phases; a development release without a
phase comes before them and a final release after them. -/
def Phase.rank : Phase → Nat
  | .alpha => 1
  | .beta => 2
  | .candidate => 3

/-- What stands after the release segments, as numbers that are compared from
the front. -/
def suffixKey (version : Version) : List Nat :=
  let stage :=
    match version.pre, version.post, version.dev with
    | some (phase, n), _, _ => [Phase.rank phase, n]
    | none, none, some _ => [0, 0]
    | none, _, _ => [4, 0]
  let post :=
    match version.post with
    | none => 0
    | some n => n + 1
  let dev :=
    match version.dev with
    | some n => [0, n]
    | none => [1, 0]
  stage ++ post :: dev

/-- The order of versions. -/
def cmp (left right : Version) : Ordering :=
  (compare left.epoch right.epoch).then <|
    (compareSegments left.release right.release).then
      (compareSegments left.suffixKey right.suffixKey)

instance : Ord Version := ⟨cmp⟩

instance : LE Version := ⟨fun left right => (cmp left right).isLE⟩

instance : LT Version := ⟨fun left right => cmp left right = .lt⟩

instance (left right : Version) : Decidable (left ≤ right) :=
  inferInstanceAs (Decidable ((cmp left right).isLE = true))

instance (left right : Version) : Decidable (left < right) :=
  inferInstanceAs (Decidable (cmp left right = .lt))

/-- The first release segment. -/
def major (version : Version) : Nat :=
  version.release.headD 0

/-- Pre-releases and development releases. -/
def isPrerelease (version : Version) : Bool :=
  version.pre.isSome || version.dev.isSome

/-- A step between the versions changes the epoch or the first segment. -/
def crossesMajor (left right : Version) : Bool :=
  left.epoch != right.epoch || left.major != right.major

/-- The final release with exactly `count` release segments, filled up with
zeros. -/
def truncated (version : Version) (count : Nat) : Version where
  epoch := version.epoch
  release := version.release.take count ++
    List.replicate (count - version.release.length) 0
  pre := none
  post := none
  dev := none
  localLabel := none

/-- Segment by segment, the first list begins with the second; missing
segments count as zero. -/
def beginsWith : List Nat → List Nat → Bool
  | _, [] => true
  | [], n :: others => n == 0 && beginsWith [] others
  | m :: segments, n :: others => m == n && beginsWith segments others

/-- The version lies in the series that all release segments of `series`
name. -/
def isInSeries (version series : Version) : Bool :=
  version.epoch == series.epoch && beginsWith version.release series.release

end Version

end StubSync
