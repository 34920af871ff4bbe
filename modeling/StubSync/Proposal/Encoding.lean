/-
Proposals, packages and releases as JSON values.
-/
import StubSync.Hosting.Basic
import StubSync.Release
import StubSync.Report.Encoding

namespace StubSync

def Constraint.toJson (constraint : Constraint) : Json :=
  .object [("raw", .text constraint.raw), ("version", constraint.version.toJson),
    ("wildcard", .flag constraint.wildcard)]

/-- The package without the text of its metadata. -/
def Package.toJson (package : Package) : Json :=
  Json.ofFields [("name", some (.text package.name)),
    ("upstream", some (.text package.distribution)),
    ("min_version", some package.minVersion.toJson),
    ("max_version", package.maxVersion.map Version.toJson),
    ("obsolete_since", package.obsoleteSince.map .text),
    ("no_longer_updated", some (.flag package.noLongerUpdated)),
    ("prerelease", some (.flag package.prerelease)),
    ("metadata_path", some (.text package.metadataPath)),
    ("last_known_good", package.lastKnownGood.map .text)]

def Release.toJson (release : Release) : Json :=
  Json.ofFields [("version", some release.version.toJson), ("raw", some (.text release.raw)),
    ("released_at", release.releasedAt.map Instant.toJson),
    ("prerelease", some (.flag release.prerelease)), ("yanked", some (.flag release.yanked)),
    ("typed", some (.flag release.typed))]

def FileChange.toJson (change : FileChange) : Json :=
  .object [("path", .text change.path), ("contents", .text change.contents)]

def Proposal.toJson (proposal : Proposal) : Json :=
  .object [("package", .text proposal.package), ("action", proposal.action.toJson),
    ("dedup_key", .text proposal.dedupKey), ("branch", .text proposal.branch),
    ("title", .text proposal.title), ("commit_message", .text proposal.commitMessage),
    ("body", .text proposal.body), ("changes", .list (proposal.changes.map FileChange.toJson)),
    ("diff", .text proposal.diff), ("base_commit", (proposal.baseCommit.map .text).getD .null)]

def Severity.toJson : Severity → Json
  | .informational => .text "informational"
  | .requires level => .object [("requires", level.toJson)]

end StubSync
