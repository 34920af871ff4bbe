/-
The patch of a report is taken apart into the diffs of its proposed changes.
-/
import Mathlib.Data.List.Forall2
import StubSync.Proofs.Patch.Series
import StubSync.Report.Patches

namespace StubSync

namespace Report

open Patch (Change Piece readPieces)
open Text (IsFullLine toList_intercalate_empty)

/-- The diff that an entry brings into the patch of its report. -/
def proposedDiff? (entry : Entry) : Option String :=
  if entry.outcome.isProposed then entry.diff else none

/-- The diffs of the proposed changes, in the order of the report. -/
def proposedDiffs (report : Report) : List String :=
  report.entries.filterMap proposedDiff?

section Printing

variable {entry : Entry} {entries : List Entry} {diff : String}

theorem entryPatch_of_none (hnone : proposedDiff? entry = none) : entryPatch entry = "" := by
  obtain ⟨_, _, _, _, outcome, diff⟩ := entry
  cases outcome <;> cases diff <;> first | rfl | cases hnone

theorem entryPatch_of_some (hsome : proposedDiff? entry = some diff)
    (hends : ['\n'] <:+ diff.toList) : entryPatch entry = diff := by
  have hfeed : diff.endsWith "\n" = true := by
    rw [String.endsWith_eq_endsWith_toSlice, String.Slice.endsWith_string_iff]
    simpa using hends
  obtain ⟨_, _, _, _, outcome, given⟩ := entry
  cases outcome <;> cases given <;> cases hsome
  exact if_pos hfeed

/-- Diffs that end with a line end follow each other as they are. -/
theorem flatten_entryPatch
    (hends : ∀ diff ∈ entries.filterMap proposedDiff?, ['\n'] <:+ diff.toList) :
    (entries.map fun entry => (entryPatch entry).toList).flatten =
      ((entries.filterMap proposedDiff?).map String.toList).flatten := by
  induction entries with
  | nil => rfl
  | cons entry others ih =>
      cases hdiff : proposedDiff? entry with
      | none =>
          rw [List.filterMap_cons_none hdiff] at hends ⊢
          rw [List.map_cons, List.flatten_cons, entryPatch_of_none hdiff, ih hends]
          rfl
      | some diff =>
          rw [List.filterMap_cons_some hdiff, List.forall_mem_cons] at hends
          rw [List.filterMap_cons_some hdiff, List.map_cons, List.flatten_cons, List.map_cons,
            List.flatten_cons, entryPatch_of_some hdiff hends.1, ih hends.2]

/-- What the summary says behind its mark. -/
def summaryWords (report : Report) : List Char :=
  ' ' :: (Decimal.digits report.proposedCount ++ (" change(s) ".toList ++
    ((if report.dryRun then "would be proposed" else "proposed").toList ++ (", ".toList ++
      (Decimal.digits report.reviewCount ++ (" need review, ".toList ++
        (Decimal.digits report.failedCount ++ " failed".toList)))))))

theorem toList_patchSummary (report : Report) :
    report.patchSummary.toList = '#' :: (summaryWords report ++ ['\n']) := by
  change ("# " ++ toString report.proposedCount ++ " change(s) " ++
    (if report.dryRun then "would be proposed" else "proposed") ++ ", " ++
    toString report.reviewCount ++ " need review, " ++
    (toString report.failedCount ++ " failed\n")).toList = _
  simp only [String.toList_append, Decimal.toList_toString, summaryWords, List.append_assoc,
    List.cons_append]
  rfl

/-- The summary is one line. -/
theorem isFullLine_summary (report : Report) :
    IsFullLine ('#' :: (summaryWords report ++ ['\n'])) := by
  have hdigits : ∀ n, '\n' ∉ Decimal.digits n := Decimal.not_mem_digits (by decide)
  have hverb : '\n' ∉ (if report.dryRun then "would be proposed" else "proposed").toList := by
    cases report.dryRun <;> decide
  refine (Text.isFullLine_append ?_).cons (by decide)
  simp only [summaryWords, List.mem_cons, List.mem_append, not_or]
  exact ⟨by decide, hdigits _, by decide, hverb, by decide, hdigits _, by decide, hdigits _,
    by decide⟩

end Printing

section Splitting

variable {report : Report} {changes : List Change}

theorem readPieces_toPatch (hdiffs : report.proposedDiffs = changes.map Change.diff)
    (hreal : ∀ change ∈ changes, change.IsReal) :
    readPieces report.toPatch = changes.map Change.piece := by
  have hends : ∀ diff ∈ report.proposedDiffs, ['\n'] <:+ diff.toList := by
    rw [hdiffs, List.forall_mem_map]
    exact fun change hchange => (hreal change hchange).feed_suffix_diff
  refine Patch.readPieces_diffs hreal (isFullLine_summary report) (by decide) (by decide)
    (by decide) ?_
  rw [toPatch, String.toList_append, toList_intercalate_empty, toList_patchSummary, List.map_map]
  refine congrArg (· ++ _) ?_
  calc (report.entries.map (String.toList ∘ entryPatch)).flatten
    _ = (report.proposedDiffs.map String.toList).flatten := flatten_entryPatch hends
    _ = (changes.map fun change => change.diff.toList).flatten := by
      rw [hdiffs, List.map_map]
      rfl

/-- Readers of patches find exactly the proposed diffs in the patch of a report,
in its order, and each of them takes its old text to its new one. -/
theorem toPatch_splits (hdiffs : report.proposedDiffs = changes.map Change.diff)
    (hreal : ∀ change ∈ changes, change.IsReal) :
    (readPieces report.toPatch).map Piece.text = report.proposedDiffs ∧
      List.Forall₂
        (fun change piece => piece.oldPath = change.path ∧ piece.newPath = change.path ∧
          piece.applyTo? change.old = some change.new)
        changes (readPieces report.toPatch) := by
  rw [readPieces_toPatch hdiffs hreal]
  refine ⟨?_, ?_⟩
  · rw [hdiffs, List.map_map]
    exact List.map_congr_left fun change _ => Patch.text_piece change
  · rw [List.forall₂_map_right_iff, List.forall₂_same]
    exact fun change _ => ⟨rfl, rfl, Patch.applyTo?_piece change⟩

end Splitting

namespace PatchesExample

/-- Lines that imitate the head of a patch and the summary give way to a line cut
off behind ranges. -/
def imitating : Change where
  path := "stubs/left/METADATA.toml"
  old := "-- a/stubs/right/METADATA.toml\n++ b/stubs/right/METADATA.toml\n# 1 change(s)\r\n"
  new := "# 1 change(s)\r\n@@ -1,2 +1 @@"

def plain : Change where
  path := "stubs/right/METADATA.toml"
  old := "version = \"1.*\""
  new := "version = \"2.*\"\n"

def bump : Action :=
  .update ⟨0, [1], none, none, none, none⟩ ⟨0, [2], none, none, none, none⟩

def entry (package : String) (outcome : Outcome) (diff : Option String) : Entry :=
  { package, distribution := package, current := "1.*", outcome, diff }

/-- Two diffs that count, next to entries that have none or did not come to a
proposal. -/
def mixed : Report where
  level := .everything
  dryRun := true
  startedAt := ⟨0, 0⟩
  entries :=
    [entry "left" (.proposed bump "stub-sync/left" none) (some imitating.diff),
      entry "lost" (.failed "no such branch") (some plain.diff),
      entry "made" (.proposed bump "stub-sync/made" none) none,
      entry "right" (.proposed bump "stub-sync/right" none) (some plain.diff)]

theorem mixed_splits :
    imitating.diff =
        "--- a/stubs/left/METADATA.toml\n+++ b/stubs/left/METADATA.toml\n@@ -1,3 +1,2 @@\n" ++
          "--- a/stubs/right/METADATA.toml\n-++ b/stubs/right/METADATA.toml\n" ++
          "-# 1 change(s)\r\n+# 1 change(s)\r\n+@@ -1,2 +1 @@\n" ++
          "\\ No newline at end of file\n" ∧
      (readPieces mixed.toPatch).map Piece.text = [imitating.diff, plain.diff] ∧
      List.Forall₂
        (fun change piece => piece.oldPath = change.path ∧ piece.newPath = change.path ∧
          piece.applyTo? change.old = some change.new)
        [imitating, plain] (readPieces mixed.toPatch) := by
  have hdiffs : mixed.proposedDiffs = [imitating, plain].map Change.diff := rfl
  have hreal : ∀ change ∈ [imitating, plain], change.IsReal := by
    rw [List.forall_mem_cons, List.forall_mem_singleton]
    exact ⟨⟨by decide, by decide⟩, ⟨by decide, by decide⟩⟩
  obtain ⟨htexts, hpieces⟩ := toPatch_splits hdiffs hreal
  exact ⟨by decide +kernel, htexts, hpieces⟩

end PatchesExample

end Report

end StubSync
