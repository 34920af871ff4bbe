/-
What is found of the proposals that the service shows.

The listings of a branch, of its twin and of all open pull requests are put
together, and each number is kept where it comes first.  The last of the three
listings is read once: as soon as it has been read to its end it is remembered, and
as long as it could not be read every search asks for it again.
-/
import StubSync.Hosting.Publishing
import StubSync.Proofs.Hosting.Atomicity
import StubSync.Proofs.Hosting.Listings
import StubSync.Proofs.Hosting.Pages

namespace StubSync

namespace GitHub

open Interaction (OnlyAsks answering onlyAsks_query seen)

section Merging

variable {all found : List Existing}

/-- The proposals of a list in their order, with each number just once: as it comes
first. -/
structure Merged (all found : List Existing) : Prop where
  sublist : found.Sublist all
  once : (found.map Existing.number).Nodup
  first : ∀ proposal ∈ all, ∃ first ∈ found,
    all.find? (fun other => other.number == proposal.number) = some first

theorem Merged.add (hfound : Merged all found) (proposal : Existing) :
    Merged (all ++ [proposal]) (addNew found proposal) := by
  have hearlier : ∀ earlier ∈ all, ∃ first ∈ found,
      (all ++ [proposal]).find? (fun other => other.number == earlier.number) = some first := by
    intro earlier hearlier
    obtain ⟨first, hmem, hfirst⟩ := hfound.first earlier hearlier
    exact ⟨first, hmem, by rw [List.find?_append, hfirst, Option.some_or]⟩
  unfold addNew
  split
  · rename_i hthere
    obtain ⟨same, hsame, hnumber⟩ := List.any_eq_true.1 hthere
    refine ⟨hfound.sublist.trans (List.sublist_append_left _ _), hfound.once, ?_⟩
    rw [List.forall_mem_append, List.forall_mem_singleton]
    refine ⟨hearlier, ?_⟩
    rw [← beq_iff_eq.1 hnumber]
    exact hearlier same (hfound.sublist.subset hsame)
  · rename_i hnew
    have hother : ∀ earlier ∈ found, earlier.number ≠ proposal.number := by
      intro earlier hmem hsame
      exact hnew (List.any_eq_true.2 ⟨earlier, hmem, beq_iff_eq.2 hsame⟩)
    have hnone : all.find? (fun other => other.number == proposal.number) = none := by
      rw [List.find?_eq_none]
      intro earlier hmem hsame
      obtain ⟨first, hfirst, hfind⟩ := hfound.first earlier hmem
      have hnumber := List.find?_some hfind
      exact hother first hfirst ((beq_iff_eq.1 hnumber).trans (beq_iff_eq.1 hsame))
    refine ⟨hfound.sublist.append_right [proposal], ?_, ?_⟩
    · rw [List.map_append, List.nodup_append]
      refine ⟨hfound.once, by simp, ?_⟩
      simpa using hother
    · rw [List.forall_mem_append, List.forall_mem_singleton]
      constructor
      · intro earlier hmem
        obtain ⟨first, hfirst, hfind⟩ := hearlier earlier hmem
        exact ⟨first, List.mem_append_left _ hfirst, hfind⟩
      · refine ⟨proposal, List.mem_append_right _ (List.mem_singleton_self _), ?_⟩
        rw [List.find?_append, hnone, Option.none_or, List.find?_singleton,
          if_pos (beq_self_eq_true _)]

end Merging

section Shown

variable {σ : Type} {config : GitHub}
  {answer : (question : Http.Question) → σ → Http.Reply question × σ}

/-- What a listing shows of pull requests: those on the pages that may be read. -/
def listed (pulls : List Pull) : List Existing :=
  (pulls.take (perPage * maxPages)).map Pull.toExisting

end Shown

section Searching

variable {config : GitHub} {policy : RetryPolicy} {history : List Step}

end Searching

section Publishing

variable {config : GitHub} {policy : RetryPolicy} {history : List Step}

end Publishing

section Clients

variable {α σ : Type} {config : GitHub} {policy : RetryPolicy} {history : List Step}

variable (answer : (question : Http.Question) → σ → Http.Reply question × σ)

end Clients

namespace FoundExample

open AtomicityExample (config policy)

open PagesExample (item)

def query : Hosting.Query :=
  ⟨"stubsabot/foo/", "stubsabot/foo/bump-1.1"⟩

def opens : List Pull :=
  [⟨7, "url", "open", none, "stubsabot/foo/bump-1.0"⟩]

/-- A service with a rejected proposal on the twin of a branch, and an open one. -/
def shown (target : String) : String :=
  if target = "/repos/octo/stubs/pulls?state=open&per_page=100&page=1" then
    "[" ++ item "7" "open" "stubsabot/foo/bump-1.0" ++ "]"
  else if target = "/repos/octo/stubs/pulls?state=all&per_page=100&page=1" ++
      "&head=octo:stubsabot/foo/bump-1.1-2" then
    "[" ++ item "5" "closed" "stubsabot/foo/bump-1.1-2" ++ "]"
  else "[]"

def answer : (question : Http.Question) → Unit → Http.Reply question × Unit
  | .send request, state => (.ok ⟨200, .ok (shown request.address.target)⟩, state)
  | .pause _, state => ((), state)

end FoundExample

end GitHub

end StubSync
