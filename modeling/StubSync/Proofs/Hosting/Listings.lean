/-
What is asked to look for proposals.

A listing is read page by page, so looking for proposals asks for pages and for
pauses between attempts, and for nothing else.
-/
import StubSync.Hosting.Pulls
import StubSync.Proofs.Retry

namespace StubSync

namespace GitHub

open Interaction (OnlyAsks onlyAsks_query)

variable {config : GitHub} {policy : RetryPolicy} {may : Question → Prop}
  (hpause : ∀ span, may (.pause span))

include hpause

theorem call_asks {request : Call} (hrequest : may (.attempt request)) :
    (call policy request).OnlyAsks may := by
  unfold call
  split
  · refine OnlyAsks.bind (retry_onlyAsks (fun _ => onlyAsks_query (hpause _))
      (onlyAsks_query hrequest)) fun result => ?_
    cases result with
    | ok value => trivial
    | error failure => trivial
  · exact onlyAsks_query hrequest

theorem page_asks {state : String} {head : Option String} {number : Nat}
    (hlist : may (.attempt (.listPulls state head number))) :
    (page policy state head number).OnlyAsks may := by
  refine OnlyAsks.bind (call_asks hpause hlist) fun reply => ?_
  cases reply with
  | error error => trivial
  | ok value =>
      dsimp only
      split
      · trivial
      · trivial

theorem pagesFrom_asks {state : String} {head : Option String} {number left : Nat}
    (hlist : ∀ page, number ≤ page → page < number + left →
      may (.attempt (.listPulls state head page))) :
    (pagesFrom policy state head number left).OnlyAsks may := by
  induction left generalizing number with
  | zero => trivial
  | succ left ih =>
      refine (page_asks hpause (hlist number (by omega) (by omega))).bind fun reply => ?_
      cases reply with
      | error error => trivial
      | ok pulls =>
          dsimp only
          split
          · trivial
          · have hrest : (pagesFrom policy state head (number + 1) left).OnlyAsks may :=
              ih fun page hpage hlast => hlist page (by omega) (by omega)
            refine hrest.bind fun others => ?_
            cases others with
            | error error => trivial
            | ok others => trivial

variable (hlist : ∀ state head number, may (.attempt (.listPulls state head number)))

include hlist

theorem findOnBranches_asks (found : List Existing) (branches : List String) :
    (findOnBranches config policy found branches).OnlyAsks may := by
  induction branches generalizing found with
  | nil => trivial
  | cons branch others ih =>
      refine (pagesFrom_asks hpause fun page _ _ => hlist _ _ page).bind fun reply => ?_
      cases reply with
      | error error => trivial
      | ok pulls => exact ih _

theorem openProposals_asks (known : Option (List Existing)) :
    (openProposals policy known).OnlyAsks may := by
  cases known with
  | some proposals => trivial
  | none =>
      refine (pagesFrom_asks hpause fun page _ _ => hlist _ _ page).bind fun reply => ?_
      cases reply with
      | error error => trivial
      | ok pulls => trivial

theorem findProposals_asks (query : Hosting.Query) (known : Option (List Existing)) :
    (findProposals config policy query known).OnlyAsks may := by
  refine (findOnBranches_asks hpause hlist _ _).bind fun found => ?_
  cases found with
  | error error => trivial
  | ok found =>
      refine (openProposals_asks hpause hlist known).bind fun proposals => ?_
      cases proposals with
      | error error => trivial
      | ok proposals => trivial

end GitHub

end StubSync
