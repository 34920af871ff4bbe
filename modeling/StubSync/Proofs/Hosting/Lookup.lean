/-
What the service is asked for when the pull requests of a branch are listed.

The branch is put into the query as it is.  Of all the characters that branches
have only `+` stands for another one there, and a branch has it just if its
version has a local label.  Then the service is asked for a branch with a blank
in its name, and no branch has one.
-/
import StubSync.Proofs.Hosting.Atomicity
import StubSync.Proofs.Hosting.Conversation
import StubSync.Proofs.Hosting.Listings
import StubSync.Proofs.Hosting.Pages
import StubSync.Proofs.Hosting.Query
import StubSync.Proofs.Http.Query
import StubSync.Proofs.Proposal.Identity

namespace StubSync

namespace GitHub

open Http (IsPair blanked isValueChar isValueChar_iff pairText parameters? queryText)

open Proposal (Change twinBranch twinMark)

theorem isValueChar_of_isPlain {c : Char} (hc : Version.isPlain c = true) :
    isValueChar c = true :=
  isValueChar_of (fun _ hplain => (Version.toNat_of_isPlain hplain).1) (by decide) hc

section Addresses

variable {config : GitHub} {state head : String} {page : Nat}

/-- The address of the repository, which all that is asked for goes on from. -/
def lead (config : GitHub) : String :=
  Text.dropTrailing '/' config.apiUrl ++ ("/repos/" ++ config.repository)

theorem url_listPulls (config : GitHub) (state head : String) (page : Nat) :
    config.url (.listPulls state (some head) page) =
      String.ofList (config.lead.toList ++
        '/' :: ("pulls".toList ++ '?' :: queryText (lookup state head page))) := by
  rw [← toList_path_listPulls, ← String.toList_append, String.ofList_toList]
  rfl

/-- The name of the repository has the characters of names, and the address of the
service has no query and no fragment. -/
structure IsReached (config : GitHub) : Prop where
  repository : ∀ c ∈ config.repository.toList, isNameChar c = true ∨ c = '/'
  apiUrl : '#' ∉ config.apiUrl.toList ∧ '?' ∉ config.apiUrl.toList

theorem IsReached.mem_repository (hconfig : config.IsReached) :
    ∀ c ∈ config.repository.toList, isHeadChar c = true := by
  intro c hc
  rcases hconfig.repository c hc with hname | rfl
  · exact isHeadChar_of_isNameChar hname
  · decide

theorem IsReached.mem_lead (hconfig : config.IsReached) :
    ∀ c ∈ config.lead.toList, c ∈ config.apiUrl.toList ∨ isHeadChar c = true := by
  have hrepos : ∀ c ∈ "/repos/".toList, isHeadChar c = true := List.all_eq_true.1 rfl
  intro c hc
  rw [lead, String.toList_append, String.toList_append, List.mem_append, List.mem_append] at hc
  rcases hc with hc | hc | hc
  · exact Or.inl (Text.mem_of_mem_dropTrailing hc)
  · exact Or.inr (hrepos c hc)
  · exact Or.inr (hconfig.mem_repository c hc)

theorem IsReached.lead (hconfig : config.IsReached) :
    '#' ∉ config.lead.toList ∧ '?' ∉ config.lead.toList := by
  constructor
  · intro hmem
    exact (hconfig.mem_lead _ hmem).elim hconfig.apiUrl.1 (absurd · (by decide))
  · intro hmem
    exact (hconfig.mem_lead _ hmem).elim hconfig.apiUrl.2 (absurd · (by decide))

/-- What a listing is asked for is read back, but for blanks out of `+`. -/
theorem parameters?_of_requestOf? {request : Http.Request}
    (hstate : ∀ c ∈ state.toList, isValueChar c = true)
    (hhead : ∀ c ∈ head.toList, isValueChar c = true) (hconfig : config.IsReached)
    (hrequest : config.requestOf? (.listPulls state (some head) page) = some request) :
    request.address.query.bind parameters? =
      some ((lookup state head page).map fun pair => (blanked pair.1, blanked pair.2)) := by
  obtain ⟨address, hread, rfl⟩ := Option.map_eq_some_iff.1 hrequest
  rw [url_listPulls] at hread
  apply Address.parameters?_of_read? hconfig.lead _ (List.cons_ne_nil _ _)
    (isPair_of_mem_lookup hstate hhead) hread
  intro c hc
  have hpulls : isHeadChar c = true := List.all_eq_true.1 rfl c hc
  exact ⟨visible_of_isHeadChar hpulls, ne_of_isHeadChar (by decide) hpulls,
    ne_of_isHeadChar (by decide) hpulls⟩

end Addresses

section Heads

variable {config : GitHub} {change : Change} {more : String}

/-- What stands in front of the version in the head of a change. -/
def headFront (config : GitHub) (change : Change) : String :=
  config.owner ++ ":" ++ (Proposal.branchLead change.stub ++ (change.action.kind ++ "-"))

theorem headOf_eq (config : GitHub) (change : Change) (more : String) :
    config.headOf (change.branch ++ more) =
      config.headFront change ++ toString change.version ++ more := by
  rw [headOf, Change.branch, headFront]
  simp only [String.append_assoc]
  rfl

theorem IsReached.mem_owner (hconfig : config.IsReached) :
    ∀ c ∈ config.owner.toList, isHeadChar c = true := by
  intro c hc
  apply hconfig.mem_repository
  unfold owner at hc
  split at hc
  · rename_i owner name hcut
    rw [String.toList_ofList] at hc
    rw [(Text.cutAt?_eq_some_iff.1 hcut).2]
    exact List.mem_append_left _ hc
  · exact hc

theorem mem_headFront (hconfig : config.IsReached)
    (hstub : ∀ c ∈ change.stub.toList, isNameChar c = true) :
    ∀ c ∈ (config.headFront change).toList, isHeadChar c = true := by
  have hkind : ∀ c ∈ change.action.kind.toList, isHeadChar c = true := by
    rcases change.kind_toList with hkind | hkind
    · rw [hkind]
      exact List.all_eq_true.1 rfl
    · rw [hkind]
      exact List.all_eq_true.1 rfl
  simp only [headFront, Proposal.branchLead, String.toList_append, List.forall_mem_append]
  exact ⟨⟨hconfig.mem_owner, List.all_eq_true.1 rfl⟩,
    ⟨⟨⟨List.all_eq_true.1 rfl, List.all_eq_true.1 rfl⟩,
      fun c hc => isHeadChar_of_isNameChar (hstub c hc)⟩, List.all_eq_true.1 rfl⟩,
    hkind, List.all_eq_true.1 rfl⟩

variable (hconfig : config.IsReached) (hstub : ∀ c ∈ change.stub.toList, isNameChar c = true)
  (hmore : ∀ c ∈ more.toList, isHeadChar c = true)

include hconfig hstub hmore

theorem isValueChar_of_mem_headOf :
    ∀ c ∈ (config.headOf (change.branch ++ more)).toList, isValueChar c = true := by
  have hversion : ∀ c ∈ (toString change.version).toList, isValueChar c = true := by
    rw [Version.toList_toString]
    exact fun c hc => isValueChar_of_isPlain (Version.isPlain_of_mem_spell change.wellFormed c hc)
  rw [headOf_eq, String.toList_append, String.toList_append, List.forall_mem_append,
    List.forall_mem_append]
  exact ⟨⟨fun c hc => isValueChar_of_isHeadChar (mem_headFront hconfig hstub c hc), hversion⟩,
    fun c hc => isValueChar_of_isHeadChar (hmore c hc)⟩

/-- A head is read back as it is just if its version has no local label. -/
theorem blanked_headOf_iff : blanked (config.headOf (change.branch ++ more)) =
    config.headOf (change.branch ++ more) ↔ change.version.localLabel = none := by
  have hfront : '+' ∉ (config.headFront change).toList := fun hmem =>
    absurd (mem_headFront hconfig hstub _ hmem) (by decide)
  have hend : '+' ∉ more.toList := fun hmem => absurd (hmore _ hmem) (by decide)
  rw [Http.blanked_eq_self_iff, headOf_eq, String.toList_append, String.toList_append,
    List.mem_append, List.mem_append, Version.toList_toString, Version.plus_mem_spell_iff]
  simp only [hfront, hend, false_or, or_false, ne_eq, not_not]

end Heads

section Requests

variable {config : GitHub} {policy : RetryPolicy} {state head : String}

/-- The question asks for a page of the listing. -/
def IsPage (state : String) (head : Option String) : Question → Prop
  | .attempt call => ∃ page, 1 ≤ page ∧ page ≤ maxPages ∧ call = .listPulls state head page
  | .pause _ => True

/-- The request is that for a page of the listing. -/
def IsPageRequest (config : GitHub) (state : String) (head : Option String) :
    Http.Question → Prop
  | .send request => ∃ page, 1 ≤ page ∧ page ≤ maxPages ∧
      config.requestOf? (.listPulls state head page) = some request
  | .pause _ => True

theorem listPulls_asks (state : String) (head : Option String) :
    (listPulls policy state head).OnlyAsks (IsPage state head) :=
  pagesFrom_asks (fun _ => trivial) fun page hfirst hlast =>
    ⟨page, hfirst, Nat.lt_succ_iff.1 (by rwa [Nat.add_comm] at hlast), rfl⟩

theorem overWeb_isPageRequest {head : Option String} {question : Question}
    (hquestion : IsPage state head question) :
    (config.overWeb question).OnlyAsks (config.IsPageRequest state head) := by
  cases question with
  | pause span => exact Interaction.onlyAsks_query trivial
  | attempt call =>
      rw [overWeb_attempt]
      cases hrequest : config.requestOf? call with
      | none => trivial
      | some request =>
          refine ⟨?_, fun _ => trivial⟩
          obtain ⟨page, hfirst, hlast, rfl⟩ := hquestion
          exact ⟨page, hfirst, hlast, hrequest⟩

theorem isPageRequest_of_mem_sends {σ : Type} {head : Option String} {sent : Http.Sent}
    (answer : (question : Http.Question) → σ → Http.Reply question × σ) (start : σ)
    (hsent : sent ∈ Http.sends
      (((listPulls policy state head).interpret config.overWeb).trace answer start)) :
    config.IsPageRequest state head (.send sent.request) := by
  have hasks : ((listPulls policy state head).interpret config.overWeb).OnlyAsks
      (config.IsPageRequest state head) :=
    (listPulls_asks state head).interpret fun _ hquestion => overWeb_isPageRequest hquestion
  obtain ⟨⟨question, before, reply⟩, hmem, hseen⟩ := List.mem_filterMap.1 hsent
  cases question with
  | pause span => cases hseen
  | send request =>
      cases hseen
      exact hasks.mem_trace hmem

section Sent

variable {σ : Type} (policy : RetryPolicy) (hconfig : config.IsReached)
  (hstate : state = "open" ∨ state = "all")
  (answer : (question : Http.Question) → σ → Http.Reply question × σ) (start : σ)

/-- Whatever is sent to list the pull requests of a head is a request for a page of
the listing, and the service reads `shown` in it as the head. -/
def AsksFor (config : GitHub) (policy : RetryPolicy) (state head shown : String)
    (answer : (question : Http.Question) → σ → Http.Reply question × σ) (start : σ) : Prop :=
  ∀ sent ∈ Http.sends
      (((listPulls policy state (some head)).interpret config.overWeb).trace answer start),
    ∃ page, 1 ≤ page ∧ page ≤ maxPages ∧
      config.requestOf? (.listPulls state (some head) page) = some sent.request ∧
      sent.request.address.query.bind parameters? =
        some [("state", state), ("per_page", "100"), ("page", toString page), ("head", shown)]

include hconfig hstate

theorem listPulls_asksFor (hhead : ∀ c ∈ head.toList, isValueChar c = true) :
    AsksFor config policy state head (blanked head) answer start := by
  have hchars : ∀ c ∈ state.toList, isValueChar c = true := by
    rcases hstate with rfl | rfl
    · exact List.all_eq_true.1 rfl
    · exact List.all_eq_true.1 rfl
  intro sent hsent
  obtain ⟨page, hfirst, hlast, hrequest⟩ := isPageRequest_of_mem_sends answer start hsent
  refine ⟨page, hfirst, hlast, hrequest, ?_⟩
  have hplus : '+' ∉ state.toList := by
    rcases hstate with rfl | rfl <;> decide
  rw [parameters?_of_requestOf? hchars hhead hconfig hrequest, blanked_lookup hplus]
  rfl

/-- Every request of the listings of a branch and of its twin is read by the service
as it was meant, but for blanks in the head that have come out of `+`.  There are
such blanks just if the version of the branch has a local label. -/
theorem listPulls_asks_for_branch {change : Change}
    (hstub : ∀ c ∈ change.stub.toList, isNameChar c = true) :
    ∃ branch, Proposal.branch? change.stub change.action = some branch ∧
      ∀ head ∈ [config.headOf branch, config.headOf (twinBranch branch)],
        AsksFor config policy state head (blanked head) answer start ∧
        (blanked head = head ↔ change.version.localLabel = none) := by
  refine ⟨change.branch, change.branch?_eq, ?_⟩
  have hbranch (more : String) (hmore : ∀ c ∈ more.toList, isHeadChar c = true) :=
    And.intro
      (listPulls_asksFor policy hconfig hstate answer start
        (isValueChar_of_mem_headOf hconfig hstub hmore))
      (blanked_headOf_iff hconfig hstub hmore)
  have hfirst := hbranch "" (List.forall_mem_nil _)
  rw [String.append_empty] at hfirst
  rw [List.forall_mem_cons, List.forall_mem_singleton]
  exact ⟨hfirst, hbranch twinMark (List.all_eq_true.1 rfl)⟩

end Sent

end Requests

namespace LookupExample

open AtomicityExample (config policy)

open PagesExample (item)

/-- A step to a version with an epoch. -/
def change : Change where
  stub := "foo-bar"
  action := .update ⟨0, [1, 0], none, none, none, none⟩ ⟨1, [1, 1], none, none, none, none⟩
  version := ⟨1, [1, 1], none, none, none, none⟩
  isStubName := by decide
  isTarget := rfl
  isRead := ⟨"1!1.1", rfl⟩

/-- A step to a version with a local label. -/
def labelled : Change where
  stub := "six"
  action := .update ⟨0, [1, 0], none, none, none, none⟩ ⟨0, [1, 1], none, none, none, some "abc"⟩
  version := ⟨0, [1, 1], none, none, none, some "abc"⟩
  isStubName := by decide
  isTarget := rfl
  isRead := ⟨"1.1+abc", rfl⟩

/-- A service with one pull request, which was rejected; it is listed where its
branch is asked for. -/
def answer (branch : String) : (question : Http.Question) → Unit → Http.Reply question × Unit
  | .send request, state =>
      let asked := (request.address.query.bind parameters?).getD []
      let shown := if asked.contains ("head", "octo:" ++ branch) then
        "[" ++ item "1" "closed" branch ++ "]" else "[]"
      (.ok ⟨200, .ok shown⟩, state)
  | .pause _, state => ((), state)

/-- A service without pull requests. -/
def empty : (question : Http.Question) → Unit → Http.Reply question × Unit
  | .send _, state => (.ok ⟨200, .ok "[]"⟩, state)
  | .pause _, state => ((), state)

/-- What a service reads in the requests that list the pull requests of a branch. -/
def asked (branch : String) : List (Option (List (String × String))) :=
  (Http.sends (((listPulls policy "all" (some (config.headOf branch))).interpret
    config.overWeb).trace empty ())).map fun sent => sent.request.address.query.bind parameters?

/-- The proposals that are found by the one who asks for a branch. -/
def found (branch : String) : Option (List Existing) :=
  (((findProposals config policy ⟨"stubsabot/six/", branch⟩ none).interpret
    config.overWeb).run (answer branch) ()).1.1.toOption

theorem isReached_config : config.IsReached where
  repository := by
    intro c hc
    have hname := List.all_eq_true.1
      (rfl : config.repository.toList.all (fun c => isNameChar c || c == '/') = true) c hc
    simpa using hname
  apiUrl := by decide

theorem change_asked_for :
    config.IsReached ∧ (∀ c ∈ change.stub.toList, isNameChar c = true) ∧
      asked "stubsabot/foo-bar/bump-1!1.1" =
        [some [("state", "all"), ("per_page", "100"), ("page", "1"),
          ("head", "octo:stubsabot/foo-bar/bump-1!1.1")]] ∧
      ∃ branch, Proposal.branch? change.stub change.action = some branch ∧
        ∀ head ∈ [config.headOf branch, config.headOf (twinBranch branch)],
          AsksFor config policy "all" head (blanked head) empty () ∧
          (blanked head = head ↔ change.version.localLabel = none) := by
  have hstub : ∀ c ∈ change.stub.toList, isNameChar c = true := List.all_eq_true.1 rfl
  refine ⟨isReached_config, hstub, by decide +kernel, ?_⟩
  apply listPulls_asks_for_branch policy isReached_config (Or.inr rfl)
  exact hstub

/-- The service is asked for a branch with a blank, so it does not show the proposal
that was rejected. -/
theorem labelled_overlooked :
    Proposal.branch? labelled.stub labelled.action = some "stubsabot/six/bump-1.1+abc" ∧
      asked "stubsabot/six/bump-1.1+abc" =
        [some [("state", "all"), ("per_page", "100"), ("page", "1"),
          ("head", "octo:stubsabot/six/bump-1.1 abc")]] ∧
      found "stubsabot/six/bump-1.1+abc" = some [] := by
  decide +kernel

end LookupExample

end GitHub

end StubSync
