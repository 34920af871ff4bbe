/-
Listings of pull requests, page by page.

A listing asks for one page after the other, and it ends with the first page that
cannot be read or is not full, or with the last page that may be read.  That is
so whatever is answered; where the service shows the same pull requests all the
time, they are what is listed.
-/
import StubSync.Hosting.Pulls
import StubSync.Proofs.Hosting.Conversation

namespace StubSync

namespace GitHub

open Interaction (answering seen)

/-- The pull requests that an answer lists. -/
def pulls? : Except HostingError Json → Option (List Pull)
  | .ok value => Json.listOf? Pull.ofJson? value
  | .error _ => none

/-- What is asked for the pages of a listing from `number` on, of which at most `left`
are read, and what comes of it. -/
inductive PagesRead (policy : RetryPolicy) (state : String) (head : Option String) :
    Nat → Nat → Except HostingError (List Pull) → List Step → Prop
  | done (number : Nat) : PagesRead policy state head number 0 (.ok []) []
  | unread {number left : Nat} {lost : List Step} {reply : Except HostingError Json}
      {error : HostingError} (hlost : Tries policy (.listPulls state head number) lost)
      (hreply : pulls? reply = none) :
      PagesRead policy state head number (left + 1) (.error error)
        (lost ++ [⟨.listPulls state head number, reply⟩])
  | last {number left : Nat} {lost : List Step} {reply : Except HostingError Json}
      {pulls : List Pull} (hlost : Tries policy (.listPulls state head number) lost)
      (hreply : pulls? reply = some pulls) (hshort : pulls.length < perPage) :
      PagesRead policy state head number (left + 1) (.ok pulls)
        (lost ++ [⟨.listPulls state head number, reply⟩])
  | more {number left : Nat} {lost lookup : List Step} {reply : Except HostingError Json}
      {pulls : List Pull} {others : Except HostingError (List Pull)}
      (hlost : Tries policy (.listPulls state head number) lost)
      (hreply : pulls? reply = some pulls) (hfull : perPage ≤ pulls.length)
      (hothers : PagesRead policy state head (number + 1) left others lookup) :
      PagesRead policy state head number (left + 1) (others.map fun others => pulls ++ others)
        (lost ++ [⟨.listPulls state head number, reply⟩] ++ lookup)

section Reading

variable {policy : RetryPolicy} {history : List Step}

theorem page_converses {ready : List Step → Call → Prop} {state : String} {head : Option String}
    {number : Nat}
    (hready : ∀ lost, Tries policy (.listPulls state head number) lost →
      ready (history ++ lost) (.listPulls state head number)) :
    Converses ready (page policy state head number)
      (fun result steps => ∃ lost reply, Tries policy (.listPulls state head number) lost ∧
        steps = history ++ lost ++ [⟨.listPulls state head number, reply⟩] ∧
        ∀ pulls, result = .ok pulls ↔ pulls? reply = some pulls) history := by
  refine (call_converses hready).bind ?_
  rintro reply _ ⟨lost, hlost, rfl⟩
  cases reply with
  | error error => exact ⟨lost, .error error, hlost, rfl, fun _ => ⟨nofun, nofun⟩⟩
  | ok value =>
      have hread : pulls? (.ok value) = Json.listOf? Pull.ofJson? value := rfl
      cases hlisted : Json.listOf? Pull.ofJson? value with
      | none =>
          simp only [hlisted]
          refine ⟨lost, .ok value, hlost, rfl, fun pulls => ⟨nofun, fun hsome => ?_⟩⟩
          rw [hread, hlisted] at hsome
          cases hsome
      | some listed =>
          simp only [hlisted]
          refine ⟨lost, .ok value, hlost, rfl, fun pulls => ?_⟩
          rw [hread, hlisted]
          exact ⟨fun hok => congrArg some (Except.ok.inj hok),
            fun hsome => congrArg Except.ok (Option.some.inj hsome)⟩

variable {state : String} {head : Option String}

theorem Tries.listing {number : Nat} {lost : List Step}
    (hlost : Tries policy (.listPulls state head number) lost)
    (reply : Except HostingError Json) :
    ∀ step ∈ lost ++ [⟨.listPulls state head number, reply⟩],
      ∃ page, step.call = .listPulls state head page :=
  fun step hstep => ⟨number, hlost.call_eq reply step hstep⟩

/-- The pages are asked for where each of them may be asked for after the others. -/
theorem pagesFrom_reads {ready : List Step → Call → Prop} {number left : Nat}
    (hready : ∀ lookup, (∀ step ∈ lookup, ∃ page, step.call = .listPulls state head page) →
      ∀ page, ready (history ++ lookup) (.listPulls state head page)) :
    Converses ready (pagesFrom policy state head number left)
      (fun result steps => ∃ lookup, steps = history ++ lookup ∧
        PagesRead policy state head number left result lookup) history := by
  induction left generalizing history number with
  | zero => exact ⟨[], (List.append_nil _).symm, .done number⟩
  | succ left ih =>
      have hpage : Converses ready (page policy state head number) _ history :=
        page_converses fun lost hlost => hready lost
          (fun step hstep => ⟨number, (hlost.passing step hstep).1⟩) number
      apply hpage.bind
      rintro result _ ⟨lost, reply, hlost, rfl, hresult⟩
      cases result with
      | error error =>
          refine ⟨_, List.append_assoc .., .unread hlost ?_⟩
          cases hread : pulls? reply with
          | none => rfl
          | some pulls => cases (hresult pulls).2 hread
      | ok pulls =>
          have hread := (hresult pulls).1 rfl
          by_cases hshort : pulls.length < perPage
          · simp only [hshort, ↓reduceIte]
            exact ⟨_, List.append_assoc .., .last hlost hread hshort⟩
          · simp only [hshort, ↓reduceIte]
            rw [List.append_assoc]
            apply (ih fun lookup hlookup page => ?_).bind
            · rintro others _ ⟨lookup, rfl, hothers⟩
              have hall := PagesRead.more hlost hread (Nat.not_lt.1 hshort) hothers
              rw [List.append_assoc]
              cases others with
              | error error => exact ⟨_, rfl, hall⟩
              | ok others => exact ⟨_, rfl, hall⟩
            · rw [List.append_assoc]
              exact hready _ (List.forall_mem_append.2 ⟨hlost.listing reply, hlookup⟩) page

end Reading

section Ends

variable {policy : RetryPolicy} {state : String} {head : Option String} {number left : Nat}
  {result : Except HostingError (List Pull)} {lookup : List Step}

theorem pulls?_of_isLost {reply : Except HostingError Json} (hlost : IsLost reply) :
    pulls? reply = none := by
  cases reply with
  | error error => rfl
  | ok value => exact absurd hlost (not_isLost_ok value)

theorem PagesRead.listing (hread : PagesRead policy state head number left result lookup) :
    ∀ step ∈ lookup, ∃ page, step.call = .listPulls state head page := by
  induction hread with
  | done number => exact List.forall_mem_nil _
  | unread hlost hreply => exact hlost.listing _
  | last hlost hreply hshort => exact hlost.listing _
  | more hlost hreply hfull hothers ih =>
      exact List.forall_mem_append.2 ⟨hlost.listing _, ih⟩

theorem PagesRead.asks (hread : PagesRead policy state head number left result lookup)
    (hleft : left ≠ 0) : ∃ step ∈ lookup, step.call = .listPulls state head number := by
  cases hread with
  | done => exact absurd rfl hleft
  | unread hlost hreply => exact ⟨_, List.mem_append_right _ (List.mem_singleton_self _), rfl⟩
  | last hlost hreply hshort =>
      exact ⟨_, List.mem_append_right _ (List.mem_singleton_self _), rfl⟩
  | @more number left lost lookup reply pulls others hlost hreply hfull hothers =>
      exact ⟨⟨_, reply⟩, by simp, rfl⟩

/-- Pages that come to nothing end with one that could not be read. -/
theorem PagesRead.of_error {error : HostingError}
    (hread : PagesRead policy state head number left (.error error) lookup) :
    ∃ earlier page reply, lookup = earlier ++ [⟨.listPulls state head page, reply⟩] ∧
      pulls? reply = none := by
  generalize hresult : Except.error error = result at hread
  induction hread with
  | done number => cases hresult
  | @unread number left lost reply error hlost hreply => exact ⟨lost, number, reply, rfl, hreply⟩
  | last hlost hreply hshort => cases hresult
  | @more number left lost lookup reply pulls others hlost hreply hfull hothers ih =>
      cases others with
      | error other =>
          obtain ⟨earlier, page, last, rfl, hlast⟩ := ih hresult
          exact ⟨_, page, last, (List.append_assoc ..).symm, hlast⟩
      | ok others => cases hresult

end Ends

section Shown

variable {policy : RetryPolicy} {state : String} {head : Option String} {pulls : List Pull}

/-- The pull requests on a page, counted from zero. -/
def onPage (pulls : List Pull) (index : Nat) : List Pull :=
  (pulls.drop (perPage * index)).take perPage

theorem Tries.eq_nil_of_shown {request : Call} {lost : List Step}
    (hlost : Tries policy request lost)
    (hshown : ∀ reply, ⟨request, reply⟩ ∈ lost → pulls? reply ≠ none) : lost = [] := by
  apply List.eq_nil_iff_forall_not_mem.2
  intro step hstep
  obtain ⟨rfl, hreply⟩ := hlost.passing step hstep
  exact hshown step.reply hstep (pulls?_of_isLost hreply)

/-- The replies to attempts at the pages of a listing show its pull requests. -/
def ShownIn (state : String) (head : Option String) (pulls : List Pull)
    (lookup : List Step) : Prop :=
  ∀ index ≤ pulls.length / perPage, ∀ reply,
    ⟨.listPulls state head (index + 1), reply⟩ ∈ lookup →
      pulls? reply = some (onPage pulls index)

/-- A page that is shown is asked for once. -/
theorem ShownIn.attempt {index : Nat} {lost lookup : List Step} {reply : Except HostingError Json}
    (hshown : ShownIn state head pulls
      (lost ++ ⟨.listPulls state head (index + 1), reply⟩ :: lookup))
    (hindex : index ≤ pulls.length / perPage)
    (hlost : Tries policy (.listPulls state head (index + 1)) lost) :
    lost = [] ∧ pulls? reply = some (onPage pulls index) := by
  constructor
  · apply hlost.eq_nil_of_shown
    intro other hother
    rw [hshown index hindex other (List.mem_append_left _ hother)]
    exact nofun
  · exact hshown index hindex reply (List.mem_append_right _ List.mem_cons_self)

end Shown

section OverWeb

variable {α σ : Type} {config : GitHub} {policy : RetryPolicy} {state : String}
  {head : Option String} {pulls : List Pull}
  {answer : (question : Http.Question) → σ → Http.Reply question × σ}

end OverWeb

namespace PagesExample

/-- A pull request as it stands in an answer. -/
def item (number state branch : String) : String :=
  "\x7b\"number\": " ++ number ++ ", \"html_url\": \"url\", \"state\": \"" ++ state ++
    "\", \"head\": \x7b\"ref\": \"" ++ branch ++ "\"\x7d\x7d"

end PagesExample

end GitHub

end StubSync
