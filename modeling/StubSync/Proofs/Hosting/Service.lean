/-
Hosting services that keep to what is relied on, whatever else they do.

A service is known by the proposals that it shows.  It may fail at any
question, and things may happen to it between two questions.  The service that
is kept in memory is one of this kind, as long as no error that waits in it
names a taken branch of its own accord.
-/
import Mathlib.Data.List.Forall2
import StubSync.Hosting.Memory
import StubSync.Proofs.Interaction

namespace StubSync

/-- What may become of a proposal from outside: it may be closed or merged, but
it is not opened again. -/
def Existing.MayBecome (before after : Existing) : Prop :=
  after.branch = before.branch ∧ (after.state = .opened → before.state = .opened)

namespace Hosting

/-- What may be answered while `before` is shown, and what may be shown after
it.  A listing leaves nothing out; a publication leaves everything as it is and
fails, or opens one proposal on the branch that was asked for. -/
def Honest : (question : Question) → List Existing → Reply question → List Existing → Prop
  | .find query, before, reply, after =>
      after = before ∧ ∀ found, reply = .ok found →
        ∀ existing ∈ before, query.covers existing.branch → existing ∈ found
  | .publish proposal, before, .ok _, after =>
      ∃ opened : Existing, opened.branch = proposal.branch ∧ opened.state = .opened ∧
        after.Perm (opened :: before)
  | .publish proposal, before, .error error, after =>
      after = before ∧ ∀ branch, error = .conflict branch → branch = proposal.branch
  | .issue _ _, before, _, after => after = before

/-- A hosting service with states `σ` to which events `ε` happen. -/
structure Service (σ ε : Type) where
  answer : (question : Question) → σ → Reply question × σ
  happen : ε → σ → σ
  proposals : σ → List Existing

/-- The service answers honestly, and events only close and merge
proposals. -/
structure Service.IsHonest {σ ε : Type} (service : Service σ ε) : Prop where
  answers : ∀ question state,
    Honest question (service.proposals state) (service.answer question state).1
      (service.proposals (service.answer question state).2)
  events : ∀ event state,
    List.Forall₂ Existing.MayBecome (service.proposals state)
      (service.proposals (service.happen event state))

namespace Memory

/-- No error that waits to be the answer to a publication names a branch. -/
def IsImpartial (memory : Memory) : Prop :=
  ∀ error ∈ memory.publishErrors, ∀ branch, error ≠ .conflict branch

/-- The event neither opens a proposal again nor makes a branch look taken
that may not be the one asked for. -/
def Event.IsImpartial : Event → Prop
  | .setState _ state => state ≠ .opened
  | .failPublish error => ∀ branch, error ≠ .conflict branch
  | .takeBranch _ | .deleteBranch _ | .failFind _ => True

theorem answer_isImpartial {memory : Memory} (hmemory : memory.IsImpartial)
    (question : Question) : (memory.answer question).2.IsImpartial := by
  cases question with
  | find query =>
      simp only [answer, find]
      split <;> exact hmemory
  | publish proposal =>
      simp only [answer, publish]
      split
      · rename_i error others herrors
        intro waiting hwaiting
        exact hmemory waiting (herrors ▸ List.mem_cons_of_mem error hwaiting)
      · split <;> exact hmemory
  | issue title body =>
      simp only [answer, issue]
      split <;> exact hmemory

theorem apply_isImpartial {memory : Memory} (hmemory : memory.IsImpartial) {event : Event}
    (hevent : event.IsImpartial) : (memory.apply event).IsImpartial := by
  cases event with
  | failPublish error =>
      intro waiting hwaiting
      rcases List.mem_append.1 hwaiting with hold | hnew
      · exact hmemory waiting hold
      · rw [List.mem_singleton.1 hnew]
        exact hevent
  | setState branch state => exact hmemory
  | takeBranch branch => exact hmemory
  | deleteBranch branch => exact hmemory
  | failFind error => exact hmemory

/-- The service kept in memory, with the events that happen to it. -/
def service : Service { memory : Memory // memory.IsImpartial }
    { event : Event // event.IsImpartial } where
  answer question memory :=
    ((memory.1.answer question).1,
      ⟨(memory.1.answer question).2, answer_isImpartial memory.2 question⟩)
  happen event memory := ⟨memory.1.apply event.1, apply_isImpartial memory.2 event.2⟩
  proposals memory := memory.1.proposals

theorem answer_honest {memory : Memory} (hmemory : memory.IsImpartial)
    (question : Question) :
    Honest question memory.proposals (memory.answer question).1
      (memory.answer question).2.proposals := by
  cases question with
  | find query =>
      simp only [answer, find]
      split
      · exact ⟨rfl, fun found hfound => by cases hfound⟩
      · refine ⟨rfl, ?_⟩
        intro found hfound existing hexisting hcovers
        cases hfound
        exact List.mem_filter.2 ⟨hexisting, hcovers⟩
  | publish proposal =>
      simp only [answer, publish]
      split
      · rename_i error others herrors
        refine ⟨rfl, fun branch hconflict => ?_⟩
        exact absurd hconflict (hmemory error (herrors ▸ List.mem_cons_self) branch)
      · split
        · exact ⟨rfl, fun branch hconflict => (HostingError.conflict.inj hconflict).symm⟩
        · exact ⟨_, rfl, rfl, List.perm_append_singleton _ _⟩
  | issue title body =>
      simp only [answer, issue]
      split <;> rfl

theorem apply_mayBecome (memory : Memory) {event : Event} (hevent : event.IsImpartial) :
    List.Forall₂ Existing.MayBecome memory.proposals (memory.apply event).proposals := by
  have hsame : List.Forall₂ Existing.MayBecome memory.proposals memory.proposals :=
    List.forall₂_same.2 fun existing _ => ⟨rfl, id⟩
  cases event with
  | setState branch state =>
      refine List.forall₂_map_right_iff.2 (List.forall₂_same.2 fun existing _ => ?_)
      by_cases hbranch : existing.branch = branch
      · simp only [hbranch, ↓reduceIte]
        exact ⟨hbranch.symm, fun hopened => absurd hopened hevent⟩
      · simp only [hbranch, ↓reduceIte]
        exact ⟨rfl, id⟩
  | takeBranch branch => exact hsame
  | deleteBranch branch => exact hsame
  | failFind error => exact hsame
  | failPublish error => exact hsame

theorem service_isHonest : service.IsHonest where
  answers question memory := answer_honest memory.2 question
  events event memory := apply_mayBecome memory.1 event.2

end Memory

end Hosting

end StubSync
