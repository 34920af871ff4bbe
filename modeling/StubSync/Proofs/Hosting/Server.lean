/-
A server that answers calls, with answers that get lost on the way.

A call that creates something may be refused, or its answer may be lost whether
or not it was carried out.  A call that may be made again loses at most as many
answers as there are repetitions; the answer that comes is true.

What an answer tells is a parameter, so that one account of the server serves
for the answers that are sent over the web and for what calls come down to.
-/
import Mathlib.Logic.Function.Basic
import StubSync.Hosting.Publishing
import StubSync.Proofs.Hosting.Calls

namespace StubSync

namespace GitHub

/-- What answers of some kind tell. -/
@[ext]
structure Telling (ρ : Type) where
  /-- Nothing is told of what was done, or whether it was. -/
  lost : ρ → Prop
  /-- There is nothing of the name asked for. -/
  missing : ρ → Prop
  value? : ρ → Option Json
  not_lost : ∀ reply value, value? reply = some value → ¬ lost reply
  silent : ∀ reply, missing reply → value? reply = none

namespace Telling

/-- The answer carries a text at a path. -/
def Carries {ρ : Type} (telling : Telling ρ) (path : List String) (content : String)
    (reply : ρ) : Prop :=
  ∃ value, telling.value? reply = some value ∧ value.at? path = some (.text content)

theorem toOption_eq_some_iff {reply : Except HostingError Json} {value : Json} :
    reply.toOption = some value ↔ reply = .ok value := by
  cases reply with
  | error error => exact ⟨nofun, nofun⟩
  | ok told => exact Option.some_inj.trans ⟨congrArg _, Except.ok.inj⟩

theorem toOption_eq_none_iff {reply : Except HostingError Json} :
    reply.toOption = none ↔ ∃ error, reply = .error error := by
  cases reply with
  | error error => exact ⟨fun _ => ⟨error, rfl⟩, fun _ => rfl⟩
  | ok told => exact ⟨nofun, nofun⟩

/-- What calls come down to. -/
def call : Telling (Except HostingError Json) where
  lost := IsLost
  missing reply := ∃ operation message, reply = .error (.rejected operation 404 message)
  value? := Except.toOption
  not_lost := by
    intro reply value hvalue
    rw [toOption_eq_some_iff.1 hvalue]
    exact not_isLost_ok value
  silent := by
    rintro _ ⟨operation, message, rfl⟩
    rfl

/-- Answers that tell as much as what is made of them. -/
def comap {ρ τ : Type} (telling : Telling τ) (read : ρ → τ) : Telling ρ where
  lost reply := telling.lost (read reply)
  missing reply := telling.missing (read reply)
  value? reply := telling.value? (read reply)
  not_lost reply := telling.not_lost (read reply)
  silent reply := telling.silent (read reply)

end Telling

/-- A commit that was created. -/
structure Commit where
  id : String
  message : String
  tree : String
  parent : String
deriving Repr, DecidableEq

structure Server where
  /-- The commit that a branch points at. -/
  branches : String → Option String
  /-- The open pull request of a head branch. -/
  pulls : String → Option Pull
  /-- The commits created so far, the newest first. -/
  commits : List Commit
  /-- How many answers in a row have been lost of a call that may be made
  again. -/
  lost : Nat

namespace Server

/-- The head of an open pull request is a branch. -/
def IsSound (server : Server) : Prop :=
  ∀ branch pull, server.pulls branch = some pull → server.branches branch ≠ none

/-- No branch points at the commit. -/
def IsFresh (server : Server) (commit : String) : Prop :=
  ∀ branch, server.branches branch ≠ some commit

def withCommit (server : Server) (commit : Commit) : Server :=
  { server with commits := commit :: server.commits }

def withBranch (server : Server) (branch commit : String) : Server :=
  { server with branches := Function.update server.branches branch (some commit) }

def withPull (server : Server) (branch : String) (pull : Pull) : Server :=
  { server with pulls := Function.update server.pulls branch (some pull) }

/-- Without a branch, and so without its pull request. -/
def without (server : Server) (branch : String) : Server :=
  { server with
    branches := Function.update server.branches branch none
    pulls := Function.update server.pulls branch none }

def withLost (server : Server) (lost : Nat) : Server :=
  { server with lost }

@[simp]
theorem withLost_lost (server : Server) (lost : Nat) : (server.withLost lost).lost = lost :=
  rfl

@[simp]
theorem withLost_withLost (server : Server) (first second : Nat) :
    (server.withLost first).withLost second = server.withLost second :=
  rfl

@[simp]
theorem withLost_without (server : Server) (branch : String) (lost : Nat) :
    (server.withLost lost).without branch = (server.without branch).withLost lost :=
  rfl

@[simp]
theorem without_without (server : Server) (branch : String) :
    (server.without branch).without branch = server.without branch := by
  simp [without]

theorem withLost_self {server : Server} {lost : Nat} (hlost : server.lost = lost) :
    server.withLost lost = server := by
  subst hlost
  rfl

theorem IsSound.pulls_eq_none {server : Server} (hsound : server.IsSound) {branch : String}
    (hbranch : server.branches branch = none) : server.pulls branch = none := by
  cases hpull : server.pulls branch with
  | none => rfl
  | some pull => exact absurd hbranch (hsound branch pull hpull)

/-- Deleting a branch that was not there before undoes its creation. -/
theorem without_withBranch {server : Server} (hsound : server.IsSound) {branch : String}
    (hbranch : server.branches branch = none) (commit : String) :
    (server.withBranch branch commit).without branch = server := by
  have hpull : server.pulls branch = none := hsound.pulls_eq_none hbranch
  simp only [without, withBranch, Function.update_idem]
  rw [← hbranch, Function.update_eq_self, ← hpull, Function.update_eq_self]

/-- With a branch, its pull request is gone. -/
theorem without_withPull (server : Server) (branch : String) (pull : Pull) :
    (server.withPull branch pull).without branch = server.without branch := by
  simp [without, withPull]

/-- Branches and open pull requests are as they were. -/
def SameHeads (before after : Server) : Prop :=
  after.branches = before.branches ∧ after.pulls = before.pulls

theorem SameHeads.refl (server : Server) : server.SameHeads server :=
  ⟨rfl, rfl⟩

/-- The answer carries a text at a path. -/
def Carries (path : List String) (content : String) (reply : Except HostingError Json) : Prop :=
  ∃ value, reply = .ok value ∧ value.at? path = some (.text content)

theorem carries_call_iff {path : List String} {content : String}
    {reply : Except HostingError Json} :
    Telling.call.Carries path content reply ↔ Carries path content reply := by
  simp only [Telling.Carries, Telling.call, Telling.toOption_eq_some_iff, Carries]

section Answering

variable {ρ : Type} (telling : Telling ρ) (config : GitHub) (policy : RetryPolicy)

/-- The answer is true of what the server has.  What it has besides branches
and pull requests may be answered in any way. -/
def Shows (server : Server) : Call → ρ → Prop
  | .readBranch branch, reply =>
      match server.branches branch with
      | some commit => telling.Carries ["object", "sha"] commit reply
      | none => telling.missing reply
  | .listPulls state head page, reply =>
      ∀ branch, state = "open" → head = some (config.headOf branch) → page = 1 →
        ∃ value, telling.value? reply = some value ∧
          Json.listOf? Pull.ofJson? value = some (server.pulls branch).toList
  | _, _ => True

/-- A call that creates something fails without an effect, or it has the effect
and is answered by `done` or by nothing.  What is not possible fails. -/
def Creates (before : Server) (reply : ρ) (after : Server) (possible : Prop) (effect : Server)
    (done : ρ → Prop) : Prop :=
  (after = before ∧ telling.value? reply = none) ∨
    (possible ∧ after = effect ∧ (done reply ∨ telling.lost reply))

/-- What is read is answered as it is, unless the answer is lost; then there are
repetitions left. -/
def Reads (before : Server) (reply : ρ) (after : Server) (shown : Prop) : Prop :=
  (telling.lost reply ∧ before.lost < policy.maxRetries ∧
    after = before.withLost (before.lost + 1)) ∨
  (¬ telling.lost reply ∧ shown ∧ after = before.withLost 0)

/-- A call that deletes has been carried out when it is answered; where the
answer is lost, it may have been. -/
def Deletes (before : Server) (branch : String) (reply : ρ) (after : Server) : Prop :=
  (telling.lost reply ∧ before.lost < policy.maxRetries ∧
    (after = before.withLost (before.lost + 1) ∨
      after = (before.without branch).withLost (before.lost + 1))) ∨
  (¬ telling.lost reply ∧ after = (before.without branch).withLost 0)

/-- What one attempt of a call may be answered, and what it may do. -/
def Attempts (before : Server) (reply : ρ) (after : Server) : Call → Prop
  | .createTree _ _ => Creates telling before reply after True before fun reply =>
      ∃ tree, telling.Carries ["sha"] tree reply
  | .createCommit message tree parent => ∃ id,
      Creates telling before reply after (before.IsFresh id)
        (before.withCommit ⟨id, message, tree, parent⟩) (telling.Carries ["sha"] id)
  | .createBranch branch commit =>
      Creates telling before reply after (before.branches branch = none)
        (before.withBranch branch commit) fun reply => ∃ value, telling.value? reply = some value
  | .openPull _ head _ _ => ∃ pull,
      Creates telling before reply after (before.branches head ≠ none ∧ before.pulls head = none)
        (before.withPull head pull) fun reply =>
          ∃ value, telling.value? reply = some value ∧ Pull.ofJson? value = some pull
  | .createIssue _ _ => Creates telling before reply after True before fun reply =>
      ∃ value, telling.value? reply = some value
  | .deleteBranch branch => Deletes telling policy before branch reply after
  | call => Reads telling policy before reply after (Shows telling config before call reply)

end Answering

variable {config : GitHub} {policy : RetryPolicy} {before after : Server}

theorem reads_of_attempts {ρ : Type} {telling : Telling ρ} {reply : ρ} {call : Call}
    (hmethod : call.method = .get)
    (hattempts : Attempts telling config policy before reply after call) :
    Reads telling policy before reply after (Shows telling config before call reply) := by
  cases call with
  | listPulls state head page => exact hattempts
  | readBranch branch => exact hattempts
  | readBase branch => exact hattempts
  | readCommit commit => exact hattempts
  | _ => cases hmethod

/-- The same is told of an answer by what is made of it. -/
theorem attempts_comap {ρ τ : Type} {telling : Telling τ} {read : ρ → τ} {reply : ρ}
    {call : Call} (hattempts : Attempts (telling.comap read) config policy before reply after call) :
    Attempts telling config policy before (read reply) after call := by
  cases call <;> exact hattempts

end Server

/-- The calls that have to do with a branch, and those that lead to its commit
wherever they are taken to. -/
def Concerns (config : GitHub) (branch : String) : Call → Prop
  | .listPulls state head _ => state = "open" ∧ head = some (config.headOf branch)
  | .readBranch other | .deleteBranch other => other = branch
  | _ => True

/-- What a call is taken for by a server that finds another branch in the head of a
listing. -/
def Call.finding (config : GitHub) (found : String) : Call → Call
  | .listPulls state _ page => .listPulls state (some (config.headOf found)) page
  | call => call

@[simp]
theorem method_finding (config : GitHub) (found : String) (call : Call) :
    (call.finding config found).method = call.method := by
  cases call <;> rfl

theorem finding_self {config : GitHub} {branch : String} {call : Call}
    (hconcerns : Concerns config branch call) : call.finding config branch = call := by
  cases call with
  | listPulls state head page =>
      obtain ⟨_, rfl⟩ := hconcerns
      rfl
  | _ => rfl

/-- What the server may answer to a question about a branch, and what it has after
it.  It looks for the pull request of the branch that it has found in the
question. -/
def Server.Serves (config : GitHub) (policy : RetryPolicy) (branch found : String) :
    (question : Question) → Server → Reply question → Server → Prop
  | .attempt call, before, reply, after => Concerns config branch call →
      Attempts .call config policy before reply after (call.finding config found)
  | .pause _, before, _, after => after = before

end GitHub

end StubSync
