/-
What is sent over the web in a computation.
-/
import StubSync.Http.Exchange
import StubSync.Proofs.Pacing

namespace StubSync

namespace Http

/-- A request that was sent, and what came back. -/
structure Sent where
  request : Request
  reply : Except Failure Answer

def sent? : (question : Question) → Reply question → Option Sent
  | .send request, reply => some ⟨request, reply⟩
  | .pause _, _ => none

/-- The requests among all that was asked, in their order. -/
def sends {σ : Type} (asked : List (Interaction.Asked Reply σ)) : List Sent :=
  Interaction.seen sent? asked

/-- The question sends no request but one that reads. -/
def IsReading : Question → Prop
  | .send request => request.method = .get
  | .pause _ => True

end Http

end StubSync
