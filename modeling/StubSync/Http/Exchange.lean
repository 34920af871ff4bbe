/-
Requests to web services, and what comes back.
-/
import StubSync.Http.Address
import StubSync.Interaction
import StubSync.Json.Value
import StubSync.Time.Span

namespace StubSync

namespace Http

inductive Method where
  | get
  | post
  | delete
deriving Repr, DecidableEq

def Method.name : Method → String
  | .get => "GET"
  | .post => "POST"
  | .delete => "DELETE"

/-- Asking again for a request of this kind does no harm. -/
def Method.isRepeatable : Method → Bool
  | .get | .delete => true
  | .post => false

structure Request where
  method : Method
  address : Address
  headers : List (String × String) := []
  body : Option Json := none
deriving Repr

/-- Why no answer came. -/
inductive Failure where
  | timeout
  | broken (message : String)
deriving Repr, DecidableEq

/-- An answer; its body may fail after its status has come. -/
structure Answer where
  status : Nat
  body : Except Failure String

def Answer.isSuccess (answer : Answer) : Bool :=
  200 ≤ answer.status && answer.status < 300

/-- The text of an answer: its body without a byte order mark. -/
def Answer.text (answer : Answer) : Except Failure String :=
  answer.body.map fun body => String.ofList (Text.withoutOrderMark body.toList)

/-- What a client of web services asks of its surroundings: to send a request,
and to let some time pass. -/
inductive Question where
  | send (request : Request)
  | pause (span : Span)
deriving Repr

abbrev Reply : Question → Type
  | .send _ => Except Failure Answer
  | .pause _ => Unit

/-- Computations that use web services. -/
abbrev Exchange := Interaction Question Reply

def pause (span : Span) : Exchange Unit :=
  Interaction.query (Question.pause span)

/-- The failure of a request that cannot be made. -/
def unmakable : Failure :=
  .broken "builder error"

/-- The failure of a request that finds no server. -/
def unreachable (address : Address) : Failure :=
  .broken s!"error sending request for url ({address})"

/-- Send a request to the address that `url` gives. -/
def send (method : Method) (url : String) (headers : List (String × String))
    (body : Option Json) : Exchange (Except Failure Answer) :=
  match Address.read? url with
  | none => .done (.error unmakable)
  | some address => Interaction.query (Question.send { method, address, headers, body })

/-- Surroundings in which no server is ever found. -/
def offline {σ : Type} : (question : Question) → σ → Reply question × σ
  | .send request, state => (.error (unreachable request.address), state)
  | .pause _, state => ((), state)

end Http

end StubSync
