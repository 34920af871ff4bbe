/-
Asking a package index for the releases of a distribution.
-/
import StubSync.Http.Exchange
import StubSync.Index.Document
import StubSync.Index.Error
import StubSync.Retry

namespace StubSync

/-- The name that this program gives to the services that it uses. -/
def userAgent : String := "stubsabot/0.1.0"

namespace Index

/-- The name of the index in errors. -/
def registryName : String := "PyPI"

def defaultUrl : String := "https://pypi.org/pypi"

structure Client where
  url : String := defaultUrl
  policy : RetryPolicy := {}
  agent : String := userAgent
deriving Repr, DecidableEq

/-- The releases that a document gives, newest first. -/
def parseReleases (body package : String) : Except IndexError (List Release) :=
  match IndexDocument.read? body with
  | some document => .ok document.collect
  | none =>
      .error (.invalid package registryName
        "failed to parse JSON: no description of a distribution")

def ofFailure (package : String) : Http.Failure → IndexError
  | .timeout => .timeout package registryName
  | .broken message => .network package registryName message

/-- What an answer says.  A distribution that the index does not know has no
releases; the body counts only if the status is one of success. -/
def ofAnswer (package : String) (answer : Http.Answer) : Except IndexError (List Release) :=
  if answer.status = 404 then .ok []
  else if answer.isSuccess then
    match answer.text with
    | .error failure => .error (ofFailure package failure)
    | .ok body => parseReleases body package
  else if answer.status = 429 then .error (.rateLimited registryName)
  else if 500 ≤ answer.status && answer.status < 600 then
    .error (.server package registryName answer.status)
  else .error (.client package registryName answer.status)

namespace Client

def packageUrl (client : Client) (package : String) : String :=
  Text.dropTrailing '/' client.url ++ s!"/{package}/json"

/-- One request, not repeated. -/
def fetchOnce (client : Client) (package : String) :
    Http.Exchange (Except IndexError (List Release)) := do
  let headers := [("accept", "*/*"), ("user-agent", client.agent)]
  match ← Http.send .get (client.packageUrl package) headers none with
  | .error failure => return .error (ofFailure package failure)
  | .ok answer => return ofAnswer package answer

/-- The error of a fetch that was given up. -/
def surfaced (package : String) (failure : RetryFailure IndexError) : IndexError :=
  if failure.exhausted then
    .unavailable package registryName failure.attempts failure.error.message
  else failure.error

/-- The releases of a distribution without the yanked ones, newest first. -/
def fetch (client : Client) (package : String) :
    Http.Exchange (Except IndexError (List Release)) := do
  match ← retry client.policy IndexError.isTransient Http.pause (client.fetchOnce package) with
  | .error failure => return .error (surfaced package failure)
  | .ok releases => return .ok (releases.filter fun release => !release.yanked)

end Client

end Index

end StubSync
