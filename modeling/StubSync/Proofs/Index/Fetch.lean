/-
Fetching the releases of a distribution is decided by one answer.

An answer either decides the fetch or may be another one next time.  The
request is sent until an answer decides, or until no repetition is left; what
comes of the fetch depends on the last answer only.
-/
import StubSync.Index.Client
import StubSync.Proofs.Http.Exchange
import StubSync.Proofs.Http.Path
import StubSync.Proofs.Retry

namespace StubSync

namespace Index

open Http (Answer Failure IsPathText Sent pathBelow? sends)

section Answers

/-- The answer may be another one next time, and until then it comes down to an
error. -/
inductive Passes (package : String) : Except Failure Answer → IndexError → Prop
  | lost (failure : Failure) : Passes package (.error failure) (ofFailure package failure)
  | cut {answer : Answer} {failure : Failure} (hsuccess : answer.isSuccess = true)
      (hbody : answer.body = .error failure) :
      Passes package (.ok answer) (ofFailure package failure)
  | limited {answer : Answer} (hstatus : answer.status = 429) :
      Passes package (.ok answer) (.rateLimited registryName)
  | unable {answer : Answer} (hleast : 500 ≤ answer.status) (hmost : answer.status < 600) :
      Passes package (.ok answer) (.server package registryName answer.status)

/-- The answer decides what comes of the fetch. -/
inductive Decides (package : String) :
    Except Failure Answer → Except IndexError (List Release) → Prop
  | unknown {answer : Answer} (hstatus : answer.status = 404) :
      Decides package (.ok answer) (.ok [])
  | described {answer : Answer} {body : String} (hsuccess : answer.isSuccess = true)
      (hbody : answer.text = .ok body) :
      Decides package (.ok answer)
        ((parseReleases body package).map fun releases =>
          releases.filter fun release => !release.yanked)
  | refused {answer : Answer} (hsuccess : answer.isSuccess = false) (hknown : answer.status ≠ 404)
      (hlimit : answer.status ≠ 429) (hserver : ¬ (500 ≤ answer.status ∧ answer.status < 600)) :
      Decides package (.ok answer) (.error (.client package registryName answer.status))

/-- What one request comes down to. -/
def told (package : String) : Except Failure Answer → Except IndexError (List Release)
  | .error failure => .error (ofFailure package failure)
  | .ok answer => ofAnswer package answer

/-- Releases that were yanked are left out. -/
def current (releases : List Release) : List Release :=
  releases.filter fun release => !release.yanked

theorem isTransient_ofFailure (package : String) (failure : Failure) :
    (ofFailure package failure).isTransient = true := by
  cases failure <;> rfl

theorem isTransient_of_parseReleases {body package : String} {error : IndexError}
    (hparse : parseReleases body package = .error error) : error.isTransient = false := by
  unfold parseReleases at hparse
  split at hparse
  · cases hparse
  · cases hparse
    rfl

theorem isSuccess_iff {answer : Answer} :
    answer.isSuccess = true ↔ 200 ≤ answer.status ∧ answer.status < 300 := by
  simp [Answer.isSuccess]

/-- No answer both decides and passes. -/
theorem Passes.not_decides {package : String} {reply : Except Failure Answer} {error : IndexError}
    (hpasses : Passes package reply error) (result : Except IndexError (List Release)) :
    ¬ Decides package reply result := by
  intro hdecides
  cases hdecides with
  | unknown hstatus =>
      cases hpasses with
      | cut hsuccess hbody =>
          rw [isSuccess_iff, hstatus] at hsuccess
          omega
      | limited hlimit => omega
      | unable hleast hmost => omega
  | described hsuccess hbody =>
      cases hpasses with
      | cut _ hfailure =>
          rw [Answer.text, hfailure] at hbody
          cases hbody
      | limited hlimit =>
          rw [isSuccess_iff, hlimit] at hsuccess
          omega
      | unable hleast hmost =>
          rw [isSuccess_iff] at hsuccess
          omega
  | refused hsuccess hknown hlimit hserver =>
      cases hpasses with
      | cut hother hbody =>
          rw [hsuccess] at hother
          cases hother
      | limited hstatus => exact hlimit hstatus
      | unable hleast hmost => exact hserver ⟨hleast, hmost⟩

/-- Every answer passes or decides, as the request tells. -/
theorem told_cases (package : String) (reply : Except Failure Answer) :
    (∃ error, Passes package reply error ∧ told package reply = .error error ∧
      error.isTransient = true) ∨
    (Decides package reply ((told package reply).map current) ∧
      ∀ error, told package reply = .error error → error.isTransient = false) := by
  cases reply with
  | error failure =>
      exact Or.inl ⟨_, .lost failure, rfl, isTransient_ofFailure package failure⟩
  | ok answer =>
      rw [told, ofAnswer]
      split
      · rename_i hstatus
        exact Or.inr ⟨.unknown hstatus, nofun⟩
      · rename_i hknown
        split
        · rename_i hsuccess
          cases hbody : answer.text with
          | error failure =>
              have hfailure : answer.body = .error failure := by
                cases hread : answer.body with
                | error other =>
                    rw [Answer.text, hread] at hbody
                    exact congrArg Except.error (Except.error.inj hbody)
                | ok body =>
                    rw [Answer.text, hread] at hbody
                    cases hbody
              exact Or.inl ⟨_, .cut hsuccess hfailure, rfl, isTransient_ofFailure package failure⟩
          | ok body =>
              exact Or.inr ⟨.described hsuccess hbody, fun _ => isTransient_of_parseReleases⟩
        · rename_i hsuccess
          split
          · rename_i hstatus
            exact Or.inl ⟨_, .limited hstatus, rfl, rfl⟩
          · rename_i hlimit
            split
            · rename_i hserver
              have hserver : 500 ≤ answer.status ∧ answer.status < 600 := by simpa using hserver
              exact Or.inl ⟨_, .unable hserver.1 hserver.2, rfl, rfl⟩
            · rename_i hserver
              have hserver : ¬ (500 ≤ answer.status ∧ answer.status < 600) := by
                simpa using hserver
              refine Or.inr ⟨.refused (Bool.eq_false_iff.2 hsuccess) hknown hlimit hserver, ?_⟩
              rintro _ ⟨⟩
              rfl

theorem passes_of_told {package : String} {reply : Except Failure Answer} {error : IndexError}
    (htold : told package reply = .error error) (htransient : error.isTransient = true) :
    Passes package reply error := by
  obtain ⟨other, hpasses, hother, _⟩ | ⟨_, hlasting⟩ := told_cases package reply
  · rw [htold] at hother
    exact Except.error.inj hother ▸ hpasses
  · rw [hlasting error htold] at htransient
    cases htransient

theorem decides_of_told {package : String} {reply : Except Failure Answer}
    (hlasting : ∀ error, told package reply = .error error → error.isTransient = false) :
    Decides package reply ((told package reply).map current) := by
  obtain ⟨error, _, htold, htransient⟩ | ⟨hdecides, _⟩ := told_cases package reply
  · rw [hlasting error htold] at htransient
    cases htransient
  · exact hdecides

end Answers

namespace Client

/-- The request of a fetch, if its address can be read. -/
def requestOf? (client : Client) (package : String) : Option Http.Request :=
  (Address.read? (client.packageUrl package)).map fun address =>
    { method := .get, address, headers := [("accept", "*/*"), ("user-agent", client.agent)] }

theorem fetchOnce_eq (client : Client) (package : String) :
    client.fetchOnce package =
      match client.requestOf? package with
      | none => .done (told package (.error Http.unmakable))
      | some request => .ask (.send request) fun reply => .done (told package reply) := by
  rw [fetchOnce, requestOf?, Http.send]
  cases Address.read? (client.packageUrl package) with
  | none => rfl
  | some address =>
      refine congrArg _ (funext fun reply => ?_)
      cases reply with
      | error failure => rfl
      | ok answer => rfl

/-- A fetch only reads. -/
theorem fetch_asks {may : Http.Question → Prop} (hpause : ∀ span, may (.pause span))
    (hread : ∀ request : Http.Request, request.method = .get → request.body = none →
      may (.send request))
    (client : Client) (package : String) : (client.fetch package).OnlyAsks may := by
  have hwait (span : Span) : (Http.pause span).OnlyAsks may :=
    Interaction.onlyAsks_query (hpause span)
  refine Interaction.OnlyAsks.bind (retry_onlyAsks hwait ?_) fun result => ?_
  · rw [fetchOnce_eq]
    cases hrequest : client.requestOf? package with
    | none => trivial
    | some request =>
        obtain ⟨_, _, rfl⟩ := Option.map_eq_some_iff.1 hrequest
        exact ⟨hread _ rfl rfl, fun _ => trivial⟩
  · cases result with
    | ok releases => trivial
    | error failure => trivial

/-- How a fetch ends after these requests. -/
inductive Fetched (client : Client) (package : String) :
    Except IndexError (List Release) → List Sent → Prop
  | decided {passing : List Sent} {last : Sent} {result : Except IndexError (List Release)}
      (hlength : passing.length ≤ client.policy.maxRetries)
      (hpassing : ∀ sent ∈ passing, ∃ error, Passes package sent.reply error)
      (hlast : Decides package last.reply result)
      (hlasting : ∀ error, ¬ Passes package last.reply error) :
      Fetched client package result (passing ++ [last])
  | exhausted {passing : List Sent} {last : Sent} {error : IndexError}
      (hlength : passing.length = client.policy.maxRetries)
      (hpassing : ∀ sent ∈ passing, ∃ error, Passes package sent.reply error)
      (hlast : Passes package last.reply error) :
      Fetched client package
        (.error (.unavailable package registryName (client.policy.maxRetries + 1) error.message))
        (passing ++ [last])

/-- Every request of a computation may be sent. -/
abbrev Sends {α : Type} (first : Http.Exchange α) (post : α → List Sent → Prop)
    (history : List Sent) : Prop :=
  first.Paces Http.sent? (fun _ _ => True) post history

section Fetching

variable {client : Client} {package : String}

theorem pause_sends (span : Span) (history : List Sent) :
    Sends (Http.pause span) (fun _ seen => seen = history) history :=
  ⟨trivial, fun _ => List.append_nil _⟩

theorem isTransient_surfaced (failure : RetryFailure IndexError)
    (hexhausted : failure.exhausted = failure.error.isTransient) :
    (surfaced package failure).isTransient = false := by
  rw [surfaced]
  split
  · rfl
  · rename_i hlasting
    rw [← hexhausted]
    exact Bool.eq_false_iff.2 hlasting

/-- The request was sent, and its answer tells this. -/
def Tells (request : Http.Request) (package : String) (last : Except IndexError (List Release))
    (entry : Sent) : Prop :=
  entry.request = request ∧ told package entry.reply = last

/-- A retry that was told nothing but by the last answer. -/
theorem fetched_of_isRetried {request : Http.Request} {sent : List Sent}
    {result : Except (RetryFailure IndexError) (List Release)}
    (hretried : IsRetried client.policy IndexError.isTransient (Tells request package) [] result
      sent) :
    (∀ entry ∈ sent, entry.request = request) ∧
      match result with
      | .ok releases => Fetched client package (.ok (current releases)) sent
      | .error failure => Fetched client package (.error (surfaced package failure)) sent ∧
          failure.exhausted = failure.error.isTransient := by
  obtain ⟨lost, entry, last, hlost, ⟨hentry, hlast⟩, rfl, hfinal, rfl⟩ := hretried
  have hpassing : ∀ sent ∈ lost, ∃ error, Passes package sent.reply error := by
    intro sent hsent
    obtain ⟨error, ⟨_, htold⟩, htransient⟩ := hlost.passing sent hsent
    exact ⟨error, passes_of_told htold htransient⟩
  have hdecided (hlasting : ∀ error, last = .error error → error.isTransient = false) :
      Fetched client package (last.map current) (lost ++ [entry]) := by
    subst hlast
    have hdecides := decides_of_told hlasting
    exact .decided hlost.bounded hpassing hdecides fun error hpasses =>
      hpasses.not_decides _ hdecides
  constructor
  · intro other hother
    rcases List.mem_append.1 hother with hother | hother
    · obtain ⟨_, ⟨hrequest, _⟩, _⟩ := hlost.passing other hother
      exact hrequest
    · rw [List.mem_singleton.1 hother]
      exact hentry
  · cases last with
    | ok releases => exact hdecided nofun
    | error error =>
        refine ⟨?_, rfl⟩
        cases htransient : error.isTransient with
        | true =>
            have hlength := hfinal error rfl htransient
            rw [surfaced, if_pos rfl, hlength]
            exact .exhausted hlength hpassing (passes_of_told hlast htransient)
        | false =>
            rw [surfaced, if_neg Bool.false_ne_true]
            refine hdecided fun other hother => ?_
            rw [← Except.error.inj hother, htransient]

theorem fetch_sends {request : Http.Request} (hrequest : client.requestOf? package = some request) :
    Sends (client.fetch package)
      (fun result sent => (∀ error, result = .error error → error.isTransient = false) ∧
        (∀ entry ∈ sent, entry.request = request) ∧ Fetched client package result sent) [] := by
  have hretry : Sends (retry client.policy IndexError.isTransient Http.pause
      (client.fetchOnce package))
      (IsRetried client.policy IndexError.isTransient (Tells request package) []) [] :=
    retry_paces pause_sends fun lost hlost => by
      rw [fetchOnce_eq, hrequest]
      exact ⟨trivial, fun reply => ⟨⟨request, reply⟩, ⟨rfl, rfl⟩, rfl⟩⟩
  refine hretry.bind ?_
  intro result sent hretried
  obtain ⟨hrequests, hfetched⟩ := fetched_of_isRetried hretried
  cases result with
  | ok releases => exact ⟨nofun, hrequests, hfetched⟩
  | error failure =>
      refine ⟨fun error herror => ?_, hrequests, hfetched.1⟩
      rw [← Except.error.inj herror]
      exact isTransient_surfaced failure hfetched.2

/-- A fetch whose address cannot be read is given up without a request. -/
theorem fetch_sends_nothing (hrequest : client.requestOf? package = none) :
    Sends (client.fetch package)
      (fun result sent => sent = [] ∧
        result = .error (.unavailable package registryName (client.policy.maxRetries + 1)
          (ofFailure package Http.unmakable).message)) [] := by
  have honce : client.fetchOnce package = pure (.error (ofFailure package Http.unmakable)) := by
    rw [fetchOnce_eq, hrequest]
    rfl
  have htransient := isTransient_ofFailure package Http.unmakable
  rw [fetch, retry, honce]
  refine Interaction.Paces.bind
    (retryFrom_failing pause_sends htransient 0 client.policy.maxRetries) ?_
  rintro _ _ ⟨rfl, rfl⟩
  refine ⟨rfl, ?_⟩
  rw [Nat.zero_add]
  rfl

section Addresses

theorem packageUrl_eq (client : Client) (package : String) :
    client.packageUrl package = Text.dropTrailing '/' client.url ++ "/" ++ package ++ "/json" := by
  have hpage : client.packageUrl package =
      Text.dropTrailing '/' client.url ++ ("/" ++ package ++ "/json") := rfl
  rw [hpage, ← String.append_assoc, ← String.append_assoc]

theorem packageUrl_eq_ofList (client : Client) (package : String) :
    client.packageUrl package = String.ofList ((Text.dropTrailing '/' client.url).toList ++
      '/' :: (package ++ "/json").toList) := by
  have hslash : "/".toList = ['/'] := by decide
  rw [← String.toList_inj, String.toList_ofList, packageUrl_eq]
  simp only [String.toList_append, hslash, List.append_assoc, List.cons_append,
    List.nil_append]

variable {index : Address} (hindex : Address.read? (Text.dropTrailing '/' client.url ++ "/") =
  some index)

include hindex

/-- Below an address that can be read, the page of every distribution has one. -/
theorem read?_packageUrl_ne_none : Address.read? (client.packageUrl package) ≠ none := by
  rw [Address.append_slash_eq] at hindex
  have hservice := Address.service_below hindex (package ++ "/json").toList
  rw [← packageUrl_eq_ofList] at hservice
  intro hnone
  rw [hnone] at hservice
  cases hservice

theorem pathBelow?_packageUrl {address : Address}
    (hread : Address.read? (client.packageUrl package) = some address)
    (hurl : '#' ∉ client.url.toList ∧ '?' ∉ client.url.toList)
    (hpackage : IsPathText package.toList) :
    pathBelow? index address = some (package ++ "/json") := by
  rw [Address.append_slash_eq] at hindex
  have hlead {c : Char} (hc : c ∉ client.url.toList) :
      c ∉ (Text.dropTrailing '/' client.url).toList :=
    fun hmem => hc (Text.mem_of_mem_dropTrailing hmem)
  have hpage : IsPathText (package ++ "/json").toList := by
    have hjson : IsPathText "json".toList := by decide
    rw [String.toList_append]
    exact hpackage.append hjson
  have hquery : ∀ text ∈ (none : Option (List Char)), ∀ c ∈ text, 0x20 < c.toNat ∧ c ≠ '#' := nofun
  obtain ⟨other, hother, hservice, hpath, _⟩ :=
    Address.read?_below ⟨hlead hurl.1, hlead hurl.2⟩ hindex hpage hquery
  rw [Address.marked, List.append_nil, ← packageUrl_eq_ofList, hread, Option.some_inj] at hother
  subst hother
  exact Address.pathBelow?_below hpage hservice hpath

end Addresses

variable {σ : Type}

/-- What is fetched is told by the last answer, and requests for the page of the
distribution stop with the first answer that decides.  No error that may pass
is given back. -/
theorem fetch_decided (client : Client) (package : String)
    (answer : (question : Http.Question) → σ → Http.Reply question × σ) (start : σ) :
    let fetched := ((client.fetch package).run answer start).1
    let sent := sends ((client.fetch package).trace answer start)
    let base := Text.dropTrailing '/' client.url ++ "/"
    (∀ error, fetched = .error error → error.isTransient = false) ∧
      match Address.read? (base ++ package ++ "/json") with
      | none => Address.read? base = none ∧ sent = [] ∧
          fetched = .error (.unavailable package registryName (client.policy.maxRetries + 1)
            (ofFailure package Http.unmakable).message)
      | some address =>
          (∀ entry ∈ sent, entry.request =
            ⟨.get, address, [("accept", "*/*"), ("user-agent", client.agent)], none⟩) ∧
          Fetched client package fetched sent ∧
          ∀ index, Address.read? base = some index →
            '#' ∉ client.url.toList ∧ '?' ∉ client.url.toList → IsPathText package.toList →
              pathBelow? index address = some (package ++ "/json") := by
  intro fetched sent base
  rw [← packageUrl_eq]
  cases hread : Address.read? (client.packageUrl package) with
  | none =>
      have hrequest : client.requestOf? package = none := by rw [requestOf?, hread]; rfl
      obtain ⟨hsent, hfetched⟩ := (fetch_sends_nothing hrequest).run answer start
      refine ⟨fun error herror => ?_, ?_, hsent, hfetched⟩
      · rw [← Except.error.inj (hfetched.symm.trans herror)]
        rfl
      · refine Option.eq_none_iff_forall_ne_some.2 fun index hindex => ?_
        exact read?_packageUrl_ne_none hindex hread
  | some address =>
      have hrequest := congrArg (Option.map fun address => (⟨.get, address,
        [("accept", "*/*"), ("user-agent", client.agent)], none⟩ : Http.Request)) hread
      obtain ⟨hlasting, hrequests, hfetched⟩ := (fetch_sends hrequest).run answer start
      exact ⟨hlasting, hrequests, hfetched, fun index hindex =>
        pathBelow?_packageUrl hindex hread⟩

end Fetching

namespace FetchExample

def client : Client where
  url := "https://pypi.org/pypi/"
  policy := { maxRetries := 2 }

def document : String :=
  "\x7b\"info\":\x7b\"version\":\"1.0\"\x7d,\"releases\":\x7b\"1.0\":[\x7b\x7d]\x7d\x7d"

/-- The index is out of order when it is asked for the first time. -/
def answer : (question : Http.Question) → Nat → Http.Reply question × Nat
  | .send _, asked =>
      (if asked = 0 then .ok ⟨503, .ok "down"⟩ else .ok ⟨200, .ok document⟩, asked + 1)
  | .pause _, asked => ((), asked)

def fetched : Except IndexError (List Release) :=
  ((client.fetch "six").run answer 0).1

def sent : List Sent :=
  sends ((client.fetch "six").trace answer 0)

def page : Address where
  isSecure := true
  host := "pypi.org"
  path := ["pypi", "six", "json"]

/-- The second answer decides. -/
theorem fetched_second :
    (sent.map fun sent => (sent.request.method.name, sent.request.address.target)) =
        [("GET", "/pypi/six/json"), ("GET", "/pypi/six/json")] ∧
      fetched.toOption.map (List.map Release.raw) = some ["1.0"] ∧
      Fetched client "six" fetched sent ∧ ∀ entry ∈ sent, entry.request.address = page := by
  have hread : Address.read? (Text.dropTrailing '/' client.url ++ "/" ++ "six" ++ "/json") =
      some page := by
    decide +kernel
  obtain ⟨_, hfetched⟩ := fetch_decided client "six" answer 0
  rw [hread] at hfetched
  refine ⟨by decide +kernel, by decide +kernel, hfetched.2.1, fun entry hentry => ?_⟩
  rw [hfetched.1 entry hentry]

end FetchExample

end Client

end Index

end StubSync
