/-
What the service makes of a request.

The service goes by the method of a request, by its path below the address of
the interface, by its query and by its body.  So it takes the request of a call
for that call, as long as the repository and the branch can be put into a path,
and the head of a listing into a query.
-/
import StubSync.Proofs.Hosting.Conversation
import StubSync.Proofs.Hosting.Query
import StubSync.Proofs.Http.Path
import StubSync.Proofs.Json.Record

namespace StubSync

namespace GitHub

open Http (IsPathText blanked isValueChar parameters? pathBelow? queryText)

section Reading

/-- The text under a name in a body. -/
def textOf? (name : String) (body : Json) : Option String :=
  (body.get? name).bind Json.text?

/-- A file of a tree, which is not executable. -/
def changeOf? (entry : Json) : Option FileChange := do
  if textOf? "mode" entry ≠ some "100644" ∨ textOf? "type" entry ≠ some "blob" then none
  return ⟨← textOf? "path" entry, ← textOf? "content" entry⟩

/-- What is asked for by a body that is sent to a place of the repository. -/
def creationOf? (place : String) (body : Json) : Option Call :=
  match place with
  | "git/trees" => do
      let changes ← (body.get? "tree").bind (Json.listOf? changeOf?)
      return .createTree (← textOf? "base_tree" body) changes
  | "git/commits" => do
      let parent ← (body.get? "parents").bind onlyText?
      return .createCommit (← textOf? "message" body) (← textOf? "tree" body) parent
  | "git/refs" => do
      let branch ← Text.after? "refs/heads/".toList (← textOf? "ref" body).toList
      return .createBranch (String.ofList branch) (← textOf? "sha" body)
  | "pulls" => do
      return .openPull (← textOf? "title" body) (← textOf? "head" body)
        (← textOf? "base" body) (← textOf? "body" body)
  | "issues" => do
      return .createIssue (← textOf? "title" body) (← textOf? "body" body)
  | _ => none
where
  onlyText? : Json → Option String
    | .list [parent] => parent.text?
    | _ => none

/-- Which page of a listing is asked for by a query. -/
def listingOf? (query : String) : Option Call := do
  let asked ← parameters? query
  if asked.lookup "per_page" ≠ some "100" then none
  let page ← Decimal.whole? (← asked.lookup "page").toList
  return .listPulls (← asked.lookup "state") (asked.lookup "head") page

/-- What is asked for when a place of the repository is read. -/
def readingOf? (place : String) (query : Option String) : Option Call :=
  match Text.after? "git/ref/heads/".toList place.toList with
  | some branch => some (.readBranch (String.ofList branch))
  | none =>
      match Text.after? "git/commits/".toList place.toList with
      | some commit => some (.readCommit (String.ofList commit))
      | none => if place = "pulls" then query.bind listingOf? else none

/-- The call that the service takes a request for: `interface` is the address of
its interface. -/
def callOf? (interface : Address) (repository : String) (request : Http.Request) :
    Option Call := do
  let path ← pathBelow? interface request.address
  let place ← Text.after? ("repos/" ++ repository ++ "/").toList path.toList
  match request.method with
  | .get => readingOf? (String.ofList place) request.address.query
  | .post => request.body.bind (creationOf? (String.ofList place))
  | .delete =>
      (Text.after? "git/refs/heads/".toList place).map fun branch =>
        .deleteBranch (String.ofList branch)

theorem method_of_listingOf? {query : String} {call : Call}
    (hlisting : listingOf? query = some call) : call.method = .get := by
  simp only [listingOf?, Option.bind_eq_bind, Option.bind_eq_some_iff] at hlisting
  obtain ⟨asked, _, hlisting⟩ := hlisting
  split at hlisting
  · cases hlisting
  · simp only [Option.bind_eq_some_iff] at hlisting
    obtain ⟨_, _, _, _, _, _, hcall⟩ := hlisting
    cases hcall
    rfl

theorem method_of_readingOf? {place : String} {query : Option String} {call : Call}
    (hreading : readingOf? place query = some call) : call.method = .get := by
  unfold readingOf? at hreading
  split at hreading
  · cases hreading
    rfl
  · split at hreading
    · cases hreading
      rfl
    · split at hreading
      · obtain ⟨text, _, hlisting⟩ := Option.bind_eq_some_iff.1 hreading
        exact method_of_listingOf? hlisting
      · cases hreading

theorem method_of_creationOf? {place : String} {body : Json} {call : Call}
    (hcreation : creationOf? place body = some call) : call.method = .post := by
  unfold creationOf? at hcreation
  split at hcreation
  · obtain ⟨_, _, hcreation⟩ := Option.bind_eq_some_iff.1 hcreation
    obtain ⟨_, _, hcall⟩ := Option.bind_eq_some_iff.1 hcreation
    cases hcall
    rfl
  · simp only [Option.bind_eq_bind, Option.bind_eq_some_iff] at hcreation
    obtain ⟨_, _, _, _, _, _, hcall⟩ := hcreation
    cases hcall
    rfl
  · simp only [Option.bind_eq_bind, Option.bind_eq_some_iff] at hcreation
    obtain ⟨_, _, _, _, _, _, hcall⟩ := hcreation
    cases hcall
    rfl
  · simp only [Option.bind_eq_bind, Option.bind_eq_some_iff] at hcreation
    obtain ⟨_, _, _, _, _, _, _, _, hcall⟩ := hcreation
    cases hcall
    rfl
  · simp only [Option.bind_eq_bind, Option.bind_eq_some_iff] at hcreation
    obtain ⟨_, _, _, _, hcall⟩ := hcreation
    cases hcall
    rfl
  · cases hcreation

/-- A request is taken for a call of its method. -/
theorem method_of_callOf? {interface : Address} {repository : String} {request : Http.Request}
    {call : Call} (hcall : callOf? interface repository request = some call) :
    call.method = request.method := by
  simp only [callOf?, Option.bind_eq_bind, Option.bind_eq_some_iff] at hcall
  obtain ⟨path, _, place, _, hcall⟩ := hcall
  cases hmethod : request.method with
  | get =>
      simp only [hmethod] at hcall
      exact method_of_readingOf? hcall
  | post =>
      simp only [hmethod, Option.bind_eq_some_iff] at hcall
      obtain ⟨body, _, hcreation⟩ := hcall
      exact method_of_creationOf? hcreation
  | delete =>
      simp only [hmethod, Option.map_eq_some_iff] at hcall
      obtain ⟨branch, _, rfl⟩ := hcall
      rfl

end Reading

/-- The method of a call, and where it goes below the repository. -/
def Call.goal : Call → Http.Method × String
  | .listPulls .. => (.get, "pulls")
  | .readBranch branch | .readBase branch => (.get, "git/ref/heads/" ++ branch)
  | .readCommit commit => (.get, "git/commits/" ++ commit)
  | .createTree .. => (.post, "git/trees")
  | .createCommit .. => (.post, "git/commits")
  | .createBranch .. => (.post, "git/refs")
  | .deleteBranch branch => (.delete, "git/refs/heads/" ++ branch)
  | .openPull .. => (.post, "pulls")
  | .createIssue .. => (.post, "issues")

/-- What a call says in its address can be put there. -/
def Call.IsSpelled : Call → Prop
  | .listPulls state head _ => (∀ c ∈ state.toList, isValueChar c = true) ∧
      ∃ text, head = some text ∧ ∀ c ∈ text.toList, isValueChar c = true
  | .readBranch name | .readBase name | .readCommit name | .deleteBranch name =>
      IsPathText name.toList
  | _ => True

/-- The request goes where its call belongs, and it says all that is to be
created. -/
structure IsDirected (config : GitHub) (interface : Address) (call : Call)
    (request : Http.Request) : Prop where
  method : request.method = call.goal.1
  place : call.IsSpelled → pathBelow? interface request.address =
    some ("repos/" ++ config.repository ++ "/" ++ call.goal.2)
  taken : call.method = .post → callOf? interface config.repository request = some call

/-- The interface of the service is found at its address, and the repository can
be put into a path below it. -/
structure IsServedAt (config : GitHub) (interface : Address) : Prop where
  apiUrl : '#' ∉ config.apiUrl.toList ∧ '?' ∉ config.apiUrl.toList
  reads : Address.read? (Text.dropTrailing '/' config.apiUrl ++ "/") = some interface
  repository : IsPathText config.repository.toList

section Requests

variable {config : GitHub} {interface : Address} {request : Http.Request}

theorem listOf?_treeEntry (changes : List FileChange) :
    Json.listOf? changeOf? (.list (changes.map Call.treeEntry)) = some changes :=
  Json.listOf?_map fun _ _ => rfl

/-- What is sent to the place of a call that creates something says all of the
call. -/
theorem creationOf?_goal (call : Call) (hcall : call.method = .post) :
    ∃ body, call.body = some body ∧ creationOf? call.goal.2 body = some call := by
  cases call with
  | createTree base changes =>
      have hchanges := listOf?_treeEntry changes
      exact ⟨_, rfl, by simp [Call.goal, creationOf?, textOf?, Json.get?, Json.text?, hchanges]⟩
  | createCommit message tree parent =>
      refine ⟨_, rfl, ?_⟩
      simp [Call.goal, creationOf?, creationOf?.onlyText?, textOf?, Json.get?, Json.text?]
  | createBranch branch commit =>
      refine ⟨_, rfl, ?_⟩
      simp [Call.goal, creationOf?, textOf?, Json.get?, Json.text?, Text.after?]
  | openPull title head base body =>
      exact ⟨_, rfl, by simp [Call.goal, creationOf?, textOf?, Json.get?, Json.text?]⟩
  | createIssue title body =>
      exact ⟨_, rfl, by simp [Call.goal, creationOf?, textOf?, Json.get?, Json.text?]⟩
  | _ => cases hcall

theorem readingOf?_pulls (query : String) :
    readingOf? "pulls" (some query) = listingOf? query := by
  have hbranch : Text.after? "git/ref/heads/".toList "pulls".toList = none := by decide
  have hcommit : Text.after? "git/commits/".toList "pulls".toList = none := by decide
  rw [readingOf?, hbranch]
  simp only [hcommit, if_true]
  rfl

/-- The query of a listing is taken for that listing, but for blanks out of `+` in its
head. -/
theorem listingOf?_query {state head : String} (page : Nat)
    (hstate : ∀ c ∈ state.toList, isValueChar c = true ∧ c ≠ '+')
    (hhead : ∀ c ∈ head.toList, isValueChar c = true) :
    listingOf? (String.ofList (Address.encode Address.inQuery
      (queryText (lookup state head page)))) =
        some (.listPulls state (some (blanked head)) page) := by
  have hpairs : ∀ pair ∈ lookup state head page, Http.IsPair pair :=
    isPair_of_mem_lookup (fun c hc => (hstate c hc).1) hhead
  have hne : lookup state head page ≠ [] := List.cons_ne_nil _ _
  have hasked := Http.parameters?_encode hne hpairs
  have hpage : Decimal.whole? (toString page).toList = some page := by
    rw [Decimal.toList_toString]
    exact Decimal.whole?_eq_some_iff.2 (Decimal.isNumber_digits page)
  rw [blanked_lookup (fun hmem => (hstate _ hmem).2 rfl)] at hasked
  have hsize : (lookup state (blanked head) page).lookup "per_page" = some "100" := by
    simp [lookup, List.lookup_cons]
    decide
  have hnumber : (lookup state (blanked head) page).lookup "page" = some (toString page) := by
    simp [lookup, List.lookup_cons]
  simp only [listingOf?, hasked, hsize, hnumber, Option.bind_eq_bind, Option.bind_some, hpage]
  simp [lookup, List.lookup_cons]

/-- Where the interface has an address, every call makes a request, which goes to
the service. -/
theorem exists_requestOf?
    (hreads : Address.read? (Text.dropTrailing '/' config.apiUrl ++ "/") = some interface)
    (call : Call) :
    ∃ request, config.requestOf? call = some request ∧
      request.address.service = interface.service := by
  rw [Address.append_slash_eq] at hreads
  obtain ⟨rest, hrest⟩ := List.head?_eq_some_iff.1 (head?_path call)
  have hurl : config.url call = String.ofList ((Text.dropTrailing '/' config.apiUrl).toList ++
      '/' :: (("repos/" ++ config.repository).toList ++ '/' :: rest)) := by
    rw [url_eq, hrest]
  have hservice := Address.service_below hreads
    (("repos/" ++ config.repository).toList ++ '/' :: rest)
  rw [← hurl] at hservice
  obtain ⟨address, hread, hsame⟩ := Option.map_eq_some_iff.1 hservice
  exact ⟨_, by rw [requestOf?, hread]; rfl, hsame⟩

theorem IsServedAt.lead (hserved : config.IsServedAt interface) :
    '#' ∉ (Text.dropTrailing '/' config.apiUrl).toList ∧
      '?' ∉ (Text.dropTrailing '/' config.apiUrl).toList :=
  ⟨fun hmem => hserved.apiUrl.1 (Text.mem_of_mem_dropTrailing hmem),
    fun hmem => hserved.apiUrl.2 (Text.mem_of_mem_dropTrailing hmem)⟩

/-- A path that can be spelled so is what the service is asked for. -/
theorem IsServedAt.pathBelow?_of_path (hserved : config.IsServedAt interface) {call : Call}
    {place : String} {query : Option (List Char)}
    (hpath : call.path.toList = '/' :: (place.toList ++ Address.marked query))
    (hplace : IsPathText place.toList)
    (hquery : ∀ text ∈ query, ∀ c ∈ text, 0x20 < c.toNat ∧ c ≠ '#')
    (hrequest : config.requestOf? call = some request) :
    pathBelow? interface request.address =
        some ("repos/" ++ config.repository ++ "/" ++ place) ∧
      request.address.query =
        query.map fun text => String.ofList (Address.encode Address.inQuery text) := by
  let path := "repos/" ++ config.repository ++ "/" ++ place
  have hwhole : path.toList = "repos".toList ++ '/' :: (config.repository.toList ++
      '/' :: place.toList) := by
    simp [path, String.toList_append]
  have hpathText : IsPathText path.toList := by
    have hrepos : IsPathText "repos".toList := by decide
    rw [hwhole]
    exact hrepos.append (hserved.repository.append hplace)
  have hlead := hserved.reads
  rw [Address.append_slash_eq] at hlead
  obtain ⟨address, hread, hservice, hspelled, hasked⟩ :=
    Address.read?_below hserved.lead hlead hpathText hquery
  have hurl : config.url call = String.ofList ((Text.dropTrailing '/' config.apiUrl).toList ++
      '/' :: (path.toList ++ Address.marked query)) := by
    rw [url_eq, hpath, hwhole]
    simp [String.toList_append]
  rw [requestOf?, hurl, hread, Option.map_some, Option.some_inj] at hrequest
  subst hrequest
  exact ⟨Address.pathBelow?_below hpathText hservice hspelled, hasked⟩

theorem callOf?_of_pathBelow? {place : String}
    (hpath : pathBelow? interface request.address =
      some ("repos/" ++ config.repository ++ "/" ++ place)) :
    callOf? interface config.repository request =
      match request.method with
      | .get => readingOf? place request.address.query
      | .post => request.body.bind (creationOf? place)
      | .delete =>
          (Text.after? "git/refs/heads/".toList place.toList).map fun branch =>
            .deleteBranch (String.ofList branch) := by
  rw [callOf?, hpath]
  simp only [Option.bind_eq_bind, Option.bind_some, String.toList_append, Text.after?_append,
    String.ofList_toList]

theorem toList_path {call : Call} {place : String} (hpath : call.path = "/" ++ place) :
    call.path.toList = '/' :: (place.toList ++ Address.marked none) := by
  rw [hpath, String.toList_append, Address.marked, List.append_nil]
  rfl

theorem isPathText_append {front lead name : String} (hlead : lead.toList = front.toList ++ ['/'])
    (hfront : IsPathText front.toList) (hname : IsPathText name.toList) :
    IsPathText (lead ++ name).toList := by
  rw [String.toList_append, hlead, List.append_assoc]
  exact hfront.append hname

theorem method_of_requestOf? {call : Call} (hrequest : config.requestOf? call = some request) :
    request.method = call.method := by
  obtain ⟨address, _, rfl⟩ := Option.map_eq_some_iff.1 hrequest
  rfl

theorem body_of_requestOf? {call : Call} (hrequest : config.requestOf? call = some request) :
    request.body = call.body := by
  obtain ⟨address, _, rfl⟩ := Option.map_eq_some_iff.1 hrequest
  rfl

section Calls

variable (hserved : config.IsServedAt interface)

include hserved

/-- The listing of a head is asked for where pull requests are, with its query. -/
theorem pathBelow?_listPulls {state head : String} {page : Nat}
    (hstate : ∀ c ∈ state.toList, isValueChar c = true)
    (hhead : ∀ c ∈ head.toList, isValueChar c = true)
    (hrequest : config.requestOf? (.listPulls state (some head) page) = some request) :
    pathBelow? interface request.address =
        some ("repos/" ++ config.repository ++ "/" ++ "pulls") ∧
      request.address.query = some (String.ofList (Address.encode Address.inQuery
        (queryText (lookup state head page)))) := by
  have hpairs : ∀ pair ∈ lookup state head page, Http.IsPair pair :=
    isPair_of_mem_lookup hstate hhead
  have hquery : ∀ text ∈ some (queryText (lookup state head page)),
      ∀ c ∈ text, 0x20 < c.toNat ∧ c ≠ '#' := by
    rintro _ ⟨⟩
    exact Http.mem_queryText hpairs
  have hplace : IsPathText "pulls".toList := by decide
  exact hserved.pathBelow?_of_path (toList_path_listPulls state head page) hplace hquery hrequest

theorem pathBelow?_of_isSpelled {call : Call} (hspelled : call.IsSpelled)
    (hrequest : config.requestOf? call = some request) :
    pathBelow? interface request.address =
      some ("repos/" ++ config.repository ++ "/" ++ call.goal.2) := by
  have hplain {place : String} (hpath : call.path = "/" ++ place)
      (hplace : IsPathText place.toList) : pathBelow? interface request.address =
        some ("repos/" ++ config.repository ++ "/" ++ place) :=
    (hserved.pathBelow?_of_path (toList_path hpath) hplace nofun hrequest).1
  have hhead : "git/ref/heads/".toList = "git/ref/heads".toList ++ ['/'] := by decide
  have hheads : "git/refs/heads/".toList = "git/refs/heads".toList ++ ['/'] := by decide
  have hcommits : "git/commits/".toList = "git/commits".toList ++ ['/'] := by decide
  have htrees : IsPathText "git/trees".toList := by decide
  have hcommit : IsPathText "git/commits".toList := by decide
  have hrefs : IsPathText "git/refs".toList := by decide
  have hpulls : IsPathText "pulls".toList := by decide
  have hissues : IsPathText "issues".toList := by decide
  cases call with
  | listPulls state head page =>
      obtain ⟨hstate, text, rfl, htext⟩ := hspelled
      exact (pathBelow?_listPulls hserved hstate htext hrequest).1
  | readBranch branch => exact hplain rfl (isPathText_append hhead (by decide) hspelled)
  | readBase branch => exact hplain rfl (isPathText_append hhead (by decide) hspelled)
  | readCommit commit => exact hplain rfl (isPathText_append hcommits hcommit hspelled)
  | deleteBranch branch => exact hplain rfl (isPathText_append hheads (by decide) hspelled)
  | createTree base changes => exact hplain rfl htrees
  | createCommit message tree parent => exact hplain rfl hcommit
  | createBranch branch commit => exact hplain rfl hrefs
  | openPull title head base body => exact hplain rfl hpulls
  | createIssue title body => exact hplain rfl hissues

/-- A call that creates something is understood, whatever it says. -/
theorem callOf?_creation {call : Call} (hcall : call.method = .post)
    (hrequest : config.requestOf? call = some request) :
    callOf? interface config.repository request = some call := by
  obtain ⟨body, hbody, hcreation⟩ := creationOf?_goal call hcall
  have hspelled : call.IsSpelled := by
    cases call <;> trivial
  rw [callOf?_of_pathBelow? (pathBelow?_of_isSpelled hserved hspelled hrequest),
    method_of_requestOf? hrequest, hcall, body_of_requestOf? hrequest, hbody]
  exact hcreation

theorem callOf?_readBranch {branch : String} (hbranch : IsPathText branch.toList)
    (hrequest : config.requestOf? (.readBranch branch) = some request) :
    callOf? interface config.repository request = some (.readBranch branch) := by
  have hspelled : (Call.readBranch branch).IsSpelled := hbranch
  rw [callOf?_of_pathBelow? (pathBelow?_of_isSpelled hserved hspelled hrequest),
    method_of_requestOf? hrequest]
  change readingOf? ("git/ref/heads/" ++ branch) _ = _
  rw [readingOf?, String.toList_append, Text.after?_append]
  exact congrArg _ (congrArg _ String.ofList_toList)

theorem callOf?_deleteBranch {branch : String} (hbranch : IsPathText branch.toList)
    (hrequest : config.requestOf? (.deleteBranch branch) = some request) :
    callOf? interface config.repository request = some (.deleteBranch branch) := by
  have hspelled : (Call.deleteBranch branch).IsSpelled := hbranch
  rw [callOf?_of_pathBelow? (pathBelow?_of_isSpelled hserved hspelled hrequest),
    method_of_requestOf? hrequest]
  change (Text.after? _ ("git/refs/heads/" ++ branch).toList).map _ = _
  rw [String.toList_append, Text.after?_append, Option.map_some, String.ofList_toList]

/-- A listing is understood, but for blanks out of `+` in its head. -/
theorem callOf?_listPulls {state head : String} {page : Nat}
    (hstate : ∀ c ∈ state.toList, isValueChar c = true ∧ c ≠ '+')
    (hhead : ∀ c ∈ head.toList, isValueChar c = true)
    (hrequest : config.requestOf? (.listPulls state (some head) page) = some request) :
    callOf? interface config.repository request =
      some (.listPulls state (some (blanked head)) page) := by
  obtain ⟨hpath, hquery⟩ :=
    pathBelow?_listPulls hserved (fun c hc => (hstate c hc).1) hhead hrequest
  rw [callOf?_of_pathBelow? hpath, method_of_requestOf? hrequest, hquery,
    ← listingOf?_query page hstate hhead]
  exact readingOf?_pulls _

/-- The request of a call goes where the call belongs. -/
theorem isDirected_of_requestOf? {call : Call} (hrequest : config.requestOf? call = some request) :
    config.IsDirected interface call request where
  method := by
    rw [method_of_requestOf? hrequest]
    cases call <;> rfl
  place hspelled := pathBelow?_of_isSpelled hserved hspelled hrequest
  taken hcall := callOf?_creation hserved hcall hrequest

end Calls

end Requests

end GitHub

end StubSync
