/-
What a computation may ask after what it has been told.

`Paces` goes through a computation with the history of what was seen so far.
Each question has to be one that may follow its history, and the result is
judged with the whole history.  Nothing is assumed about the answers.
-/
import StubSync.Proofs.Trace

namespace StubSync

namespace Interaction

variable {Q : Type} {R : Q → Type} {α β σ S : Type}

/-- What is seen of a question and its answer, if anything. -/
def Asked.seen? (observe : (q : Q) → R q → Option S) (asked : Asked R σ) : Option S :=
  observe asked.question asked.reply

/-- What is seen of everything that was asked, in order. -/
def seen (observe : (q : Q) → R q → Option S) (asked : List (Asked R σ)) : List S :=
  asked.filterMap (Asked.seen? observe)

theorem seen_cons (observe : (q : Q) → R q → Option S) (asked : Asked R σ)
    (others : List (Asked R σ)) :
    seen observe (asked :: others) = (asked.seen? observe).toList ++ seen observe others := by
  unfold seen
  rw [List.filterMap_cons]
  cases asked.seen? observe <;> rfl

theorem seen_append (observe : (q : Q) → R q → Option S) (first second : List (Asked R σ)) :
    seen observe (first ++ second) = seen observe first ++ seen observe second :=
  List.filterMap_append

/-- The surroundings that note what is seen of every question, in order. -/
def noting (observe : (q : Q) → R q → Option S) (answer : (q : Q) → σ → R q × σ) (question : Q)
    (state : σ × List S) : R question × (σ × List S) :=
  let replied := answer question state.1
  (replied.1, (replied.2, state.2 ++ (observe question replied.1).toList))

/-- However the questions are answered, each of them may follow what was seen
before it, and `post` holds of the result and of all that was seen. -/
def Paces (observe : (q : Q) → R q → Option S) (ready : List S → Q → Prop) :
    Interaction Q R α → (α → List S → Prop) → List S → Prop
  | .done result, post, history => post result history
  | .ask question next, post, history =>
      ready history question ∧
        ∀ reply, (next reply).Paces observe ready post
          (history ++ (observe question reply).toList)

variable {observe : (q : Q) → R q → Option S} {ready : List S → Q → Prop} {history : List S}

@[simp]
theorem paces_pure {post : α → List S → Prop} {result : α} :
    (pure result : Interaction Q R α).Paces observe ready post history ↔ post result history :=
  Iff.rfl

theorem Paces.mono {post weaker : α → List S → Prop} {first : Interaction Q R α}
    (hfirst : first.Paces observe ready post history)
    (himp : ∀ result seen, post result seen → weaker result seen) :
    first.Paces observe ready weaker history := by
  induction first generalizing history with
  | done result => exact himp result history hfirst
  | ask question next ih => exact ⟨hfirst.1, fun reply => ih reply (hfirst.2 reply)⟩

theorem Paces.weaken {wider : List S → Q → Prop} {post : α → List S → Prop}
    {first : Interaction Q R α} (hfirst : first.Paces observe ready post history)
    (hready : ∀ seen question, ready seen question → wider seen question) :
    first.Paces observe wider post history := by
  induction first generalizing history with
  | done result => exact hfirst
  | ask question next ih =>
      exact ⟨hready history question hfirst.1, fun reply => ih reply (hfirst.2 reply)⟩

theorem Paces.bind {mid : α → List S → Prop} {post : β → List S → Prop}
    {first : Interaction Q R α} {next : α → Interaction Q R β}
    (hfirst : first.Paces observe ready mid history)
    (hnext : ∀ result seen, mid result seen → (next result).Paces observe ready post seen) :
    (first >>= next).Paces observe ready post history := by
  change (first.bind next).Paces observe ready post history
  induction first generalizing history with
  | done result => exact hnext result history hfirst
  | ask question follow ih => exact ⟨hfirst.1, fun reply => ih reply (hfirst.2 reply)⟩

/-- Where nothing is asked of questions, nothing is asked of computations. -/
theorem paces_anyhow (first : Interaction Q R α) (hready : ∀ seen question, ready seen question) :
    first.Paces observe ready (fun _ _ => True) history := by
  induction first generalizing history with
  | done result => trivial
  | ask question next ih => exact ⟨hready history question, fun reply => ih reply⟩

theorem Paces.grows {post : α → List S → Prop} {first : Interaction Q R α}
    (hfirst : first.Paces observe ready post history) :
    first.Paces observe ready (fun result seen => post result seen ∧ history <+: seen)
      history := by
  induction first generalizing history with
  | done result => exact ⟨hfirst, List.prefix_refl history⟩
  | ask question next ih =>
      refine ⟨hfirst.1, fun reply => ?_⟩
      apply (ih reply (hfirst.2 reply)).mono
      rintro result seen ⟨hpost, hseen⟩
      exact ⟨hpost, (List.prefix_append _ _).trans hseen⟩

variable {answer : (q : Q) → σ → R q × σ}

theorem Paces.run {post : α → List S → Prop} {first : Interaction Q R α}
    (hfirst : first.Paces observe ready post history) (answer : (q : Q) → σ → R q × σ)
    (start : σ) :
    post (first.run answer start).1 (history ++ seen observe (first.trace answer start)) := by
  induction first generalizing history start with
  | done result =>
      rw [trace, seen, List.filterMap_nil, List.append_nil]
      exact hfirst
  | ask question next ih =>
      rw [trace, seen_cons, ← List.append_assoc]
      exact ih _ (hfirst.2 _) _

/-- Whatever is asked on the way may follow what was seen before it. -/
theorem Paces.ready_of_trace {post : α → List S → Prop} {first : Interaction Q R α} {start : σ}
    (hfirst : first.Paces observe ready post history) {before after : List (Asked R σ)}
    {asked : Asked R σ} (htrace : first.trace answer start = before ++ asked :: after) :
    ready (history ++ seen observe before) asked.question := by
  induction first generalizing history start before with
  | done result => simp [trace] at htrace
  | ask question next ih =>
      cases before with
      | nil =>
          have hhead := (List.cons.inj htrace).1
          subst hhead
          simpa [seen] using hfirst.1
      | cons head before =>
          obtain ⟨hhead, htail⟩ := List.cons.inj htrace
          subst hhead
          rw [seen_cons, ← List.append_assoc]
          exact ih _ (hfirst.2 _) htail

/-- What is seen was asked in a history of what is seen before it. -/
theorem Paces.ready_of_seen {post : α → List S → Prop} {first : Interaction Q R α} {start : σ}
    (hfirst : first.Paces observe ready post history) {earlier later : List S} {entry : S}
    (hseen : seen observe (first.trace answer start) = earlier ++ entry :: later) :
    ∃ question reply, observe question reply = some entry ∧
      ready (history ++ earlier) question := by
  obtain ⟨before, rest, htrace, hbefore, hrest⟩ := List.filterMap_eq_append_iff.1 hseen
  obtain ⟨unseen, asked, after, rfl, hunseen, hentry, _⟩ := List.filterMap_eq_cons_iff.1 hrest
  have hquiet : seen observe (before ++ unseen) = earlier := by
    rw [seen_append, seen, seen, hbefore, List.filterMap_eq_nil_iff.2 hunseen, List.append_nil]
  have hready := hfirst.ready_of_trace (htrace.trans (List.append_assoc ..).symm)
  rw [hquiet] at hready
  exact ⟨asked.question, asked.reply, hentry, hready⟩

section OnlyAsks

/-- Nothing is asked, whatever the answers, but questions of a kind. -/
def OnlyAsks (may : Q → Prop) : Interaction Q R α → Prop
  | .done _ => True
  | .ask question next => may question ∧ ∀ reply, (next reply).OnlyAsks may

variable {may : Q → Prop}

theorem onlyAsks_query {question : Q} (hquestion : may question) :
    (query question : Interaction Q R (R question)).OnlyAsks may :=
  ⟨hquestion, fun _ => trivial⟩

theorem OnlyAsks.bind {first : Interaction Q R α} {next : α → Interaction Q R β}
    (hfirst : first.OnlyAsks may) (hnext : ∀ result, (next result).OnlyAsks may) :
    (first >>= next).OnlyAsks may := by
  change (first.bind next).OnlyAsks may
  induction first with
  | done result => exact hnext result
  | ask question follow ih => exact ⟨hfirst.1, fun reply => ih reply (hfirst.2 reply)⟩

theorem Paces.onlyAsks {post : α → List S → Prop} {first : Interaction Q R α}
    (hfirst : first.Paces observe ready post history)
    (hready : ∀ history question, ready history question → may question) :
    first.OnlyAsks may := by
  induction first generalizing history with
  | done result => trivial
  | ask question next ih =>
      exact ⟨hready history question hfirst.1, fun reply => ih reply (hfirst.2 reply)⟩

theorem OnlyAsks.mem_trace {first : Interaction Q R α} (hfirst : first.OnlyAsks may) {start : σ}
    {asked : Asked R σ} (hasked : asked ∈ first.trace answer start) : may asked.question := by
  induction first generalizing start with
  | done result => cases hasked
  | ask question next ih =>
      rcases List.mem_cons.1 hasked with rfl | hlater
      · exact hfirst.1
      · exact ih _ (hfirst.2 _) hlater

/-- What no question of the kind changes is not changed. -/
theorem OnlyAsks.view_eq {ν : Type} {first : Interaction Q R α} (hfirst : first.OnlyAsks may)
    {view : σ → ν}
    (hview : ∀ question state, may question → view (answer question state).2 = view state)
    (start : σ) : view (first.run answer start).2 = view start := by
  induction first generalizing start with
  | done result => rfl
  | ask question next ih =>
      exact (ih _ (hfirst.2 _) _).trans (hview question start hfirst.1)

section Interpreted

variable {Q' : Type} {R' : Q' → Type} {may' : Q' → Prop}

theorem OnlyAsks.interpret {say : (q : Q) → Interaction Q' R' (R q)} {first : Interaction Q R α}
    (hfirst : first.OnlyAsks may) (hsay : ∀ question, may question → (say question).OnlyAsks may') :
    (first.interpret say).OnlyAsks may' := by
  induction first with
  | done result => trivial
  | ask question next ih =>
      exact OnlyAsks.bind (hsay question hfirst.1) fun reply => ih reply (hfirst.2 reply)

theorem OnlyAsks.interpretFrom {say : (q : Q) → σ → Interaction Q' R' (R q × σ)}
    {first : Interaction Q R α} (hfirst : first.OnlyAsks may)
    (hsay : ∀ question state, may question → (say question state).OnlyAsks may') (state : σ) :
    (first.interpretFrom say state).OnlyAsks may' := by
  induction first generalizing state with
  | done result => trivial
  | ask question next ih =>
      exact OnlyAsks.bind (hsay question state hfirst.1) fun reply =>
        ih reply.1 (hfirst.2 reply.1) reply.2

end Interpreted

end OnlyAsks

end Interaction

end StubSync
