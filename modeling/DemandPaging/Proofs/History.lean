/-
  Histories: what was asked, one request after the other, and what was answered.

  A history runs from one state to another if its requests, carried out in turn, get its answers.
  What is known of a state is then told from the history that led to it.

  * `Outcome.answerAll` carries out requests one after the other; `answerAll_take` and
    `answerAll_append` take that apart and put it together, and `answerAll_keeps`: what every request
    keeps, all of them keep;
  * `Outcome.Runs` says that a history runs, and `exists_runs` finds the one that requests make,
    which is that of the requests with their answers (`runs_zip`);
  * `Runs.facts`: if a request keeps what is known from the history so far, a run does, and
    whatever each request adds can be told of every place in the history.
-/
import DemandPaging.Proofs.Outcome

namespace DemandPaging.Outcome

section

variable {σ ρ α : Type} {perform : σ → ρ → Outcome (α × σ)} {s s' : σ} {request : ρ} {answer : α}
  {requests : List ρ} {answers : List α} {history : List (ρ × α)}

/-- Carry out requests one after the other. -/
def answerAll (perform : σ → ρ → Outcome (α × σ)) (s : σ) :
    List ρ → Outcome (List α × σ)
  | [] => return ([], s)
  | request :: rest => do
    let (answer, s) ← perform s request
    let (answers, s) ← answerAll perform s rest
    return (answer :: answers, s)

/-- The requests of a history, carried out one after the other, get its answers and lead from one
    state to another. -/
def Runs (perform : σ → ρ → Outcome (α × σ)) (s : σ) (history : List (ρ × α)) (s' : σ) : Prop :=
  (answerAll perform s (history.map Prod.fst)).result = .ok (history.map Prod.snd, s')

theorem answerAll_cons_iff :
    (answerAll perform s (request :: requests)).result = .ok (answers, s') ↔
      ∃ answer next others, (perform s request).result = .ok (answer, next) ∧
        (answerAll perform next requests).result = .ok (others, s') ∧
        answers = answer :: others := by
  simp only [answerAll, bind_eq_ok_iff, result_pure, Except.ok.injEq, Prod.exists, Prod.mk.injEq]
  constructor
  · rintro ⟨answer, next, hrequest, others, _, hrest, rfl, rfl⟩
    exact ⟨answer, next, others, hrequest, hrest, rfl⟩
  · rintro ⟨answer, next, others, hrequest, hrest, rfl⟩
    exact ⟨answer, next, hrequest, others, s', hrest, rfl, rfl⟩

/-- Requests are carried out as the first of them, and then the others. -/
theorem answerAll_take (h : (answerAll perform s requests).result = .ok (answers, s')) (k : Nat) :
    ∃ between, (answerAll perform s (requests.take k)).result = .ok (answers.take k, between) ∧
      (answerAll perform between (requests.drop k)).result = .ok (answers.drop k, s') := by
  induction requests generalizing s answers k with
  | nil =>
    cases h
    exact ⟨s', by simp [answerAll], by simp [answerAll]⟩
  | cons request rest ih =>
    cases k with
    | zero => exact ⟨s, rfl, h⟩
    | succ k =>
      obtain ⟨answer, next, others, hrequest, hrest, rfl⟩ := answerAll_cons_iff.1 h
      obtain ⟨between, htake, hdrop⟩ := ih hrest k
      exact ⟨between, answerAll_cons_iff.2 ⟨answer, next, _, hrequest, htake, rfl⟩, hdrop⟩

theorem answerAll_append {between : σ} {later : List ρ} {others : List α}
    (h : (answerAll perform s requests).result = .ok (answers, between))
    (hlater : (answerAll perform between later).result = .ok (others, s')) :
    (answerAll perform s (requests ++ later)).result = .ok (answers ++ others, s') := by
  induction requests generalizing s answers with
  | nil =>
    cases h
    exact hlater
  | cons request rest ih =>
    obtain ⟨answer, next, middle, hrequest, hrest, rfl⟩ := answerAll_cons_iff.1 h
    exact answerAll_cons_iff.2 ⟨answer, next, _, hrequest, ih hrest, rfl⟩

/-- What every request keeps, all of them keep. -/
theorem answerAll_keeps {I : σ → Prop}
    (hstep : ∀ s request answer next, request ∈ requests → I s →
      (perform s request).result = .ok (answer, next) → I next)
    (hs : I s) (h : (answerAll perform s requests).result = .ok (answers, s')) : I s' := by
  induction requests generalizing s answers with
  | nil =>
    cases h
    exact hs
  | cons request rest ih =>
    obtain ⟨answer, next, others, hrequest, hrest, rfl⟩ := answerAll_cons_iff.1 h
    exact ih (fun s r a s' hr => hstep s r a s' (List.mem_cons_of_mem _ hr))
      (hstep s request answer next List.mem_cons_self hs hrequest) hrest

namespace Runs

theorem nil (perform : σ → ρ → Outcome (α × σ)) (s : σ) : Runs perform s [] s := rfl

theorem cons_iff : Runs perform s ((request, answer) :: history) s' ↔
    ∃ next, (perform s request).result = .ok (answer, next) ∧ Runs perform next history s' := by
  rw [Runs, List.map_cons, List.map_cons, answerAll_cons_iff]
  constructor
  · rintro ⟨answer', next, others, hrequest, hrest, h⟩
    cases h
    exact ⟨next, hrequest, hrest⟩
  · rintro ⟨next, hrequest, hrest⟩
    exact ⟨answer, next, _, hrequest, hrest, rfl⟩

/-- `facts` for a run that goes on from the history `before`. -/
theorem facts_from {P : List (ρ × α) → σ → Prop} {Q : List (ρ × α) → ρ → α → Prop}
    (hstep : ∀ before s request answer next, P before s →
      (perform s request).result = .ok (answer, next) →
        P (before ++ [(request, answer)]) next ∧ Q before request answer)
    {before : List (ρ × α)} (h : Runs perform s history s') (hstart : P before s) :
    P (before ++ history) s' ∧ ∀ (i : Nat) request answer, history[i]? = some (request, answer) →
      Q (before ++ history.take i) request answer := by
  -- On the rest of the history; an entry that was carried out goes over to the history so far.
  induction history generalizing s before with
  | nil =>
    cases h
    exact ⟨by simpa using hstart, nofun⟩
  | cons entry rest ih =>
    obtain ⟨request, answer⟩ := entry
    obtain ⟨next, hrequest, hrest⟩ := cons_iff.1 h
    obtain ⟨hnext, hadded⟩ := hstep _ _ _ _ _ hstart hrequest
    obtain ⟨hlast, hplaces⟩ := ih hrest hnext
    simp only [List.append_assoc, List.singleton_append] at hlast hplaces
    refine ⟨hlast, fun i later reply hi => ?_⟩
    cases i with
    | zero =>
      cases hi
      simpa using hadded
    | succ i => simpa using hplaces i later reply (by simpa using hi)

/-- What every request keeps, told from the history so far, holds after a run; and what every
    request adds holds at its place in the history. -/
theorem facts {P : List (ρ × α) → σ → Prop} {Q : List (ρ × α) → ρ → α → Prop}
    (hstep : ∀ before s request answer next, P before s →
      (perform s request).result = .ok (answer, next) →
        P (before ++ [(request, answer)]) next ∧ Q before request answer)
    (h : Runs perform s history s') (hstart : P [] s) :
    P history s' ∧ ∀ (i : Nat) request answer, history[i]? = some (request, answer) →
      Q (history.take i) request answer := by
  simpa using facts_from hstep h hstart

end Runs

/-- Requests that are carried out make a history that runs. -/
theorem exists_runs (h : (answerAll perform s requests).result = .ok (answers, s')) :
    ∃ history, history.map Prod.fst = requests ∧ history.map Prod.snd = answers ∧
      Runs perform s history s' := by
  induction requests generalizing s answers with
  | nil =>
    cases h
    exact ⟨[], rfl, rfl, .nil perform _⟩
  | cons request rest ih =>
    obtain ⟨answer, next, others, hrequest, hrest, rfl⟩ := answerAll_cons_iff.1 h
    obtain ⟨history, rfl, rfl, hruns⟩ := ih hrest
    exact ⟨(request, answer) :: history, rfl, rfl, Runs.cons_iff.2 ⟨next, hrequest, hruns⟩⟩

theorem runs_zip (h : (answerAll perform s requests).result = .ok (answers, s')) :
    Runs perform s (requests.zip answers) s' := by
  obtain ⟨history, rfl, rfl, hruns⟩ := exists_runs h
  rwa [← List.unzip_fst, ← List.unzip_snd, List.zip_unzip]

/-- If no request stops the machine, any requests make a history that runs. -/
theorem exists_runs_of_completes (hcompletes : ∀ s request, (perform s request).Completes)
    (s : σ) (requests : List ρ) :
    ∃ history s', history.map Prod.fst = requests ∧ Runs perform s history s' := by
  induction requests generalizing s with
  | nil => exact ⟨[], s, rfl, .nil perform s⟩
  | cons request rest ih =>
    obtain ⟨⟨answer, next⟩, hrequest⟩ := hcompletes s request
    obtain ⟨history, s', rfl, hruns⟩ := ih next
    exact ⟨(request, answer) :: history, s', rfl, Runs.cons_iff.2 ⟨next, hrequest, hruns⟩⟩

end

end DemandPaging.Outcome
