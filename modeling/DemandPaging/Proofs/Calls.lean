/-
  What requests are made of: single calls.

  A user access is tried, the fault that stops it is handled, and it is tried again.  Each attempt
  is a request of its own, an access that handles no fault, and so is each fault.  All other
  requests are single calls already.

  * `Request.Makes` tells which calls a request is made of;
  * `perform_steps`: to carry out a request is to carry out such calls, one after the other
    (`Step`);
  * `Sound.calls_keep`: what every single call keeps, requests one after the other keep.
-/
import Mathlib.Logic.Relation
import DemandPaging.Proofs.Run

namespace DemandPaging

/-- A request that is not interrupted: any but an access that may handle faults. -/
def Request.Single : Request → Prop
  | .load _ _ _ _ limit | .store _ _ _ _ limit => limit = 0
  | _ => True

/-- The single calls that a request is made of: attempts of an access and faults at addresses in
    its range, or the request itself. -/
inductive Request.Makes : Request → Request → Prop where
  | self (request : Request) (h : request.Single) : Makes request request
  | tryLoad (process address length stackPointer limit : Nat) :
      Makes (.load process address length stackPointer limit)
        (.load process address length stackPointer 0)
  | loadFault (process address length stackPointer limit k : Nat) (hk : k < length) :
      Makes (.load process address length stackPointer limit)
        (.fault process ⟨address + k, false, stackPointer⟩)
  | tryStore (process address : Nat) (data : Bytes) (stackPointer limit : Nat) :
      Makes (.store process address data stackPointer limit)
        (.store process address data stackPointer 0)
  | storeFault (process address : Nat) (data : Bytes) (stackPointer limit k : Nat)
      (hk : k < data.size) :
      Makes (.store process address data stackPointer limit)
        (.fault process ⟨address + k, true, stackPointer⟩)

theorem Request.Makes.single {request call : Request} (h : request.Makes call) : call.Single := by
  cases h with
  | self _ h => exact h
  | tryLoad => rfl
  | loadFault => trivial
  | tryStore => rfl
  | storeFault => trivial

/-- A request makes a teardown only if it is one. -/
theorem Request.Makes.eq_destroy {request : Request} {process : Nat}
    (h : request.Makes (.destroy process)) : request = .destroy process := by
  cases h
  rfl

/-- The error that an answer tells of. -/
def Answer.error? : Answer → Option Error
  | .failed e | .loaded (.failed _ e) | .stored (.failed _ e) => some e
  | _ => none

/-- Swap had no room for a page that had to go there. -/
def Answer.Exhausted (answer : Answer) : Prop :=
  answer.error? = some .swapExhausted

instance : DecidablePred Answer.Exhausted := fun answer =>
  inferInstanceAs (Decidable (answer.error? = some .swapExhausted))

theorem Answer.exhausted_loaded (access : UserAccess Bytes) (h : (loaded access).Exhausted) :
    ∃ k e, access = .failed k e := by
  cases access with
  | failed k e => exact ⟨k, e, rfl⟩
  | _ => cases h

theorem Answer.exhausted_stored (access : UserAccess Nat) (h : (stored access).Exhausted) :
    ∃ k e, access = .failed k e := by
  cases access with
  | failed k e => exact ⟨k, e, rfl⟩
  | _ => cases h

theorem Answer.exhausted_ofResult {res : Except Error Unit} (h : (ofResult res).Exhausted) :
    res = .error .swapExhausted := by
  cases res with
  | ok _ => cases h
  | error e => exact congrArg Except.error (Option.some.inj h)

namespace Machine

variable {n : Nat} {m m' : Machine n} {process stackPointer limit faults : Nat}
  {request : Request} {answer : Answer}

/-- A single call of a request takes one machine to another.  It finds swap full only if the
    request is answered so. -/
inductive Step (request : Request) (answer : Answer) (m m' : Machine n) : Prop where
  | mk (call : Request) (reply : Answer) (hmakes : request.Makes call)
      (hperform : (m.perform call).result = .ok (reply, m'))
      (hexhausted : reply.Exhausted → answer.Exhausted)

theorem Step.sound (h : Step request answer m m') (hs : m.Sound none) : m'.Sound none := by
  obtain ⟨call, reply, -, hperform, -⟩ := h
  exact (perform_cases hs hperform).sound hs

/-! ## Accesses -/

section

variable {α : Type} {attempt : Machine n → Outcome (Except AccessFault α × Machine n)}
  {access : UserAccess α}

/-- An access that may handle no fault is one attempt. -/
theorem tried_of_retry (h : (retry attempt process stackPointer 0 faults m).result =
    .ok (access, m')) : ∃ tried, (attempt m).result = .ok (tried, m') := by
  unfold retry at h
  obtain ⟨⟨tried, m₁⟩, htried, h⟩ := Outcome.bind_eq_ok_iff.1 h
  cases tried with
  | ok value => cases h; exact ⟨_, htried⟩
  | error fault => cases h; exact ⟨_, htried⟩

/-- An attempt is the call that is the access without faults to handle. -/
theorem step_of_tried {f : UserAccess α → Answer} {call : Request}
    {tried : Except AccessFault α} (hmakes : request.Makes call)
    (hperform : ∀ access, (retry attempt process stackPointer 0 0 m).result = .ok (access, m') →
      (m.perform call).result = .ok (f access, m'))
    (hexhausted : ∀ access, (f access).Exhausted → ∃ k e, access = .failed k e)
    (htried : (attempt m).result = .ok (tried, m')) : Step request answer m m' := by
  have hretry : ∃ access, (retry attempt process stackPointer 0 0 m).result = .ok (access, m') ∧
      ∀ k e, access ≠ .failed k e := by
    unfold retry
    cases tried with
    | ok value => exact ⟨.done 0 value, Outcome.bind_eq_ok_iff.2 ⟨_, htried, rfl⟩, by simp⟩
    | error fault => exact ⟨.gaveUp 0, Outcome.bind_eq_ok_iff.2 ⟨_, htried, rfl⟩, by simp⟩
  obtain ⟨access, hretry, hnot⟩ := hretry
  refine ⟨call, _, hmakes, hperform access hretry, fun h => ?_⟩
  obtain ⟨k, e, rfl⟩ := hexhausted access h
  exact absurd rfl (hnot k e)

/-- Attempts and faults in turn are calls of the request that they are made for. -/
theorem retry_steps {f : UserAccess α → Answer}
    (hattempt : ∀ m tried m', m.Sound none → (attempt m).result = .ok (tried, m') →
      (∀ answer, Step request answer m m') ∧ ∀ fault, tried = .error fault →
        request.Makes (.fault process ⟨fault.address, fault.write, stackPointer⟩))
    (hfailed : ∀ k, (f (.failed k .swapExhausted)).Exhausted) (hs : m.Sound none)
    (h : (retry attempt process stackPointer limit faults m).result = .ok (access, m')) :
    Relation.ReflTransGen (Step request (f access)) m m' := by
  have hhandle : ∀ {m m₁ m' : Machine n} {fault res} (answer : Answer), m.Sound none →
      (attempt m).result = .ok (.error fault, m₁) →
      (m₁.handleFault process ⟨fault.address, fault.write, stackPointer⟩).result = .ok (res, m') →
      (res = .error .swapExhausted → answer.Exhausted) →
      Step request answer m m₁ ∧ Step request answer m₁ m' := by
    intro m m₁ m' fault res answer hs htried hhandled hexhausted
    obtain ⟨hstep, hmakes⟩ := hattempt m _ m₁ hs htried
    refine ⟨hstep answer, _, .ofResult res, hmakes fault rfl,
      Outcome.bind_eq_ok_iff.2 ⟨_, hhandled, rfl⟩, fun hreply => hexhausted ?_⟩
    exact Answer.exhausted_ofResult hreply
  refine retry_cases
    (P := fun _ m₁ => m₁.Sound none ∧ ∀ answer, Relation.ReflTransGen (Step request answer) m m₁)
    (Q := fun access m' => Relation.ReflTransGen (Step request (f access)) m m')
    ?_ ?_ ?_ ?_ ⟨hs, fun _ => .refl⟩ h
  · rintro k m₁ value m' ⟨hs₁, hsteps⟩ htried
    exact (hsteps _).tail ((hattempt m₁ _ m' hs₁ htried).1 _)
  · rintro k m₁ fault m' ⟨hs₁, hsteps⟩ htried
    exact (hsteps _).tail ((hattempt m₁ _ m' hs₁ htried).1 _)
  · rintro k m₁ fault m₂ e m' ⟨hs₁, hsteps⟩ htried hhandled
    obtain ⟨htry, hfault⟩ := hhandle (f (.failed (k + 1) e)) hs₁ htried hhandled
      fun he => Except.error.inj he ▸ hfailed (k + 1)
    exact ((hsteps _).tail htry).tail hfault
  · rintro k m₁ fault m₂ m' ⟨hs₁, hsteps⟩ htried hhandled
    have hboth := fun answer => hhandle answer hs₁ htried hhandled nofun
    refine ⟨?_, fun answer => ((hsteps answer).tail (hboth answer).1).tail (hboth answer).2⟩
    exact (hboth .done).2.sound ((hboth .done).1.sound hs₁)

end

/-- An attempt changes nothing that is recorded of a page. -/
theorem record?_load {address length : Nat} {access : UserAccess Bytes} (hs : m.Sound none)
    (hlimit : limit = 0)
    (h : (m.load limit process address length stackPointer).result = .ok (access, m'))
    (x : Owner) : m'.record? x = m.record? x := by
  subst hlimit
  obtain ⟨tried, htried⟩ := tried_of_retry h
  obtain ⟨-, hsame, -⟩ := tryLoad_cases htried hs
  exact hsame.record?_eq x

theorem record?_store {address : Nat} {data : Bytes} {access : UserAccess Nat} (hs : m.Sound none)
    (hlimit : limit = 0)
    (h : (m.store limit process address data stackPointer).result = .ok (access, m'))
    (x : Owner) : m'.record? x = m.record? x := by
  subst hlimit
  obtain ⟨tried, htried⟩ := tried_of_retry h
  obtain ⟨⟨directory, memory, rfl, -⟩, -⟩ :=
    tryStore_cases (K := 0) htried hs FlatMemory.store_zero.symm
  exact record?_duringAccess

/-! ## Requests and runs -/

/-- To carry out a request is to carry out the calls that it is made of. -/
theorem perform_steps (hs : m.Sound none) (h : (m.perform request).result = .ok (answer, m')) :
    Relation.ReflTransGen (Step request answer) m m' := by
  have hself : request.Single → Relation.ReflTransGen (Step request answer) m m' :=
    fun hsingle => .single ⟨request, answer, .self request hsingle, h, id⟩
  cases request with
  | load process address length stackPointer limit =>
    obtain ⟨⟨access, m₁⟩, hload, h⟩ := Outcome.bind_eq_ok_iff.1 h
    cases h
    refine retry_steps (f := .loaded) ?_ (fun k => rfl) hs hload
    intro m tried m' hs htried
    constructor
    · intro answer
      exact step_of_tried (.tryLoad ..)
        (fun access h => Outcome.bind_eq_ok_iff.2 ⟨_, h, rfl⟩) Answer.exhausted_loaded htried
    · rintro fault rfl
      obtain ⟨-, -, ⟨_, hok, -⟩ | ⟨k, hk, hfault⟩⟩ := tryLoad_cases htried hs
      · cases hok
      · cases hfault
        exact .loadFault process address length stackPointer limit k hk
  | store process address data stackPointer limit =>
    obtain ⟨⟨access, m₁⟩, hstore, h⟩ := Outcome.bind_eq_ok_iff.1 h
    cases h
    refine retry_steps (f := .stored) ?_ (fun k => rfl) hs hstore
    intro m tried m' hs htried
    constructor
    · intro answer
      exact step_of_tried (.tryStore ..)
        (fun access h => Outcome.bind_eq_ok_iff.2 ⟨_, h, rfl⟩) Answer.exhausted_stored htried
    · rintro fault rfl
      obtain ⟨-, -, k, -, -, ⟨hok, -⟩ | ⟨hfault, hk⟩⟩ :=
        tryStore_cases (K := 0) htried hs FlatMemory.store_zero.symm
      · cases hok
      · cases hfault
        exact .storeFault process address data stackPointer limit k hk
  | _ => exact hself trivial

/-- What the single calls of a request keep, the request keeps. -/
theorem perform_keeps {I : Machine n → Prop}
    (hcall : ∀ m call reply m', m.Sound none → request.Makes call → I m →
      (m.perform call).result = .ok (reply, m') → I m')
    (hs : m.Sound none) (hm : I m) (h : (m.perform request).result = .ok (answer, m')) : I m' := by
  have hsteps := perform_steps hs h
  clear h
  suffices hboth : m'.Sound none ∧ I m' from hboth.2
  induction hsteps with
  | refl => exact ⟨hs, hm⟩
  | tail _ hstep ih =>
    obtain ⟨hs₁, hm₁⟩ := ih
    refine ⟨hstep.sound hs₁, ?_⟩
    obtain ⟨call, reply, hmakes, hperform, -⟩ := hstep
    exact hcall _ call reply _ hs₁ hmakes hm₁ hperform

/-- What the single calls of requests keep, the requests one after the other keep. -/
theorem Sound.calls_keep {I : Machine n → Prop} {requests : List Request} {answers : List Answer}
    (hs : m.Sound none) (hm : I m)
    (hcall : ∀ m request call reply m', request ∈ requests → m.Sound none → request.Makes call →
      I m → (m.perform call).result = .ok (reply, m') → I m')
    (h : (Outcome.answerAll perform m requests).result = .ok (answers, m')) : I m' := by
  refine (Outcome.answerAll_keeps (I := fun m => m.Sound none ∧ I m) ?_ ⟨hs, hm⟩ h).2
  rintro m request answer m' hmem ⟨hs, hm⟩ hperform
  refine ⟨(perform_cases hs hperform).sound hs, perform_keeps ?_ hs hm hperform⟩
  exact fun m call reply m' => hcall m request call reply m' hmem

end Machine

end DemandPaging
