import PrivacyPool.Base.Promise
import PrivacyPool.Base.Trace

/-!
# Running the interceptors

`interceptor.ts`: all interceptors are called, one after the other, and their verdicts are awaited
side by side. Two chains of promises race for the result: those that only a block settles, and one
that is settled when all verdicts are there. An interceptor may throw when it is called, return a
promise that is settled, or one that is settled later; promises are settled at any time, also while
other interceptors are called and between two microtasks.

## Main definitions

* `Interception`, `Interception.step` — a run of `runInterceptors`, microtask by microtask
* `Interception.result` — what `runInterceptors` is resolved with
-/

namespace PrivacyPool.ProofInterceptor

open Promises

/-- Screening attestation relayed on an allowed deposit. -/
structure ScreeningSignature where
  issuedAt : ℕ
  sigR : String
  sigS : String
  deriving DecidableEq, Repr

/-- What an interceptor says of a transaction. -/
inductive Verdict
  | allow (signature : Option ScreeningSignature)
  | block (reason : String)
  deriving DecidableEq, Repr

/-- The verdict is a block. -/
def Verdict.isBlock : Verdict → Bool
  | allow _ => false
  | block _ => true

/-- The verdict is an allow with a signature. -/
def Verdict.isSigned : Verdict → Bool
  | allow signature => signature.isSome
  | block _ => false

/-- How an interceptor ends: with a verdict, or by an exception or a rejected promise. -/
inductive Outcome
  | returned (verdict : Verdict)
  | thrown
  deriving DecidableEq, Repr

/-- An exception counts as a block. -/
def Outcome.verdict : Outcome → Verdict
  | returned verdict => verdict
  | thrown => .block "interceptor_error"

/-- The promises of a run. -/
inductive Key
  /-- What the interceptor returns. -/
  | intercepted (i : ℕ)
  | promises (i : ℕ)
  | blockPromises (i : ℕ)
  /-- `Promise.all(promises)`. -/
  | all
  | allAllow
  /-- `Promise.race([...blockPromises, allAllow])`. -/
  | race
  deriving DecidableEq, Repr

/-- The values of these promises. -/
inductive Value
  | outcome (outcome : Outcome)
  | verdict (verdict : Verdict)
  | verdicts (verdicts : List Verdict)
  deriving DecidableEq, Repr

/-- The reactions to these promises. -/
inductive Reaction
  /-- An element of `promises` goes on after its interceptor. -/
  | record (i : ℕ)
  /-- An element of `blockPromises` goes on with its verdict. -/
  | blockOnly (i : ℕ)
  /-- `Promise.all` receives a verdict. -/
  | element (i : ℕ)
  /-- The callback behind `Promise.all`. -/
  | pick
  /-- `Promise.race` receives a value. -/
  | settleRace
  /-- The job of a promise that is resolved with one that is never settled. -/
  | forever
  deriving DecidableEq, Repr

/-- A run of `runInterceptors`. -/
structure Interception where
  agent : Agent Key Reaction Value
  /-- The number of interceptors that were called. -/
  called : ℕ
  /-- What `Promise.all` has received. -/
  values : List (Option Verdict)

/-- The signed verdict that comes first, or else an allow. -/
def pickVerdict (verdicts : List Verdict) : Verdict :=
  (verdicts.find? Verdict.isSigned).getD (.allow none)

/-- The reactions that are registered after all interceptors were called, in their order: the
`await` of `blockPromises`, `Promise.all`, its callback and `Promise.race`. -/
def wiring (n : ℕ) : List (Key × Reaction) :=
  (List.range n).map (fun i => (.promises i, .blockOnly i)) ++
    (List.range n).map (fun i => (.promises i, .element i)) ++
    [(.all, .pick)] ++
    (List.range n).map (fun i => (.blockPromises i, .settleRace)) ++
    [(.allAllow, .settleRace)]

/-- What the call of an interceptor gives. -/
inductive Call
  | throws
  | pending
  | settled
  deriving DecidableEq, Repr

/-- What can happen next. -/
inductive Event
  /-- The next interceptor is called. -/
  | call (call : Call)
  /-- The promise of an interceptor is settled. -/
  | settle (i : ℕ)
  /-- The next microtask runs. -/
  | tick
  deriving DecidableEq, Repr

namespace Interception

/-- The state before the first call. -/
def start (n : ℕ) : Interception := ⟨⟨fun _ => .pending [], []⟩, 0, List.replicate n none⟩

/-- Settle a promise of the agent. -/
def settle (key : Key) (value : Value) (s : Interception) : Interception :=
  { s with agent := s.agent.settle key value }

/-- An element of `promises`, up to its `await`: an exception of the call is caught. -/
def intercept (i : ℕ) (outcome : Outcome) (call : Call) (agent : Agent Key Reaction Value) :
    Option (Agent Key Reaction Value) :=
  match call with
  | .throws => if outcome = .thrown then some (agent.settle (.promises i) (.verdict outcome.verdict))
    else none
  | .pending => some (agent.react (.intercepted i) (.record i))
  | .settled =>
    some ((agent.settle (.intercepted i) (.outcome outcome)).react (.intercepted i) (.record i))

/-- A microtask. -/
def perform (s : Interception) : Reaction → Value → Interception
  | .record i, .outcome outcome => s.settle (.promises i) (.verdict outcome.verdict)
  | .blockOnly i, .verdict verdict =>
    if verdict.isBlock then s.settle (.blockPromises i) (.verdict verdict)
    -- A verdict that allows never settles its side of the race.
    else { s with agent.jobs := s.agent.jobs ++ [(.forever, .verdict verdict)] }
  | .element i, .verdict verdict =>
    let values := s.values.set i (some verdict)
    -- The last verdict settles them all.
    if values.all Option.isSome then
      { s with values }.settle .all (.verdicts (values.filterMap id))
    else { s with values }
  | .pick, .verdicts verdicts => s.settle .allAllow (.verdict (pickVerdict verdicts))
  | .settleRace, value => s.settle .race value
  | _, _ => s

/-- One step, when it can happen. The microtasks run when all interceptors were called. -/
def step (outcomes : List Outcome) (event : Event) (s : Interception) : Option Interception :=
  match event with
  | .call call => do
    let outcome ← outcomes[s.called]?
    let agent ← intercept s.called outcome call s.agent
    let called := s.called + 1
    return { s with
      called
      -- After the last call the promises are wired up, before any microtask runs.
      agent := if called = outcomes.length then agent.wire (wiring outcomes.length) else agent }
  | .settle i =>
    match outcomes[i]?, s.agent.promises (.intercepted i) with
    | some outcome, .pending (_ :: _) => some (s.settle (.intercepted i) (.outcome outcome))
    | _, _ => none
  | .tick =>
    if s.called = outcomes.length then
      match s.agent.jobs with
      | [] => none
      | (reaction, value) :: jobs => some ({ s with agent.jobs := jobs }.perform reaction value)
    else none

/-- What `runInterceptors` is resolved with. Without interceptors it allows at once. -/
def result (outcomes : List Outcome) (s : Interception) : Option Verdict :=
  if outcomes.length = 0 then some (.allow none)
  else
    match s.agent.promises .race with
    | .settled (.verdict verdict) => some verdict
    | _ => none

/-- All interceptors were called and no microtask is left. -/
def Idle (outcomes : List Outcome) (s : Interception) : Prop :=
  ∀ event, (∀ i, event ≠ .settle i) → s.step outcomes event = none

/-- An interceptor that was called has thrown, or its promise is settled. -/
def Ended (outcomes : List Outcome) (s : Interception) (i : ℕ) : Prop :=
  i < s.called ∧ s.step outcomes (.settle i) = none

end Interception

end PrivacyPool.ProofInterceptor
