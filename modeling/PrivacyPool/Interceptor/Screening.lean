import PrivacyPool.EllipticProxy.Run
import PrivacyPool.Interceptor.ScreenedAddress

/-!
# The screening interceptor

`screening-interceptor.ts`: a prove request is screened by its predicted address. The
address is sent to the screening proxy until a verdict comes back or the time is up, and
nothing but an allowed verdict with a signature lets it pass. The signature travels to the
pool behind the actions.

## Main definitions

* `callScreenEndpoint` — what a response of the proxy says
* `screenAndSign` — the attempts to get a verdict
* `ScreeningInterceptor.intercept` — the verdict on a transaction
* `screeningCalldataSuffix` — the attestation as calldata

## Main results

* `screenAndSign_cases` — where a verdict comes from
* `screeningCalldataSuffix_deserialize` — the pool reads the attestation back
-/

namespace PrivacyPool.Interceptor

open ProofInterceptor (ScreeningSignature Verdict)

/-- The configuration of the interceptor. -/
structure ScreeningConfig where
  timeoutMs : ℕ
  maxRetries : ℕ
  totalTimeoutMs : ℕ
  poolAddress : String
  blockNonPoolTx : Bool
  deriving DecidableEq, Repr

/-! ### Responses of the proxy -/

/-- The members of a signature in a response, each absent unless it is of its type. -/
structure SignaturePayload where
  issuedAt : Option ℤ
  sigR : Option String
  sigS : Option String
  deriving DecidableEq, Repr

/-- An object in a response, with its members of the types that are asked for. -/
structure ScreenPayload where
  blocked : Option Bool
  signature : Option SignaturePayload
  deriving DecidableEq, Repr

/-- A response of the proxy: whether its status is a success, and its body unless that is
no object. -/
structure ScreenResponse where
  ok : Bool
  payload : Option ScreenPayload
  deriving DecidableEq, Repr

/-- The signature, when it passes `isScreeningSignature`. -/
def SignaturePayload.signature? (payload : SignaturePayload) : Option ScreeningSignature := do
  let issuedAt ← payload.issuedAt
  let sigR ← payload.sigR
  let sigS ← payload.sigS
  if 0 ≤ issuedAt ∧ EllipticProxy.hexFeltFormat sigR = true ∧
      EllipticProxy.hexFeltFormat sigS = true then
    some ⟨issuedAt.toNat, sigR, sigS⟩
  else none

/-- A definitive answer of the proxy. -/
inductive EndpointVerdict
  | allowed (signature : ScreeningSignature)
  | blocked
  deriving DecidableEq, Repr

/-- What the proxy says, absent where the call throws: without a response in time, for an
unsuccessful or malformed one, and for an allowed one that is not signed. -/
def callScreenEndpoint (response : Option ScreenResponse) : Option EndpointVerdict := do
  let response ← response
  if response.ok = false then none else
    -- A payload that is not of the agreed form counts as no response.
    let payload ← response.payload
    let blocked ← payload.blocked
    if blocked then some .blocked
    else
      let signature ← payload.signature
      let signature ← signature.signature?
      some (.allowed signature)

/-- An answer of the proxy as it is received. -/
def ScreenResponse.ofReply : EllipticProxy.Reply → ScreenResponse
  | .error status _ => ⟨decide (200 ≤ status ∧ status < 300), some ⟨none, none⟩⟩
  | .blocked _ => ⟨true, some ⟨some true, none⟩⟩
  | .allowed _ signature =>
    ⟨true, some ⟨some false, some ⟨some signature.issuedAt, some signature.sigR,
      some signature.sigS⟩⟩⟩

/-- Only a verdict of the proxy is a verdict for the interceptor. -/
theorem callScreenEndpoint_ofReply {reply : EllipticProxy.Reply} {verdict : EndpointVerdict}
    (h : callScreenEndpoint (some (.ofReply reply)) = some verdict) :
    (∃ source, reply = .blocked source ∧ verdict = .blocked) ∨
      ∃ source signature, reply = .allowed source signature ∧ verdict = .allowed signature := by
  cases reply with
  | error status message =>
    simp only [callScreenEndpoint, ScreenResponse.ofReply, Option.bind_eq_bind,
      Option.bind_some] at h
    split_ifs at h
    cases h
  | blocked source =>
    obtain rfl := Option.some.inj h
    exact Or.inl ⟨source, rfl, rfl⟩
  | allowed source signature =>
    simp only [callScreenEndpoint, ScreenResponse.ofReply, SignaturePayload.signature?,
      Option.bind_eq_bind, Option.bind_some, Bool.true_eq_false, if_false, Bool.false_eq_true,
      Option.bind_eq_some_iff, Option.ite_none_right_eq_some, Option.some.injEq] at h
    obtain ⟨_, ⟨-, rfl⟩, rfl⟩ := h
    exact Or.inr ⟨source, signature, rfl, rfl⟩

/-! ### Attempts -/

/-- What surrounds the attempts: the clock when an attempt begins and when it calls, and
what the proxy answers within a time. -/
structure Surroundings where
  began : ℕ → ℕ
  called : ℕ → ℕ
  respond : ℕ → ℕ → Option ScreenResponse

/-- What the loop of attempts comes to. -/
inductive SignOutcome
  | allowed (signature : ScreeningSignature)
  | blocked
  | unavailable
  deriving DecidableEq, Repr

/-- The loop over the attempts that are left, up to the deadline. -/
def attemptScreening (timeoutMs deadline : ℕ) (env : Surroundings) : ℕ → ℕ → SignOutcome
  | 0, _ => .unavailable
  | left + 1, attempt =>
    -- The first attempt does not back off.
    if 0 < attempt ∧ deadline ≤ env.began attempt then .unavailable
    else if deadline ≤ env.called attempt then .unavailable
    else
      let perCallTimeout := min timeoutMs (deadline - env.called attempt)
      match callScreenEndpoint (env.respond attempt perCallTimeout) with
      | some (.allowed signature) => .allowed signature
      | some .blocked => .blocked
      | none => attemptScreening timeoutMs deadline env left (attempt + 1)

/-- Screen and sign an address. A failure never lets the request pass. -/
def screenAndSign (config : ScreeningConfig) (now : ℕ) (env : Surroundings) : SignOutcome :=
  attemptScreening config.timeoutMs (now + config.totalTimeoutMs) env (config.maxRetries + 1) 0

/-- The opaque code that an unresolved subject blocks with. -/
def unresolvedSubjectReason : ScreenedAddress → Option String
  | .conflict => some "multiple_screening_subjects"
  | .unreadablePolicy => some "screening_policy_unavailable"
  | .undeterminedShadowAccount => some "shadow_account_undetermined"
  | .none | .one _ => none

/-- The verdict for a screened address. -/
def screenVerdict (config : ScreeningConfig) (now : ℕ) (env : String → Surroundings) :
    ScreenedAddress → Verdict
  | .none => .allow none
  | .one address =>
    match screenAndSign config now (env address) with
    | .blocked => .block "address_blocked"
    | .unavailable => .block "screening_unavailable"
    | .allowed signature => .allow (some signature)
  | unresolved => .block ((unresolvedSubjectReason unresolved).getD "")

/-- `ScreeningInterceptor.intercept` -/
def ScreeningInterceptor.intercept (sn : Starknet) (address : AddressFormula)
    (decoder : AbiDecoder) (config : ScreeningConfig)
    (getPolicy : String → Option OpenNoteScreeningPolicy) (now : ℕ) (env : String → Surroundings)
    (transaction : ProveTxn) : Verdict :=
  if isSinglePoolCall transaction config.poolAddress = true then
    screenVerdict config now env
      (getScreenedAddress sn address decoder transaction config.poolAddress getPolicy)
  else if config.blockNonPoolTx then
    .block "transaction is not a direct call to the privacy pool"
  else .allow none

/-! ### Where a verdict comes from -/

section Attempts

variable {timeoutMs deadline : ℕ} {env : Surroundings}

/-- An attempt that is made before the deadline, and what the proxy says to it. -/
structure Answered (timeoutMs deadline : ℕ) (env : Surroundings) (attempt : ℕ)
    (verdict : EndpointVerdict) : Prop where
  inTime : env.called attempt < deadline
  definitive : callScreenEndpoint
    (env.respond attempt (min timeoutMs (deadline - env.called attempt))) = some verdict

/-- The loop ends with the first definitive answer, if there is one in time. -/
theorem attemptScreening_cases (left attempt : ℕ) :
    (∃ i verdict, attempt ≤ i ∧ i < attempt + left ∧ Answered timeoutMs deadline env i verdict ∧
      (∀ j verdict', attempt ≤ j → j < i → ¬Answered timeoutMs deadline env j verdict') ∧
      ((∃ signature, verdict = .allowed signature ∧
          attemptScreening timeoutMs deadline env left attempt = .allowed signature) ∨
        verdict = .blocked ∧ attemptScreening timeoutMs deadline env left attempt = .blocked)) ∨
    attemptScreening timeoutMs deadline env left attempt = .unavailable := by
  induction left generalizing attempt with
  | zero => exact Or.inr rfl
  | succ left ih =>
    unfold attemptScreening
    split_ifs with hbackoff hlate
    · exact Or.inr rfl
    · exact Or.inr rfl
    · have hintime : env.called attempt < deadline := not_le.mp hlate
      -- The answer to this attempt decides whether there is a further one.
      cases hverdict : callScreenEndpoint
          (env.respond attempt (min timeoutMs (deadline - env.called attempt))) with
      | some verdict =>
        left
        refine ⟨attempt, verdict, le_rfl, by omega, ⟨hintime, hverdict⟩,
          fun j _ hge hlt => absurd hlt (not_lt.mpr hge), ?_⟩
        cases verdict with
        | allowed signature => exact Or.inl ⟨signature, rfl, by simp only [hverdict]⟩
        | blocked => exact Or.inr ⟨rfl, by simp only [hverdict]⟩
      | none =>
        simp only [hverdict]
        rcases ih (attempt + 1) with
          ⟨i, verdict, hge, hlt, hanswered, hfirst, hresult⟩ | hunavailable
        · refine Or.inl ⟨i, verdict, by omega, by omega, hanswered, ?_, hresult⟩
          intro j verdict' hj hji hother
          rcases Nat.eq_or_lt_of_le hj with rfl | hlater
          · rw [hother.definitive] at hverdict
            cases hverdict
          · exact hfirst j verdict' hlater hji hother
        · exact Or.inr hunavailable

end Attempts

/-- The interceptor ends with the first definitive answer before the deadline, or without one. -/
theorem screenAndSign_cases (config : ScreeningConfig) (now : ℕ) (env : Surroundings) :
    (∃ i verdict, i ≤ config.maxRetries ∧
      Answered config.timeoutMs (now + config.totalTimeoutMs) env i verdict ∧
      (∀ j verdict', j < i →
        ¬Answered config.timeoutMs (now + config.totalTimeoutMs) env j verdict') ∧
      ((∃ signature, verdict = .allowed signature ∧
          screenAndSign config now env = .allowed signature) ∨
        verdict = .blocked ∧ screenAndSign config now env = .blocked)) ∨
    screenAndSign config now env = .unavailable := by
  rcases attemptScreening_cases (config.maxRetries + 1) 0 with
    ⟨i, verdict, -, hlt, hanswered, hfirst, hresult⟩ | hunavailable
  · exact Or.inl ⟨i, verdict, by omega, hanswered,
      fun j verdict' hj => hfirst j verdict' (Nat.zero_le j) hj, hresult⟩
  · exact Or.inr hunavailable

/-! ### The attestation as calldata -/

/-- `screeningCalldataSuffix` of the SDK: the numbers behind the action span. -/
def screeningCalldataSuffix (signature : Option ScreeningSignature) : Option (List ℕ) :=
  match signature with
  | none => some [1]
  | some signature => do
    let sigR ← parseFelt signature.sigR
    let sigS ← parseFelt signature.sigS
    return [0, signature.issuedAt, sigR, sigS]

end PrivacyPool.Interceptor

namespace PrivacyPool

open ProofInterceptor (ScreeningSignature)

/-- An attestation as it travels from the proxy to the SDK. -/
def ScreeningAttestation.wire (attestation : ScreeningAttestation) : ScreeningSignature :=
  ⟨attestation.issuedAt.val, Hex.writeText attestation.signature.1.val,
    Hex.writeText attestation.signature.2.val⟩

namespace Interceptor

/-- The pool reads back the attestation that the SDK appends, or that there is none. -/
theorem screeningCalldataSuffix_deserialize (attestation : Option ScreeningAttestation) :
    ∃ suffix : List Felt,
      screeningCalldataSuffix (attestation.map ScreeningAttestation.wire) =
        some (suffix.map Fin.val) ∧ deserialize suffix = some (attestation, []) := by
  refine ⟨serialize attestation, ?_, ?_⟩
  · cases attestation with
    | none => rfl
    | some attestation =>
      have hread : ∀ n, parseFelt (Hex.writeText n) = some n := fun n =>
        parseFelt_of_spells (Hex.spells_writeText n)
      simp only [Option.map_some, screeningCalldataSuffix, ScreeningAttestation.wire, hread]
      rfl
  · have hread := deserialize_serialize attestation []
    rwa [List.append_nil] at hread

end Interceptor

end PrivacyPool
