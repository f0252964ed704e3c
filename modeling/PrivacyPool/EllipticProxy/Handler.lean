import Mathlib.Algebra.Order.Ring.Rat
import PrivacyPool.Base.Lru
import PrivacyPool.Base.Spelling
import PrivacyPool.Contract.Snip12
import PrivacyPool.EllipticProxy.Scoring
import PrivacyPool.Interceptor.RunInterceptors

/-!
# The screening proxy

`handler.ts` and what it calls: a request is authenticated and rate limited, its address
is decided by the operator's lists, by the cache of blocked addresses or by the upstream,
and every allowed verdict is signed for the pool. The handler waits once, for the upstream,
and other requests are handled meanwhile.

## Main definitions

* `ProxyPlatform` — the libraries that the proxy uses
* `authenticateRequest`, `RateLimiter.check` — who may ask
* `computeScreeningMessageHash`, `signScreening` — the attestation
* `receive`, `answer` — the handler up to the upstream call, and after it
-/

namespace PrivacyPool.EllipticProxy

open ProofInterceptor (ScreeningSignature)
open Fallible

/-! ### Felts -/

/-- `HEX_FELT_FORMAT`: the marker and at most 64 hexadecimal digits. -/
def hexFeltFormat (value : String) : Bool :=
  match value.toList with
  | '0' :: 'x' :: digits => digits ≠ [] && digits.length ≤ 64 && digits.all Hex.isHexDigit
  | _ => false

/-- Hexadecimal text of a felt, in the format of addresses. -/
def isHexFelt (value : String) : Bool :=
  hexFeltFormat value && (Hex.readText value).any fun felt => felt < feltPrime

/-- The entries are matched by the numbers that they stand for. -/
def feltListIncludes (entries : Option (List String)) (addressFelt : ℕ) : Bool :=
  (entries.getD []).any fun entry => Hex.readText entry = some addressFelt

/-- A Cairo short string as a felt: its bytes, the first one most significant. -/
def shortStringToFelt (text : String) : Felt :=
  Fin.ofNat feltPrime (text.toList.foldl (fun value c => 256 * value + c.toNat) 0)

/-! ### Configuration -/

/-- The secrets of a partner. -/
structure PartnerCredentials where
  hmacSecret : String
  ellipticKey : String
  ellipticSecret : String
  deriving DecidableEq, Repr

/-- The fields of a configuration that the handler reads. -/
structure Config where
  ellipticUrl : String
  ellipticTimeoutMs : ℕ
  rateLimitPerMinute : ℕ
  maxBodyBytes : ℕ
  blockedCacheTtlSeconds : ℕ
  partners : String → Option PartnerCredentials
  additionalBlockedAddresses : Option (List String)
  blockOverrideAddresses : Option (List String)
  signingPrivateKey : String
  chainId : String

/-- A "mock:" address selects the upstream in the process. -/
def isMockEllipticUrl (url : String) : Bool := url.startsWith "mock:"

/-- A window of the rate limiter. -/
structure Window where
  count : ℕ
  windowStart : ℕ
  deriving DecidableEq, Repr

/-- The libraries that the proxy uses: `Number`, the keyed hash and the reading of its texts,
STARK signatures, and the caches. -/
structure ProxyPlatform where
  /-- `Number` of a text, absent when it is not a finite number. -/
  number : String → Option ℚ
  /-- The HMAC-SHA256 of a text under a secret, both secret and digest in base 64. -/
  hmac : String → String → String
  /-- `Buffer.from` of a text in base 64. -/
  base64 : String → List UInt8
  /-- `getStarkKey`, absent where it throws. -/
  getStarkKey : String → Option Felt
  /-- `sign` of a message hash, absent where it throws. -/
  sign : Felt → String → Option (Felt × Felt)
  windows : LruCache String Window
  blocked : LruCache String Unit

section Proxy

variable (sn : Starknet) (platform : ProxyPlatform)

/-! ### Authentication -/

/-- What the handler reads of a request. -/
structure Request where
  method : String
  path : String
  /-- The first value of each header. -/
  accessKey : Option String
  accessSign : Option String
  accessTimestamp : Option String
  rawBody : Option String
  /-- The member `address` of the body, when that is an object and the member a string. -/
  address : Option String
  deriving DecidableEq, Repr

/-- `MAX_TIMESTAMP_DRIFT_MS` -/
def maxTimestampDriftMs : ℚ := 5 * 60 * 1000

/-- The signature of a request of a partner. -/
def computeHmacSignature (secretBase64 timestamp method path body : String) : String :=
  platform.hmac secretBase64 (timestamp ++ method ++ path.toLower ++ body)

/-- The signatures are the same bytes. -/
def verifySignature (secretBase64 providedSignature timestamp method path body : String) : Bool :=
  let expected := computeHmacSignature platform secretBase64 timestamp method path body
  platform.base64 expected = platform.base64 providedSignature

/-- The partner that sends a request, or why it is not authenticated. -/
def authenticateRequest (now : ℕ) (req : Request) (config : Config) : Except String String := do
  let partnerName := req.accessKey.getD ""
  let accessSign := req.accessSign.getD ""
  let accessTimestamp := req.accessTimestamp.getD ""
  require (partnerName ≠ "" ∧ accessSign ≠ "" ∧ accessTimestamp ≠ "") "missing_headers"
  -- A timestamp that is no number counts as expired.
  let timestampMs ← expect (platform.number accessTimestamp) "timestamp_expired"
  require (|(now : ℚ) - timestampMs| ≤ maxTimestampDriftMs) "timestamp_expired"
  -- A partner without a secret is no partner.
  let partner ← expect (config.partners partnerName) "unknown_partner"
  require (partner.hmacSecret ≠ "") "unknown_partner"
  require (verifySignature platform partner.hmacSecret accessSign accessTimestamp req.method
    req.path (req.rawBody.getD "") = true) "invalid_signature"
  return partnerName

/-! ### Rate limiting and the cache -/

/-- `WINDOW_MS` -/
def windowMs : ℕ := 60000

/-- `MAX_PARTNERS` -/
def maxPartners : ℕ := 20

/-- Count a request, unless its window is full. -/
def RateLimiter.check (windows : platform.windows.Cache) (partnerName : String)
    (limitPerMinute now : ℕ) : Bool × platform.windows.Cache :=
  match platform.windows.get windows now partnerName with
  | (none, windows) => (true, platform.windows.set windows now partnerName ⟨1, now⟩)
  | (some window, windows) =>
    -- The window is over: a new one starts with this request.
    if windowMs ≤ now - window.windowStart then
      (true, platform.windows.set windows now partnerName ⟨1, now⟩)
    else if limitPerMinute ≤ window.count then (false, windows)
    else (true, platform.windows.modify windows partnerName
      fun window => { window with count := window.count + 1 })

/-- `DEFAULT_MAX_ENTRIES` -/
def defaultMaxEntries : ℕ := 10000

/-! ### Signing -/

/-- The name of the domain of attestations. -/
def domainName : Felt := shortStringToFelt "Screening"

/-- The version of the domain. -/
def domainVersion : Felt := 2

/-- The revision of the domain. -/
def domainRevision : Felt := 1

/-- The message hash that the contract will verify. -/
def computeScreeningMessageHash (chainId depositor issuedAt signerPublicKey : Felt) : Felt :=
  let domainHash := sn.poseidonHashSpan
    [0x1ff2f602e42168014d405a94f75e8a93d640751d71d16311266e140d8b0a210, domainName, domainVersion,
      chainId, domainRevision]
  let messageStructHash := sn.poseidonHashSpan
    [0x32d43b7372c9ea8a35daf12b02c5f6f74837910ecbaf2a3ecfe71fec901913d, depositor, issuedAt]
  sn.poseidonHashSpan
    [shortStringToFelt "StarkNet Message", domainHash, signerPublicKey, messageStructHash]

/-- Sign a screening attestation, unless the library throws. -/
def signScreening (privateKey : String) (chainId depositor issuedAt : ℕ) :
    Option ScreeningSignature := do
  let signerPublicKey ← platform.getStarkKey privateKey
  let messageHash := computeScreeningMessageHash sn (Fin.ofNat feltPrime chainId)
    (Fin.ofNat feltPrime depositor) (Fin.ofNat feltPrime issuedAt) signerPublicKey
  let signature ← platform.sign messageHash privateKey
  return ⟨issuedAt, Hex.writeText signature.1.val, Hex.writeText signature.2.val⟩

/-! ### The handler -/

/-- What a request is answered with: a verdict, or an error that is none. -/
inductive Reply
  | error (status : ℕ) (message : String)
  | blocked (source : String)
  | allowed (source : String) (signature : ScreeningSignature)
  deriving DecidableEq, Repr

/-- The variables of the handler. -/
structure ProxyState where
  rateLimiter : Option platform.windows.Cache
  blockedCache : Option platform.blocked.Cache
  currentCacheTtlMs : ℕ

/-- A request that waits for the upstream. -/
structure Forwarded where
  config : Config
  address : String
  addressFelt : ℕ

/-- Where the synchronous part of the handler ends. -/
inductive Outcome
  | reply (reply : Reply)
  | forward (forwarded : Forwarded)

/-- An answer of the upstream. -/
structure ForwardResponse (fl : Floats) where
  status : ℕ
  /-- The body as JSON, absent when it is none. -/
  body : Option (EllipticResponse fl)

variable {platform} in
/-- The caches before the first request. -/
def ProxyState.start : ProxyState platform := ⟨none, none, 0⟩

/-- The bound of contract addresses. -/
def addressUpperBound : ℕ := 2 ^ 251

/-- The address of a request in lower case, with its number. -/
def requestAddress (address : Option String) : Except String (String × ℕ) := do
  let address ← expect address "missing address"
  require (address ≠ "") "missing address"
  require (isHexFelt address = true) "invalid address format"
  let address := address.toLower
  let addressFelt := (Hex.readText address).getD 0
  require (addressFelt < addressUpperBound) "invalid address"
  return (address, addressFelt)

/-- Allow an address: every allowed verdict is signed over a fresh timestamp. -/
def sendAllowed (config : Config) (addressFelt now : ℕ) (source : String) : Reply :=
  let chainIdFelt := (Hex.readText config.chainId).getD 0
  match signScreening sn platform config.signingPrivateKey chainIdFelt addressFelt (now / 1000) with
  | some signature => .allowed source signature
  | none => .error 503 "signing failed"

/-- The name of the upstream in verdicts. -/
def upstreamSource (config : Config) : String :=
  if isMockEllipticUrl config.ellipticUrl then "mock" else "elliptic"

variable {platform} in
/-- The caches, made when they are first needed and when their lifetime changes. -/
def ProxyState.prepared (config : Config) (state : ProxyState platform) : ProxyState platform :=
  let newCacheTtlMs := config.blockedCacheTtlSeconds * 1000
  { rateLimiter := some (state.rateLimiter.getD (platform.windows.empty maxPartners windowMs))
    blockedCache :=
      if state.blockedCache.isNone ∨ newCacheTtlMs ≠ state.currentCacheTtlMs then
        some (platform.blocked.empty defaultMaxEntries newCacheTtlMs)
      else state.blockedCache
    currentCacheTtlMs := newCacheTtlMs }

/-- The operator's lists and the cache decide, or the address goes to the upstream. The
allow list wins over the deny list, and both over the cache. -/
def consultLists (config : Config) (address : String) (addressFelt now : ℕ)
    (state : ProxyState platform) : Outcome :=
  -- The override comes first, so that it also wins over the blocklist.
  if feltListIncludes config.blockOverrideAddresses addressFelt then
    .reply (sendAllowed sn platform config addressFelt now "allowlist")
  else if feltListIncludes config.additionalBlockedAddresses addressFelt then
    .reply (.blocked "blocklist")
  else if state.blockedCache.any fun cache => platform.blocked.has cache now address then
    .reply (.blocked "cache")
  else .forward ⟨config, address, addressFelt⟩

/-- The handler up to the call of the upstream. -/
def receive (config : Option Config) (req : Request) (now : ℕ) (state : ProxyState platform) :
    Outcome × ProxyState platform :=
  match config with
  | none => (.reply (.error 503 "service unavailable"), state)
  | some config =>
    if config.maxBodyBytes < (req.rawBody.getD "").utf8ByteSize then
      (.reply (.error 413 "payload too large"), state)
    else
      let state := state.prepared config
      match authenticateRequest platform now req config with
      | .error _ => (.reply (.error 401 "unauthorized"), state)
      | .ok partnerName =>
        let windows := state.rateLimiter.getD (platform.windows.empty maxPartners windowMs)
        let checked := RateLimiter.check platform windows partnerName config.rateLimitPerMinute now
        let state := { state with rateLimiter := some checked.2 }
        if checked.1 = false then (.reply (.error 429 "too many requests"), state)
        else
          match requestAddress req.address with
          | .error message => (.reply (.error 400 message), state)
          | .ok (address, addressFelt) =>
            (consultLists sn platform config address addressFelt now state, state)

variable {fl : Floats}

/-- The handler after the call of the upstream, which has failed when there is no answer. -/
def answer (forwarded : Forwarded) (result : Option (ForwardResponse fl)) (now : ℕ)
    (state : ProxyState platform) : Reply × ProxyState platform :=
  let allowed := sendAllowed sn platform forwarded.config forwarded.addressFelt now
    (upstreamSource forwarded.config)
  match result with
  | none => (.error 504 "upstream unreachable", state)
  | some response =>
    -- The subject was not found on the blockchain: there is no exposure to score.
    if response.status = 404 then (allowed, state)
    else if response.status < 200 ∨ 300 ≤ response.status then (.error 502 "upstream error", state)
    else
      let scoringResult := scoreResponse response.body
      if scoringResult.reason = .malformedJson then (.error 502 "upstream error", state)
      else if scoringResult.blocked then
        let blockedCache := state.blockedCache.map fun cache =>
          platform.blocked.set cache now forwarded.address ()
        (.blocked (upstreamSource forwarded.config), { state with blockedCache })
      else (allowed, state)

end Proxy

end PrivacyPool.EllipticProxy
