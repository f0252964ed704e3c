import PrivacyPool.Base.Trace
import PrivacyPool.EllipticProxy.Handler

/-!
# Runs of the screening proxy

Requests arrive at any time and in any order, each with the configuration that is loaded
at that moment; those that wait for the upstream are answered in any order. Between two
steps of one request the caches may be replaced by another.

## Main definitions

* `ProxyStep` — one step of the handler, for one of the requests
* `Cleared` — what is known about an address that goes to the upstream
* `CacheSound` — where the entries of the cache of blocked addresses come from

## Main results

* `receive_cases` — how the synchronous part of the handler ends
* `proxy_invariant` — what holds in every state of a run
-/

namespace PrivacyPool.EllipticProxy

open Fallible
open ProofInterceptor (ScreeningSignature)

variable {sn : Starknet} {platform : ProxyPlatform} {fl : Floats}

/-! ### Steps -/

/-- A step and what it answers. A request that goes to the upstream has no answer yet. -/
inductive Label (fl : Floats)
  | received (config : Option Config) (req : Request) (now : ℕ) (reply : Option Reply)
  | answered (forwarded : Forwarded) (result : Option (ForwardResponse fl)) (now : ℕ)
    (reply : Reply)

/-- The handler with the requests that wait for the upstream. -/
structure Proxy (platform : ProxyPlatform) where
  state : ProxyState platform
  pending : List Forwarded

/-- The proxy when it starts: no window is open and nothing is cached. -/
def Proxy.start : Proxy platform := ⟨.start, []⟩

variable (sn) in
/-- One step of the proxy. -/
inductive ProxyStep : Label fl → Proxy platform → Proxy platform → Prop
  | replied {config : Option Config} {req : Request} {now : ℕ} {reply : Reply}
      {state state' : ProxyState platform} {pending : List Forwarded} :
      receive sn platform config req now state = (.reply reply, state') →
      ProxyStep (.received config req now (some reply)) ⟨state, pending⟩ ⟨state', pending⟩
  | forwarded {config : Option Config} {req : Request} {now : ℕ} {forwarded : Forwarded}
      {state state' : ProxyState platform} {pending : List Forwarded} :
      receive sn platform config req now state = (.forward forwarded, state') →
      ProxyStep (.received config req now none) ⟨state, pending⟩ ⟨state', forwarded :: pending⟩
  | answered {forwarded : Forwarded} {result : Option (ForwardResponse fl)} {now : ℕ}
      {reply : Reply} {state state' : ProxyState platform} {earlier later : List Forwarded} :
      answer sn platform forwarded result now state = (reply, state') →
      ProxyStep (.answered forwarded result now reply) ⟨state, earlier ++ forwarded :: later⟩
        ⟨state', earlier ++ later⟩

/-! ### Addresses -/

/-- Lowering a hexadecimal text does not change the number. -/
theorem readText_toLower {value : String} (h : hexFeltFormat value = true) :
    ∃ n, Hex.readText value = some n ∧ Hex.readText value.toLower = some n := by
  unfold hexFeltFormat at h
  split at h
  · next digits htext =>
    simp only [Bool.and_eq_true, decide_eq_true_eq, List.all_eq_true] at h
    obtain ⟨⟨hne, -⟩, hdigits⟩ := h
    obtain ⟨n, hread, hlower⟩ := Hex.readNumeral_toLower hdigits
    have hlowerText : value.toLower.toList = '0' :: 'x' :: digits.map Char.toLower := by
      have hlower := congrArg (List.map Char.toLower) htext
      exact String.toList_map.trans hlower
    exact ⟨n, Hex.readText_of_hex (.inl htext) hne hread,
      Hex.readText_of_hex (.inl hlowerText) (mt List.map_eq_nil_iff.mp hne) hlower⟩
  · cases h

/-- An address that is read is a contract address, and its text stands for it. -/
theorem requestAddress_eq_ok {text : Option String} {address : String} {addressFelt : ℕ}
    (h : requestAddress text = .ok (address, addressFelt)) :
    Hex.readText address = some addressFelt ∧ addressFelt < addressUpperBound ∧
      ∃ value, text = some value ∧ address = value.toLower ∧
        Hex.readText value = some addressFelt := by
  simp only [requestAddress, bind_eq_ok, expect_eq_ok, require_eq_ok, pure_eq_ok,
    exists_const, Prod.mk.injEq] at h
  obtain ⟨value, rfl, -, hfelt, hbound, rfl, rfl⟩ := h
  rw [isHexFelt, Bool.and_eq_true] at hfelt
  obtain ⟨n, hread, hlower⟩ := readText_toLower hfelt.1
  rw [hlower] at hbound ⊢
  exact ⟨rfl, hbound, value, rfl, rfl, hread⟩

/-! ### What the upstream says -/

/-- The upstream flags an address: a complete response of which an evaluation fires. -/
def Flags (response : ForwardResponse fl) : Prop :=
  200 ≤ response.status ∧ response.status < 300 ∧ ∃ body ∈ response.body,
    body.processStatus = "complete" ∧
      ∃ evaluation ∈ body.source ++ body.destination, evaluation.fires = true

/-- The upstream clears an address: it does not know it, or no evaluation fires. -/
def Clears (response : ForwardResponse fl) : Prop :=
  response.status = 404 ∨ 200 ≤ response.status ∧ response.status < 300 ∧ ∃ body ∈ response.body,
    ¬(body.processStatus = "complete" ∧
      ∃ evaluation ∈ body.source ++ body.destination, evaluation.fires = true)

/-- A response is malformed exactly when its body is no JSON. -/
theorem scoreResponse_malformed_iff {body : Option (EllipticResponse fl)} :
    (scoreResponse body).reason = .malformedJson ↔ body = none := by
  cases body with
  | none => exact iff_of_true rfl rfl
  | some response =>
    refine iff_of_false ?_ (by simp)
    simp only [scoreResponse]
    split_ifs <;> simp

/-! ### How the parts of the handler end -/

variable (platform) in
/-- A partner asks for an address, which is a contract address, by a text. -/
structure Asked (req : Request) (config : Config) (now : ℕ) (address : String)
    (addressFelt : ℕ) : Prop where
  authenticated : ∃ partnerName, authenticateRequest platform now req config = .ok partnerName
  requested : requestAddress req.address = .ok (address, addressFelt)

/-- How a request is answered at once: with an error, or from the lists and the cache of the
state that the handler has prepared. -/
structure Consulted (sn : Starknet) (config : Option Config) (req : Request) (now : ℕ)
    (state : ProxyState platform) (outcome : Outcome) (state' : ProxyState platform)
    (loaded : Config) (address : String) (addressFelt : ℕ) : Prop where
  config : config = some loaded
  asked : Asked platform req loaded now address addressFelt
  cache : state'.blockedCache = (state.prepared loaded).blockedCache
  ttl : state'.currentCacheTtlMs = loaded.blockedCacheTtlSeconds * 1000
  outcome : outcome = consultLists sn platform loaded address addressFelt now state'

/-- The caches after a request: as they were, or as the handler has prepared them. -/
def Kept (state state' : ProxyState platform) : Prop :=
  (state'.blockedCache = state.blockedCache ∧
    state'.currentCacheTtlMs = state.currentCacheTtlMs) ∨
  ∃ loaded, state'.blockedCache = (state.prepared loaded).blockedCache ∧
    state'.currentCacheTtlMs = (state.prepared loaded).currentCacheTtlMs

/-- The synchronous part ends with an error, or the lists and the cache decide. -/
theorem receive_cases {config : Option Config} {req : Request} {now : ℕ}
    {state state' : ProxyState platform} {outcome : Outcome}
    (h : receive sn platform config req now state = (outcome, state')) :
    (Kept state state' ∧ ∃ status message, outcome = .reply (.error status message)) ∨
      ∃ loaded address addressFelt,
        Consulted sn config req now state outcome state' loaded address addressFelt := by
  unfold receive at h
  cases config with
  | none =>
    obtain ⟨rfl, rfl⟩ := Prod.mk.inj h
    exact Or.inl ⟨Or.inl ⟨rfl, rfl⟩, _, _, rfl⟩
  | some loaded =>
    dsimp only at h
    split_ifs at h with hbody
    · obtain ⟨rfl, rfl⟩ := Prod.mk.inj h
      exact Or.inl ⟨Or.inl ⟨rfl, rfl⟩, _, _, rfl⟩
    -- From here on the caches are those that were prepared.
    cases hauth : authenticateRequest platform now req loaded with
    | error reason =>
      rw [hauth] at h
      obtain ⟨rfl, rfl⟩ := Prod.mk.inj h
      exact Or.inl ⟨Or.inr ⟨loaded, rfl, rfl⟩, _, _, rfl⟩
    | ok partnerName =>
      rw [hauth] at h
      dsimp only at h
      split_ifs at h with hlimited
      · obtain ⟨rfl, rfl⟩ := Prod.mk.inj h
        exact Or.inl ⟨Or.inr ⟨loaded, rfl, rfl⟩, _, _, rfl⟩
      cases haddress : requestAddress req.address with
      | error message =>
        rw [haddress] at h
        obtain ⟨rfl, rfl⟩ := Prod.mk.inj h
        exact Or.inl ⟨Or.inr ⟨loaded, rfl, rfl⟩, _, _, rfl⟩
      | ok found =>
        rw [haddress] at h
        obtain ⟨rfl, rfl⟩ := Prod.mk.inj h
        exact Or.inr ⟨loaded, found.1, found.2, rfl,
          ⟨⟨partnerName, hauth⟩, haddress⟩, rfl, rfl, rfl⟩

variable (sn platform) in
/-- An allowed verdict is signed, else the answer is an error. -/
theorem sendAllowed_cases (config : Config) (addressFelt now : ℕ) (source : String) :
    (∃ signature, signScreening sn platform config.signingPrivateKey
        ((Hex.readText config.chainId).getD 0) addressFelt (now / 1000) = some signature ∧
      sendAllowed sn platform config addressFelt now source = .allowed source signature) ∨
    ∃ status message, sendAllowed sn platform config addressFelt now source =
      .error status message := by
  unfold sendAllowed
  cases hsigned : signScreening sn platform config.signingPrivateKey
      ((Hex.readText config.chainId).getD 0) addressFelt (now / 1000) with
  | none => exact Or.inr ⟨503, "signing failed", by simp only [hsigned]⟩
  | some signature => exact Or.inl ⟨signature, rfl, by simp only [hsigned]⟩

/-- The upstream flags the address, which is cached; or it clears it; or there is no verdict. -/
theorem answer_cases {forwarded : Forwarded} {result : Option (ForwardResponse fl)} {now : ℕ}
    {state state' : ProxyState platform} {reply : Reply}
    (h : answer sn platform forwarded result now state = (reply, state')) :
    (∃ response ∈ result, Flags response ∧ reply = .blocked (upstreamSource forwarded.config) ∧
      state' = { state with blockedCache := state.blockedCache.map fun cache =>
        platform.blocked.set cache now forwarded.address () }) ∨
    state' = state ∧ ((∃ response ∈ result, Clears response ∧
        reply = sendAllowed sn platform forwarded.config forwarded.addressFelt now
          (upstreamSource forwarded.config)) ∨
      ∃ status message, reply = .error status message) := by
  unfold answer at h
  cases result with
  | none =>
    obtain ⟨rfl, rfl⟩ := Prod.mk.inj h
    exact Or.inr ⟨rfl, Or.inr ⟨_, _, rfl⟩⟩
  | some response =>
    dsimp only at h
    -- In the order of the handler: unknown to the upstream, a bad status, no verdict, flagged,
    -- cleared.
    split_ifs at h with hmissing hstatus hmalformed hblocked
    · obtain ⟨rfl, rfl⟩ := Prod.mk.inj h
      exact Or.inr ⟨rfl, Or.inl ⟨response, rfl, Or.inl hmissing, rfl⟩⟩
    · obtain ⟨rfl, rfl⟩ := Prod.mk.inj h
      exact Or.inr ⟨rfl, Or.inr ⟨_, _, rfl⟩⟩
    · obtain ⟨rfl, rfl⟩ := Prod.mk.inj h
      exact Or.inr ⟨rfl, Or.inr ⟨_, _, rfl⟩⟩
    · obtain ⟨rfl, rfl⟩ := Prod.mk.inj h
      rw [scoreResponse_malformed_iff] at hmalformed
      obtain ⟨body, hbody⟩ := Option.ne_none_iff_exists'.mp hmalformed
      obtain ⟨hlow, hhigh⟩ := not_or.mp hstatus
      refine Or.inl ⟨response, rfl, ⟨not_lt.mp hlow, not_le.mp hhigh, body, hbody, ?_⟩, rfl, rfl⟩
      exact scoreResponse_blocked_iff.mp hblocked body hbody
    · obtain ⟨rfl, rfl⟩ := Prod.mk.inj h
      rw [scoreResponse_malformed_iff] at hmalformed
      obtain ⟨body, hbody⟩ := Option.ne_none_iff_exists'.mp hmalformed
      obtain ⟨hlow, hhigh⟩ := not_or.mp hstatus
      refine Or.inr ⟨rfl, Or.inl ⟨response, rfl, Or.inr ⟨not_lt.mp hlow, not_le.mp hhigh, body,
        hbody, fun hfires => hblocked (scoreResponse_blocked_iff.mpr ?_)⟩, rfl⟩⟩
      intro other hother
      obtain rfl := Option.some.inj (hbody.symm.trans hother)
      exact hfires

/-! ### Justified verdicts -/

/-- The upstream has flagged the address of a text at a time. -/
def FlaggedAt (past : List (Label fl)) (address : String) (time : ℕ) : Prop :=
  ∃ forwarded response, .answered forwarded (some response) time
      (.blocked (upstreamSource forwarded.config)) ∈ past ∧
    forwarded.address = address ∧ Hex.readText address = some forwarded.addressFelt ∧
    Flags response

/-- Neither list of the operator names an address. -/
def Unlisted (config : Config) (addressFelt : ℕ) : Prop :=
  feltListIncludes config.blockOverrideAddresses addressFelt = false ∧
    feltListIncludes config.additionalBlockedAddresses addressFelt = false

variable (sn platform) in
/-- The attestation that a configuration gives for an address at a time. -/
def Attests (config : Config) (addressFelt now : ℕ) (signature : ScreeningSignature) : Prop :=
  signScreening sn platform config.signingPrivateKey ((Hex.readText config.chainId).getD 0)
    addressFelt (now / 1000) = some signature

variable (sn platform) in
/-- Why an address is answered as it is: an allow entry of the operator wins over a deny entry,
that over a flag of the upstream in the time that the cache keeps it, and that over what the
upstream has said to this very request. -/
inductive Justified (past : List (Label fl)) (upstream : Option (ForwardResponse fl))
    (config : Config) (addressFelt now : ℕ) : Reply → Prop
  | error (status : ℕ) (message : String) :
      Justified past upstream config addressFelt now (.error status message)
  | allowListed {signature : ScreeningSignature} :
      feltListIncludes config.blockOverrideAddresses addressFelt = true →
      Attests sn platform config addressFelt now signature →
      Justified past upstream config addressFelt now (.allowed "allowlist" signature)
  | denyListed :
      feltListIncludes config.blockOverrideAddresses addressFelt = false →
      feltListIncludes config.additionalBlockedAddresses addressFelt = true →
      Justified past upstream config addressFelt now (.blocked "blocklist")
  | cached {address : String} {time : ℕ} : Unlisted config addressFelt →
      FlaggedAt past address time → Hex.readText address = some addressFelt →
      now ≤ time + config.blockedCacheTtlSeconds * 1000 →
      Justified past upstream config addressFelt now (.blocked "cache")
  | flagged {response : ForwardResponse fl} : Unlisted config addressFelt →
      upstream = some response → Flags response →
      Justified past upstream config addressFelt now (.blocked (upstreamSource config))
  | cleared {response : ForwardResponse fl} {signature : ScreeningSignature} :
      Unlisted config addressFelt → upstream = some response → Clears response →
      Attests sn platform config addressFelt now signature →
      Justified past upstream config addressFelt now (.allowed (upstreamSource config) signature)

variable (platform) in
/-- An address that waits for the upstream: it was asked for, and no list of the operator
names it. -/
structure Cleared (past : List (Label fl)) (forwarded : Forwarded) : Prop where
  asked : ∃ req now, .received (some forwarded.config) req now none ∈ past ∧
    Asked platform req forwarded.config now forwarded.address forwarded.addressFelt
  unlisted : Unlisted forwarded.config forwarded.addressFelt

variable (platform) in
/-- What a step answers for which address: at once, or after the upstream was called. -/
inductive Gives (past : List (Label fl)) : Label fl → Config → ℕ → ℕ → Reply → Prop
  | received {config : Config} {req : Request} {now addressFelt : ℕ} {address : String}
      {reply : Reply} : Asked platform req config now address addressFelt →
      Gives past (.received (some config) req now (some reply)) config addressFelt now reply
  | answered {forwarded : Forwarded} {req : Request} {asked now : ℕ}
      {result : Option (ForwardResponse fl)} {reply : Reply} :
      .received (some forwarded.config) req asked none ∈ past →
      Asked platform req forwarded.config asked forwarded.address forwarded.addressFelt →
      Gives past (.answered forwarded result now reply) forwarded.config forwarded.addressFelt now
        reply

/-- Every entry of the cache is a flag of the upstream from the time at which it was set. -/
structure CacheSound (past : List (Label fl)) (state : ProxyState platform) : Prop where
  capacity : ∀ cache, state.blockedCache = some cache →
    platform.blocked.capacity cache = defaultMaxEntries
  ttl : ∀ cache, state.blockedCache = some cache →
    platform.blocked.ttl cache = state.currentCacheTtlMs
  held : ∀ cache, state.blockedCache = some cache → ∀ address entry,
    platform.blocked.held cache address = some entry → FlaggedAt past address entry.2

theorem FlaggedAt.mono {past past' : List (Label fl)} {address : String} {time : ℕ}
    (h : FlaggedAt past address time) (hsub : past ⊆ past') : FlaggedAt past' address time := by
  obtain ⟨forwarded, response, hmem, hrest⟩ := h
  exact ⟨forwarded, response, hsub hmem, hrest⟩

theorem CacheSound.mono {past past' : List (Label fl)} {state state' : ProxyState platform}
    (h : CacheSound past state) (hsub : past ⊆ past')
    (hcache : state'.blockedCache = state.blockedCache)
    (httl : state'.currentCacheTtlMs = state.currentCacheTtlMs) : CacheSound past' state' where
  capacity cache hsome := h.capacity cache (hcache ▸ hsome)
  ttl cache hsome := httl ▸ h.ttl cache (hcache ▸ hsome)
  held cache hsome address entry hheld :=
    (h.held cache (hcache ▸ hsome) address entry hheld).mono hsub

/-- A cache that is made anew holds nothing. -/
theorem CacheSound.prepared (hlawful : platform.blocked.Lawful) {past : List (Label fl)}
    {state : ProxyState platform} (h : CacheSound past state) (loaded : Config) :
    CacheSound past (state.prepared loaded) := by
  by_cases hnew : state.blockedCache.isNone ∨
      loaded.blockedCacheTtlSeconds * 1000 ≠ state.currentCacheTtlMs
  · have hcache : (state.prepared loaded).blockedCache = some (platform.blocked.empty
        defaultMaxEntries (loaded.blockedCacheTtlSeconds * 1000)) := if_pos hnew
    constructor
    · intro cache hsome
      obtain rfl := Option.some.inj (hcache.symm.trans hsome)
      exact hlawful.capacity_empty _ _
    · intro cache hsome
      obtain rfl := Option.some.inj (hcache.symm.trans hsome)
      exact hlawful.ttl_empty _ _
    · intro cache hsome address entry hheld
      obtain rfl := Option.some.inj (hcache.symm.trans hsome)
      rw [hlawful.held_empty] at hheld
      cases hheld
  · refine h.mono (List.Subset.refl _) (if_neg hnew) ?_
    exact not_not.mp (not_or.mp hnew).2

theorem Kept.cacheSound (hlawful : platform.blocked.Lawful) {past : List (Label fl)}
    {state state' : ProxyState platform} (hkept : Kept state state') (h : CacheSound past state) :
    CacheSound past state' := by
  rcases hkept with ⟨hcache, httl⟩ | ⟨loaded, hcache, httl⟩
  · exact h.mono (List.Subset.refl _) hcache httl
  · exact (h.prepared hlawful loaded).mono (List.Subset.refl _) hcache httl

/-- What holds in every state of a run: the cache is sound and every request that waits is
cleared. -/
structure ProxyInvariant (past : List (Label fl)) (proxy : Proxy platform) : Prop where
  cache : CacheSound past proxy.state
  pending : ∀ forwarded ∈ proxy.pending, Cleared platform past forwarded

theorem Cleared.mono {past past' : List (Label fl)} {forwarded : Forwarded}
    (h : Cleared platform past forwarded) (hsub : past ⊆ past') :
    Cleared platform past' forwarded := by
  obtain ⟨req, now, hmem, hasked⟩ := h.asked
  exact ⟨⟨req, now, hsub hmem, hasked⟩, h.unlisted⟩

variable (sn) in
/-- The lists and the cache justify what they answer, and an address that they do not decide
is unlisted. -/
theorem consultLists_justified (hlawful : platform.blocked.Lawful) {past : List (Label fl)}
    {config : Config} {address : String} {addressFelt now : ℕ} {state : ProxyState platform}
    (hcache : CacheSound past state)
    (httl : state.currentCacheTtlMs = config.blockedCacheTtlSeconds * 1000)
    (haddress : Hex.readText address = some addressFelt) :
    (∃ reply, consultLists sn platform config address addressFelt now state = .reply reply ∧
      Justified sn platform past none config addressFelt now reply) ∨
    consultLists sn platform config address addressFelt now state =
        .forward ⟨config, address, addressFelt⟩ ∧ Unlisted config addressFelt := by
  unfold consultLists
  split_ifs with hallow hdeny hhas
  · refine Or.inl ⟨_, rfl, ?_⟩
    rcases sendAllowed_cases sn platform config addressFelt now "allowlist"
      with ⟨signature, hsigned, hreply⟩ | ⟨status, message, hreply⟩
    · rw [hreply]
      exact .allowListed hallow hsigned
    · rw [hreply]
      exact .error status message
  · exact Or.inl ⟨_, rfl, .denyListed (Bool.eq_false_iff.mpr hallow) hdeny⟩
  · obtain ⟨cache, hsome, hheld⟩ := (Option.any_eq_true _ _).mp hhas
    obtain ⟨value, time, hentry, hfresh⟩ := hlawful.held_of_has hheld
    rw [hcache.ttl cache hsome, httl] at hfresh
    exact Or.inl ⟨_, rfl, .cached ⟨Bool.eq_false_iff.mpr hallow, Bool.eq_false_iff.mpr hdeny⟩
      (hcache.held cache hsome address _ hentry) haddress hfresh⟩
  · exact Or.inr ⟨rfl, Bool.eq_false_iff.mpr hallow, Bool.eq_false_iff.mpr hdeny⟩

/-- The answer of a step. -/
def Label.reply : Label fl → Option Reply
  | .received _ _ _ reply => reply
  | .answered _ _ _ reply => some reply

/-- What the upstream has said to the request that a step answers. -/
def Label.upstream : Label fl → Option (ForwardResponse fl)
  | .received _ _ _ _ => none
  | .answered _ result _ _ => result

variable (sn platform) in
/-- What a step answers is an error, or a verdict that is justified by its past and by what the
upstream has said to it. -/
def LabelJustified (past : List (Label fl)) (label : Label fl) : Prop :=
  ∀ reply, label.reply = some reply → (∃ status message, reply = .error status message) ∨
    ∃ config addressFelt now, Gives platform past label config addressFelt now reply ∧
      Justified sn platform past label.upstream config addressFelt now reply

/-- A request that is answered at once. -/
theorem received_justified (hlawful : platform.blocked.Lawful) {past : List (Label fl)}
    {config : Option Config} {req : Request} {now : ℕ} {reply : Reply}
    {state state' : ProxyState platform} (hcache : CacheSound past state)
    (h : receive sn platform config req now state = (.reply reply, state')) :
    LabelJustified sn platform past (.received config req now (some reply)) ∧
      CacheSound past state' := by
  rcases receive_cases h with ⟨hkept, status, message, herror⟩ |
    ⟨loaded, address, addressFelt, hconsulted⟩
  · refine ⟨fun reply' hreply => ?_, hkept.cacheSound hlawful hcache⟩
    obtain rfl := Option.some.inj hreply
    exact Or.inl ⟨status, message, Outcome.reply.inj herror⟩
  · obtain ⟨rfl, hasked, hblocked, httl, houtcome⟩ := hconsulted
    have hcache' : CacheSound past state' :=
      (hcache.prepared hlawful loaded).mono (List.Subset.refl _) hblocked httl
    refine ⟨fun reply' hreply => ?_, hcache'⟩
    obtain rfl := Option.some.inj hreply
    rcases consultLists_justified sn hlawful hcache' httl
      (requestAddress_eq_ok hasked.requested).1 with ⟨_, hlists, hjustified⟩ | ⟨hforward, -⟩
    · obtain rfl := Outcome.reply.inj (houtcome.trans hlists)
      exact Or.inr ⟨loaded, addressFelt, now, .received hasked, hjustified⟩
    · rw [hforward] at houtcome
      cases houtcome

/-- A request that goes to the upstream. -/
theorem forwarded_cleared (hlawful : platform.blocked.Lawful) {past : List (Label fl)}
    {config : Option Config} {req : Request} {now : ℕ} {forwarded : Forwarded}
    {state state' : ProxyState platform} (hcache : CacheSound past state)
    (h : receive sn platform config req now state = (.forward forwarded, state')) :
    Cleared platform (past ++ [.received config req now none]) forwarded ∧
      CacheSound past state' := by
  rcases receive_cases h with ⟨-, status, message, herror⟩ |
    ⟨loaded, address, addressFelt, hconsulted⟩
  · cases herror
  · obtain ⟨rfl, hasked, hblocked, httl, houtcome⟩ := hconsulted
    have hcache' : CacheSound past state' :=
      (hcache.prepared hlawful loaded).mono (List.Subset.refl _) hblocked httl
    refine ⟨?_, hcache'⟩
    rcases consultLists_justified sn hlawful hcache' httl
      (requestAddress_eq_ok hasked.requested).1 with ⟨reply, hlists, -⟩ | ⟨hforward, hunlisted⟩
    · rw [hlists] at houtcome
      cases houtcome
    · obtain rfl := Outcome.forward.inj (houtcome.trans hforward)
      exact ⟨⟨req, now, List.mem_append_right _ (List.mem_singleton_self _), hasked⟩, hunlisted⟩

/-- A request that is answered after the upstream was called. -/
theorem answered_justified (hlawful : platform.blocked.Lawful) {past : List (Label fl)}
    {forwarded : Forwarded} {result : Option (ForwardResponse fl)} {now : ℕ} {reply : Reply}
    {state state' : ProxyState platform} (hcache : CacheSound past state)
    (hcleared : Cleared platform past forwarded)
    (h : answer sn platform forwarded result now state = (reply, state')) :
    LabelJustified sn platform past (.answered forwarded result now reply) ∧
      CacheSound (past ++ [.answered forwarded result now reply]) state' := by
  obtain ⟨req, asked, hmem, hasked⟩ := hcleared.asked
  have hgives : Gives platform past (.answered forwarded result now reply) forwarded.config
      forwarded.addressFelt now reply := .answered hmem hasked
  have hread := (requestAddress_eq_ok hasked.requested).1
  have hsub : past ⊆ past ++ [.answered forwarded result now reply] := List.subset_append_left _ _
  -- The upstream has flagged the address, cleared it, or failed.
  rcases answer_cases h with ⟨response, hresponse, hflags, rfl, rfl⟩ |
    ⟨rfl, ⟨response, hresponse, hclears, rfl⟩ | ⟨status, message, rfl⟩⟩
  · obtain rfl := Option.mem_def.mp hresponse
    refine ⟨fun reply' hreply => ?_, ?_, ?_, ?_⟩
    · obtain rfl := Option.some.inj hreply
      exact Or.inr ⟨_, _, _, hgives, .flagged hcleared.unlisted rfl hflags⟩
    -- The new entry is this flag; the others are older.
    · intro cache hsome
      obtain ⟨old, hold, rfl⟩ := Option.map_eq_some_iff.mp hsome
      rw [hlawful.set_capacity]
      exact hcache.capacity old hold
    · intro cache hsome
      obtain ⟨old, hold, rfl⟩ := Option.map_eq_some_iff.mp hsome
      rw [hlawful.set_ttl]
      exact hcache.ttl old hold
    · intro cache hsome address entry hheld
      obtain ⟨old, hold, rfl⟩ := Option.map_eq_some_iff.mp hsome
      have hroom : 0 < platform.blocked.capacity old := by
        rw [hcache.capacity old hold]
        decide
      rcases hlawful.held_of_set hroom hheld with ⟨rfl, rfl⟩ | hbefore
      · exact ⟨forwarded, response, List.mem_append_right _ (List.mem_singleton_self _), rfl,
          hread, hflags⟩
      · exact (hcache.held old hold address entry hbefore).mono hsub
  · refine ⟨fun reply' hreply => ?_, hcache.mono hsub rfl rfl⟩
    obtain rfl := Option.some.inj hreply
    rcases sendAllowed_cases sn platform forwarded.config
      forwarded.addressFelt now (upstreamSource forwarded.config)
      with ⟨signature, hsigned, hsent⟩ | ⟨status, message, hsent⟩
    · refine Or.inr ⟨_, _, _, hgives, ?_⟩
      rw [hsent]
      exact .cleared hcleared.unlisted hresponse hclears hsigned
    · exact Or.inl ⟨status, message, hsent⟩
  · refine ⟨fun reply' hreply => ?_, hcache.mono hsub rfl rfl⟩
    obtain rfl := Option.some.inj hreply
    exact Or.inl ⟨status, message, rfl⟩

/-- One step: its answer is justified by the past, and the invariant stays. -/
theorem proxyStep_justified (hlawful : platform.blocked.Lawful) {past : List (Label fl)}
    {proxy proxy' : Proxy platform} {label : Label fl} (hinv : ProxyInvariant past proxy)
    (h : ProxyStep sn label proxy proxy') :
    LabelJustified sn platform past label ∧ ProxyInvariant (past ++ [label]) proxy' := by
  have hsub : past ⊆ past ++ [label] := List.subset_append_left _ _
  cases h with
  | replied hreceive =>
    obtain ⟨hjustified, hcache⟩ := received_justified hlawful hinv.cache hreceive
    exact ⟨hjustified, hcache.mono hsub rfl rfl, fun f hf => (hinv.pending f hf).mono hsub⟩
  | forwarded hreceive =>
    obtain ⟨hcleared, hcache⟩ := forwarded_cleared hlawful hinv.cache hreceive
    refine ⟨fun reply hreply => (nomatch hreply), hcache.mono hsub rfl rfl, fun f hf => ?_⟩
    rcases List.mem_cons.mp hf with rfl | hf
    · exact hcleared
    · exact (hinv.pending f hf).mono hsub
  | answered hanswer =>
    obtain ⟨hjustified, hcache⟩ := answered_justified hlawful hinv.cache
      (hinv.pending _ (List.mem_append_right _ List.mem_cons_self)) hanswer
    refine ⟨hjustified, hcache, fun f hf => (hinv.pending f ?_).mono hsub⟩
    rcases List.mem_append.mp hf with hf | hf
    · exact List.mem_append_left _ hf
    · exact List.mem_append_right _ (List.mem_cons_of_mem _ hf)

theorem ProxyInvariant.start :
    ProxyInvariant ([] : List (Label fl)) (Proxy.start : Proxy platform) where
  cache := by constructor <;> intro cache hsome <;> cases hsome
  pending _ h := absurd h List.not_mem_nil

/-- The invariant holds after every run. -/
theorem proxy_invariant (hlawful : platform.blocked.Lawful) {past labels : List (Label fl)}
    {proxy proxy' : Proxy platform} (trace : Trace (ProxyStep sn) proxy labels proxy')
    (hinv : ProxyInvariant past proxy) : ProxyInvariant (past ++ labels) proxy' := by
  induction trace generalizing past with
  | nil _ => rwa [List.append_nil]
  | cons hstep _ ih =>
    have hnext := ih (proxyStep_justified hlawful hinv hstep).2
    rwa [List.append_assoc, List.singleton_append] at hnext

/-! ### Requests that are answered at once -/

/-- What the handler has answered before it waits. -/
def Outcome.answered : Outcome → Option Reply
  | .reply given => some given
  | .forward _ => none

/-- A request that is answered at once is one step. -/
theorem ProxyStep.of_answered {config : Config} {request : Request} {now : ℕ} {reply : Reply}
    {state : ProxyState platform}
    (h : (receive sn platform (some config) request now state).1.answered = some reply) :
    ProxyStep sn (.received (some config) request now (some reply) : Label fl) ⟨state, []⟩
      ⟨(receive sn platform (some config) request now state).2, []⟩ := by
  refine .replied (Prod.ext ?_ rfl)
  cases houtcome : (receive sn platform (some config) request now state).1 with
  | reply given =>
    rw [houtcome] at h
    exact congrArg Outcome.reply (Option.some.inj h)
  | forward _ =>
    rw [houtcome] at h
    cases h

namespace Sample

/-- Libraries with which every timestamp is current, every request authenticates, and a
signature carries its key. -/
def libraries : ProxyPlatform where
  number _ := some 1000000
  hmac _ text := text
  base64 _ := []
  getStarkKey _ := some 4
  sign _ _ := some (4, 1)
  windows := LruCache.recency String Window
  blocked := LruCache.recency String Unit

/-- Numbers that are all alike. -/
def floats : Floats := ⟨Unit, fun _ => (), fun _ _ => (), fun _ _ => (), fun _ _ => (),
  fun _ _ => false, fun _ _ => false⟩

end Sample

end PrivacyPool.EllipticProxy
