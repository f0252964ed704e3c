import Mathlib.Algebra.Order.BigOperators.Group.List
import Mathlib.Algebra.Order.Group.Nat
import PrivacyPool.EllipticProxy.RateLimit
import PrivacyPool.System.Assumptions

/-!
# What the screening proxy lets through

Whatever requests arrive at the proxy and however the upstream answers, the limiter lets at
most two windows full of requests of a partner pass in the span of a window, and it turns
none away whose partner has not used up its limit.

## Main results

* `requests_limited` — what passes the limiter, in every run
-/

namespace PrivacyPool

open EllipticProxy

section Runs

variable {sn : Starknet} {platform : ProxyPlatform} {fl : Floats} {partners : Finset String}
  {limit : ℕ} {labels : List (EllipticProxy.Label fl)} {proxy : Proxy platform}

/-- What the limiter keeps to over a run. -/
structure KeepsLimits (platform : ProxyPlatform) (limit : ℕ)
    (labels : List (EllipticProxy.Label fl)) : Prop where
  /-- In the span of a window at most two windows full of requests of a partner pass. -/
  passed : ∀ partner start, ((admissions platform partner labels).countP fun time =>
    start ≤ time ∧ time < start + windowMs) ≤ 2 * max 1 limit
  refused : ∀ past label rest, labels = past ++ label :: rest → label.RefusedAtLimit platform past

/-- What the window of a partner has admitted. -/
theorem countP_of_limited {windows : platform.windows.Cache} {partner : String} {now : ℕ}
    {times : List ℕ} (h : Limited windows limit partner now times) (start : ℕ) :
    (times.countP fun time => start ≤ time ∧ time < start + windowMs) ≤ 2 * max 1 limit := by
  cases h with
  | unseen _ => exact Nat.zero_le _
  | held hwindow _ _ => exact hwindow.countP_le (by decide) start
  | past hwindow _ _ => exact hwindow.countP_le (by decide) start

/-- **The limiter over a run.** While there is room for the windows of all partners, whatever
requests arrive, with whatever configurations are loaded: in the span of a window at most two
windows full of requests of a partner pass, and a request is refused only when as many
requests of its partner as its limit have passed within such a span. -/
theorem requests_limited (hlawful : platform.windows.Lawful) (hcard : partners.card ≤ maxPartners)
    (trace : Trace (ProxyStep sn) Proxy.start labels proxy)
    (htimes : (labels.map EllipticProxy.Label.time).Pairwise (· ≤ ·))
    (hserves : ∀ label ∈ labels, label.Serves partners limit) :
    KeepsLimits platform limit labels := by
  -- After any part of the run, at any time from its last step on.
  have hinv : ∀ {past : List (EllipticProxy.Label fl)} {proxy : Proxy platform} {now : ℕ},
      Trace (ProxyStep sn) Proxy.start past proxy →
      (past.map EllipticProxy.Label.time).Pairwise (· ≤ ·) →
      (∀ label ∈ past, label.Serves partners limit) →
      (∀ time ∈ past.map EllipticProxy.Label.time, time ≤ now) →
      RateInvariant partners limit now past proxy.state := by
    intro past proxy now trace htimes hserves hnow
    exact rateInvariant_of_trace hlawful hcard trace (.start hlawful)
      (List.pairwise_cons.mpr ⟨fun _ _ => Nat.zero_le _, htimes⟩) hserves
      (List.forall_mem_cons.mpr ⟨Nat.zero_le now, hnow⟩)
  constructor
  · -- The sum of all times is not before any of them.
    intro partner start
    have hend := hinv trace htimes hserves fun time hmem => List.le_sum_of_mem hmem
    exact countP_of_limited (hend.limited partner) start
  · rintro past label rest rfl
    obtain ⟨proxy, first, second⟩ := trace.split
    rw [List.map_append, List.pairwise_append] at htimes
    obtain ⟨hbefore, -, hacross⟩ := htimes
    cases second with
    | cons hstep _ =>
      have hmiddle := hinv first hbefore
        (fun other hmem => hserves other (List.mem_append_left _ hmem))
        fun time hmem => hacross time hmem _ List.mem_cons_self
      exact (proxyStep_limited hlawful hcard hmiddle
        (hserves label (List.mem_append_right _ List.mem_cons_self)) le_rfl hstep).1

end Runs

/-! ### A sample run -/

namespace LimitSample

open EllipticProxy.Sample

/-- A configuration with one partner and one request per minute. -/
def config : Config where
  ellipticUrl := "mock:"
  ellipticTimeoutMs := 1
  rateLimitPerMinute := 1
  maxBodyBytes := 1000
  blockedCacheTtlSeconds := 60
  partners name := if name = "partner" then some ⟨"secret", "key", "secret"⟩ else none
  additionalBlockedAddresses := none
  blockOverrideAddresses := none
  signingPrivateKey := "0x3"
  chainId := "0x1"

/-- A request without an address. -/
def request : Request :=
  ⟨"POST", "/screen", some "partner", some "signature", some "1000000", some "", none⟩

/-- The first request passes the limiter, the second is refused. -/
def labels : List (EllipticProxy.Label floats) :=
  [.received (some config) request 1000000 (some (.error 400 "missing address")),
    .received (some config) request 1000001 (some (.error 429 "too many requests"))]

theorem trace : ∃ proxy, Trace (ProxyStep Starknet.sample) (Proxy.start : Proxy libraries)
    labels proxy :=
  ⟨_, .cons (.of_answered (by decide +kernel))
    (.cons (.of_answered (by decide +kernel)) (.nil _))⟩

theorem serves : ∀ label ∈ labels, label.Serves {"partner"} 1 := by
  intro label hmem loaded req now reply hlabel
  have hloaded : loaded = config := by
    rcases List.mem_pair.mp hmem with rfl | rfl
    · exact (Option.some.inj (Label.received.inj hlabel).1).symm
    · exact (Option.some.inj (Label.received.inj hlabel).1).symm
  subst hloaded
  refine ⟨le_rfl, fun name hname => ?_⟩
  by_contra hother
  exact hname (if_neg fun hsame => hother (Finset.mem_singleton.mpr hsame))

end LimitSample

/-- The sample proxy keeps to a limit of one. -/
theorem requests_limited_sample : KeepsLimits EllipticProxy.Sample.libraries 1 LimitSample.labels := by
  obtain ⟨proxy, htrace⟩ := LimitSample.trace
  have hcard : ({"partner"} : Finset String).card ≤ maxPartners := by decide
  refine requests_limited LruCache.recency_lawful hcard htrace (by decide) fun label hmem => ?_
  exact LimitSample.serves label hmem

end PrivacyPool
