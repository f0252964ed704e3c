import PrivacyPool.Base.FixedWindow
import PrivacyPool.EllipticProxy.Run

/-!
# The rate limiter in a run

The limiter counts the requests of each partner in fixed windows, which it keeps in a cache.
While there is room for all partners, no window is evicted before its end, so that what is
admitted of each partner is what a fixed window admits.

## Main definitions

* `admissions` — the times at which requests of a partner pass the limiter
* `Limited` — the cache holds the current window of a partner
* `RateInvariant` — what holds in every state of a run

## Main results

* `check_limited` — a check admits what the window of its partner admits
* `rateInvariant_of_trace` — the windows of all partners are held in every run
-/

namespace PrivacyPool.EllipticProxy

open Fallible

variable {sn : Starknet} {platform : ProxyPlatform} {fl : Floats}

/-! ### Checks -/

section Checks

/-- The cache holds the current window of the partner, unless that is past its end. -/
inductive Limited (windows : platform.windows.Cache) (limit : ℕ) (partner : String) (now : ℕ) :
    List ℕ → Prop
  | unseen : platform.windows.held windows partner = none → Limited windows limit partner now []
  | held {times : List ℕ} {start count : ℕ} : FixedWindow windowMs limit times start count →
      start ≤ now → platform.windows.held windows partner = some (⟨count, start⟩, start) →
      Limited windows limit partner now times
  | past {times : List ℕ} {start count : ℕ} : FixedWindow windowMs limit times start count →
      start + windowMs < now → platform.windows.held windows partner = none →
      Limited windows limit partner now times

variable {windows windows' : platform.windows.Cache} {limit limitPerMinute now now' : ℕ}
  {partner partnerName : String} {times : List ℕ} {partners : Finset String}

/-- A cache of windows with room for the partners. -/
structure Roomy (partners : Finset String) (windows : platform.windows.Cache) : Prop where
  capacity : platform.windows.capacity windows = maxPartners
  ttl : platform.windows.ttl windows = windowMs
  known : ∀ key, platform.windows.held windows key ≠ none → key ∈ partners

/-- Time passes, and the cache changes at most at a window that is past its end. -/
theorem Limited.later (httl : platform.windows.ttl windows = windowMs)
    (h : Limited windows limit partner now times) (hnow : now ≤ now')
    (hheld : platform.windows.held windows' partner = platform.windows.held windows partner ∨
      platform.windows.held windows' partner = none ∧
        platform.windows.served windows now' partner = none) :
    Limited windows' limit partner now' times := by
  cases h with
  | unseen hnone => exact .unseen (hheld.elim (fun hsame => hsame.trans hnone) And.left)
  | past hwindow hend hnone =>
    exact .past hwindow (hend.trans_le hnow) (hheld.elim (fun hsame => hsame.trans hnone) And.left)
  | held hwindow hstart hsome =>
    rcases hheld with hsame | ⟨hnone, hserved⟩
    · exact .held hwindow (hstart.trans hnow) (hsame.trans hsome)
    · -- An entry that is dropped is past its time to live.
      refine .past hwindow ?_ hnone
      by_contra hfresh
      have hserves := LruCache.served_eq_some.mpr
        ⟨_, hsome, (not_lt.mp hfresh).trans_eq (congrArg _ httl.symm)⟩
      rw [hserved] at hserves
      cases hserves

/-- A new window admits a request when there is none or the last one is past its end. -/
theorem Limited.open (h : Limited windows limit partner now times) (hnow : now ≤ now')
    (hover : ∀ count start, platform.windows.held windows partner = some (⟨count, start⟩, start) →
      start + windowMs ≤ now')
    (hset : platform.windows.held windows' partner = some (⟨1, now'⟩, now')) :
    Limited windows' limit partner now' (now' :: times) := by
  cases h with
  | unseen _ => exact .held (.first now') le_rfl hset
  | held hwindow _ hsome => exact .held (.opened hwindow (hover _ _ hsome)) le_rfl hset
  | past hwindow hend _ => exact .held (.opened hwindow (by omega)) le_rfl hset

/-- How a check ends: it opens a window, refuses, or counts in the current one. -/
inductive Checked (windows : platform.windows.Cache) (partnerName : String)
    (limitPerMinute now : ℕ) : Bool → platform.windows.Cache → Prop
  | opened : (∀ window, platform.windows.served windows now partnerName = some window →
        windowMs ≤ now - window.windowStart) →
      Checked windows partnerName limitPerMinute now true
        (platform.windows.set (platform.windows.get windows now partnerName).2 now partnerName
          ⟨1, now⟩)
  | refused {window : Window} :
      platform.windows.served windows now partnerName = some window →
      now - window.windowStart < windowMs → limitPerMinute ≤ window.count →
      Checked windows partnerName limitPerMinute now false
        (platform.windows.get windows now partnerName).2
  | counted {window : Window} :
      platform.windows.served windows now partnerName = some window →
      now - window.windowStart < windowMs → window.count < limitPerMinute →
      Checked windows partnerName limitPerMinute now true
        (platform.windows.modify (platform.windows.get windows now partnerName).2 partnerName
          fun window => { window with count := window.count + 1 })

theorem check_cases (hlawful : platform.windows.Lawful) {allowed : Bool}
    (h : RateLimiter.check platform windows partnerName limitPerMinute now = (allowed, windows')) :
    Checked windows partnerName limitPerMinute now allowed windows' := by
  have hvalue := hlawful.get_value windows now partnerName
  unfold RateLimiter.check at h
  cases hget : platform.windows.get windows now partnerName with
  | mk found looked =>
    have hlooked : (platform.windows.get windows now partnerName).2 = looked :=
      congrArg Prod.snd hget
    rw [hget] at h hvalue
    cases found with
    | none =>
      obtain ⟨rfl, rfl⟩ := Prod.mk.inj h
      rw [← hlooked]
      refine .opened fun window hserved => ?_
      rw [hserved] at hvalue
      cases hvalue
    | some window =>
      dsimp only at h
      split_ifs at h with hover hfull
      · -- The window that is served has reached its end at this very moment.
        obtain ⟨rfl, rfl⟩ := Prod.mk.inj h
        rw [← hlooked]
        refine .opened fun served hserved => ?_
        obtain rfl := Option.some.inj (hvalue.trans hserved)
        exact hover
      · obtain ⟨rfl, rfl⟩ := Prod.mk.inj h
        rw [← hlooked]
        exact .refused hvalue.symm (not_le.mp hover) hfull
      · obtain ⟨rfl, rfl⟩ := Prod.mk.inj h
        rw [← hlooked]
        exact .counted hvalue.symm (not_le.mp hover) (not_le.mp hfull)

/-- A look keeps the cache roomy. -/
theorem Roomy.get (hlawful : platform.windows.Lawful) (h : Roomy partners windows) :
    Roomy partners (platform.windows.get windows now partnerName).2 where
  capacity := (hlawful.get_capacity _ _ _).trans h.capacity
  ttl := (hlawful.get_ttl _ _ _).trans h.ttl
  known key hheld := by
    obtain ⟨entry, hentry⟩ := Option.ne_none_iff_exists'.mp hheld
    exact h.known key (by simp [hlawful.held_of_get hentry])

/-- A window that is served to a partner is held, and started in the past. -/
theorem Limited.served (httl : platform.windows.ttl windows = windowMs) {window : Window}
    (h : Limited windows limit partner now times)
    (hserved : platform.windows.served windows now' partner = some window) :
    FixedWindow windowMs limit times window.windowStart window.count ∧ window.windowStart ≤ now ∧
      platform.windows.held windows partner = some (window, window.windowStart) ∧
      now' ≤ window.windowStart + windowMs := by
  obtain ⟨time, hheld, hfresh⟩ := LruCache.served_eq_some.mp hserved
  rw [httl] at hfresh
  cases h with
  | unseen hnone | past _ _ hnone =>
    rw [hnone] at hheld
    cases hheld
  | held hwindow hstart hsome =>
    obtain ⟨rfl, rfl⟩ := Prod.mk.inj (Option.some.inj (hsome.symm.trans hheld))
    exact ⟨hwindow, hstart, hheld, hfresh⟩

/-- A look changes the windows of all partners at most where they are past their end. -/
theorem Limited.get (hlawful : platform.windows.Lawful)
    (httl : platform.windows.ttl windows = windowMs)
    (h : Limited windows limit partner now times) (hnow : now ≤ now') :
    Limited (platform.windows.get windows now' partnerName).2 limit partner now' times :=
  h.later httl hnow (hlawful.get_held windows now' partnerName partner)

/-- A roomy cache holds the window of another partner beside all that it holds. -/
theorem Roomy.set_kept (hlawful : platform.windows.Lawful) (h : Roomy partners windows)
    (hcard : partners.card ≤ maxPartners) (hpartner : partnerName ∈ partners) {window : Window} :
    ∀ key ≠ partnerName, platform.windows.held (platform.windows.set windows now partnerName window)
      key = platform.windows.held windows key :=
  hlawful.set_kept _ now partnerName window partners hpartner (hcard.trans_eq h.capacity.symm) h.known

theorem Roomy.set (hlawful : platform.windows.Lawful) (h : Roomy partners windows)
    (hcard : partners.card ≤ maxPartners) (hpartner : partnerName ∈ partners) {window : Window} :
    Roomy partners (platform.windows.set windows now partnerName window) where
  capacity := (hlawful.set_capacity _ _ _ _).trans h.capacity
  ttl := (hlawful.set_ttl _ _ _ _).trans h.ttl
  known key hheld := by
    by_cases hkey : key = partnerName
    · exact hkey ▸ hpartner
    · rw [h.set_kept hlawful hcard hpartner key hkey] at hheld
      exact h.known key hheld

theorem Roomy.modify (hlawful : platform.windows.Lawful) (h : Roomy partners windows)
    (hpartner : partnerName ∈ partners) {change : Window → Window} :
    Roomy partners (platform.windows.modify windows partnerName change) where
  capacity := (hlawful.modify_capacity _ _ _).trans h.capacity
  ttl := (hlawful.modify_ttl _ _ _).trans h.ttl
  known key hheld := by
    rw [hlawful.modify_held] at hheld
    split_ifs at hheld with hkey
    · exact hkey ▸ hpartner
    · exact h.known key hheld

/-- A window is opened for the request when none is served, or one at its end. -/
theorem Limited.check_opened (hlawful : platform.windows.Lawful) (hroomy : Roomy partners windows)
    (h : Limited windows limit partnerName now times) (hnow : now ≤ now')
    (hover : ∀ window, platform.windows.served windows now' partnerName = some window →
      windowMs ≤ now' - window.windowStart) :
    Limited (platform.windows.set (platform.windows.get windows now' partnerName).2 now' partnerName
      ⟨1, now'⟩) limit partnerName now' (now' :: times) := by
  have hroom :
      0 < platform.windows.capacity (platform.windows.get windows now' partnerName).2 := by
    rw [(hroomy.get hlawful).capacity]
    decide
  refine h.open hnow (fun count start hsome => ?_) (hlawful.set_self _ now' partnerName _ hroom)
  -- What is held is served, unless it is past its end.
  by_contra hfresh
  have hserved : platform.windows.served windows now' partnerName = some ⟨count, start⟩ :=
    LruCache.served_eq_some.mpr ⟨start, hsome, by rw [hroomy.ttl]; omega⟩
  have hspan : windowMs ≤ now' - start := hover _ hserved
  have : 0 < windowMs := by decide
  omega

/-- A window that is served and not full counts the request. -/
theorem Limited.check_counted (hlawful : platform.windows.Lawful) (hroomy : Roomy partners windows)
    (h : Limited windows limit partnerName now times) (hnow : now ≤ now') {window : Window}
    (hserved : platform.windows.served windows now' partnerName = some window)
    (hspan : now' - window.windowStart < windowMs) (hroom : window.count < limit) :
    Limited (platform.windows.modify (platform.windows.get windows now' partnerName).2 partnerName
      fun window => { window with count := window.count + 1 }) limit partnerName now'
        (now' :: times) := by
  obtain ⟨hwindow, hstart, hheld, -⟩ := h.served hroomy.ttl hserved
  -- The window was served, so the look has not dropped it.
  have hlook : platform.windows.held (platform.windows.get windows now' partnerName).2
      partnerName = some (window, window.windowStart) := by
    rcases hlawful.get_held windows now' partnerName partnerName with hsame | ⟨-, hnone⟩
    · exact hsame.trans hheld
    · rw [hserved] at hnone
      cases hnone
  refine .held (.counted hwindow (hstart.trans hnow) (by omega) hroom) (hstart.trans hnow) ?_
  rw [hlawful.modify_held, if_pos rfl, hlook]
  rfl

/-- What a check leaves: the cache is roomy, the window of the partner has admitted the request
if that passes, the windows of the others are as before, and a request is refused only when
its limit was reached within the span of a window. -/
theorem check_limited (hlawful : platform.windows.Lawful) (hroomy : Roomy partners windows)
    (hcard : partners.card ≤ maxPartners) (hpartner : partnerName ∈ partners)
    {timesOf : String → List ℕ} (hlimited : ∀ partner, Limited windows limit partner now
      (timesOf partner)) (hnow : now ≤ now') (hlimit : limitPerMinute ≤ limit) {allowed : Bool}
    (h : RateLimiter.check platform windows partnerName limitPerMinute now' = (allowed, windows')) :
    Roomy partners windows' ∧
      (∀ partner, Limited windows' limit partner now'
        (if allowed = true ∧ partnerName = partner then now' :: timesOf partner
          else timesOf partner)) ∧
      (allowed = false →
        limitPerMinute ≤ (timesOf partnerName).countP fun time => now' < time + windowMs) := by
  have hlooked : Roomy partners (platform.windows.get windows now' partnerName).2 :=
    hroomy.get hlawful
  have hothers : ∀ partner, Limited (platform.windows.get windows now' partnerName).2 limit partner
      now' (timesOf partner) := fun partner => (hlimited partner).get hlawful hroomy.ttl hnow
  cases check_cases hlawful h with
  | opened hover =>
    refine ⟨hlooked.set hlawful hcard hpartner, fun partner => ?_, nofun⟩
    by_cases hname : partnerName = partner
    · subst hname
      rw [if_pos ⟨rfl, rfl⟩]
      exact (hlimited partnerName).check_opened hlawful hroomy hnow hover
    · rw [if_neg fun hsame => hname hsame.2]
      -- There is room for the windows of all partners, so that none is evicted.
      exact (hothers partner).later hlooked.ttl le_rfl
        (Or.inl (hlooked.set_kept hlawful hcard hpartner partner (Ne.symm hname)))
  | refused hserved hspan hfull =>
    obtain ⟨hwindow, -, -, -⟩ := (hlimited partnerName).served hroomy.ttl hserved
    refine ⟨hlooked, fun partner => ?_, fun _ => ?_⟩
    · rw [if_neg (by simp)]
      exact hothers partner
    · -- The window is full of requests that passed since its start.
      refine (hfull.trans_eq (hwindow.countP_start (by decide)).symm).trans ?_
      refine List.countP_mono_left fun time _ hin => ?_
      simp only [decide_eq_true_eq] at hin ⊢
      omega
  | counted hserved hspan hfull =>
    refine ⟨hlooked.modify hlawful hpartner, fun partner => ?_, nofun⟩
    by_cases hname : partnerName = partner
    · subst hname
      rw [if_pos ⟨rfl, rfl⟩]
      exact (hlimited partnerName).check_counted hlawful hroomy hnow hserved hspan
        (hfull.trans_le hlimit)
    · rw [if_neg fun hsame => hname hsame.2]
      refine (hothers partner).later hlooked.ttl le_rfl (Or.inl ?_)
      rw [hlawful.modify_held, if_neg (Ne.symm hname)]

end Checks

/-! ### Requests -/

/-- The reply of a request that the handler turns away before or at the limiter. -/
def Reply.turnsAway : Reply → Bool
  | .error 413 _ | .error 429 _ => true
  | _ => false

/-- The time at which a request of a partner passes the limiter, if it does. -/
def Label.admitted (platform : ProxyPlatform) (partner : String) : Label fl → List ℕ
  | .received (some config) req now reply =>
    match authenticateRequest platform now req config with
    | .ok partnerName =>
      if reply.any Reply.turnsAway = false ∧ partnerName = partner then [now] else []
    | .error _ => []
  | _ => []

/-- The times at which requests of a partner pass the limiter, the last one first. -/
def admissions (platform : ProxyPlatform) (partner : String) (labels : List (Label fl)) : List ℕ :=
  labels.reverse.flatMap (Label.admitted platform partner)

/-- The time of a step. -/
def Label.time : Label fl → ℕ
  | .received _ _ now _ => now
  | .answered _ _ now _ => now

/-- The windows of the limiter. -/
def ProxyState.limiter (state : ProxyState platform) : platform.windows.Cache :=
  state.rateLimiter.getD (platform.windows.empty maxPartners windowMs)

variable (sn platform) in
theorem turnsAway_sendAllowed (config : Config) (addressFelt now : ℕ) (source : String) :
    (sendAllowed sn platform config addressFelt now source).turnsAway = false := by
  unfold sendAllowed
  cases hsigned : signScreening sn platform config.signingPrivateKey
      ((Hex.readText config.chainId).getD 0) addressFelt (now / 1000) with
  | none => simp only [hsigned, Reply.turnsAway]
  | some signature => simp only [hsigned, Reply.turnsAway]

variable (sn) in
/-- The lists and the cache turn no request away. -/
theorem turnsAway_consultLists (config : Config) (address : String) (addressFelt now : ℕ)
    (state : ProxyState platform) :
    (consultLists sn platform config address addressFelt now state).answered.any Reply.turnsAway =
      false := by
  unfold consultLists
  split_ifs
  · exact turnsAway_sendAllowed sn platform config addressFelt now "allowlist"
  · rfl
  · rfl
  · rfl

/-- A request does not reach the limiter. -/
structure Unreached (platform : ProxyPlatform) (state state' : ProxyState platform)
    (label : Label fl) : Prop where
  limiter : state'.limiter = state.limiter
  admitted : ∀ partner, label.admitted platform partner = []
  reply : ∀ message, label.reply ≠ some (.error 429 message)

/-- A request of a partner is checked by the limiter. -/
structure Reached (platform : ProxyPlatform) (state state' : ProxyState platform)
    (config : Config) (req : Request) (now : ℕ) (partnerName : String) (allowed : Bool)
    (label : Label fl) : Prop where
  authenticated : authenticateRequest platform now req config = .ok partnerName
  checked : RateLimiter.check platform state.limiter partnerName config.rateLimitPerMinute now =
    (allowed, state'.limiter)
  admitted : ∀ partner, label.admitted platform partner =
    if allowed = true ∧ partnerName = partner then [now] else []
  reply : allowed = true → ∀ message, label.reply ≠ some (.error 429 message)

variable (fl) in
/-- A request does not reach the limiter, or is checked there. -/
theorem receive_limiter {config : Option Config} {req : Request} {now : ℕ}
    {state state' : ProxyState platform} {outcome : Outcome}
    (h : receive sn platform config req now state = (outcome, state')) :
    Unreached platform state state'
        (.received config req now outcome.answered : Label fl) ∨
    ∃ loaded partnerName allowed, config = some loaded ∧
      Reached platform state state' loaded req now partnerName allowed
        (.received config req now outcome.answered : Label fl) := by
  unfold receive at h
  cases config with
  -- Without a configuration the request is turned away before all checks.
  | none =>
    obtain ⟨rfl, rfl⟩ := Prod.mk.inj h
    exact Or.inl ⟨rfl, fun _ => rfl, fun _ => by simp [Label.reply, Outcome.answered]⟩
  | some loaded =>
    dsimp only at h
    split_ifs at h with hbody
    · obtain ⟨rfl, rfl⟩ := Prod.mk.inj h
      -- The body is refused before the partner is known, whoever it would be.
      refine Or.inl ⟨rfl, fun partner => ?_, fun _ => by simp [Label.reply, Outcome.answered]⟩
      cases hauth : authenticateRequest platform now req loaded with
      | error reason => simp only [Label.admitted, hauth]
      | ok partnerName =>
        simp only [Label.admitted, hauth]
        exact if_neg fun hpass => Bool.noConfusion hpass.1
    cases hauth : authenticateRequest platform now req loaded with
    | error reason =>
      rw [hauth] at h
      obtain ⟨rfl, rfl⟩ := Prod.mk.inj h
      exact Or.inl ⟨rfl, fun partner => by simp only [Label.admitted, hauth],
        fun _ => by simp [Label.reply, Outcome.answered]⟩
    | ok partnerName =>
      rw [hauth] at h
      dsimp only at h
      split_ifs at h with hlimited
      · obtain ⟨rfl, rfl⟩ := Prod.mk.inj h
        refine Or.inr ⟨loaded, partnerName, false, rfl, hauth, Prod.ext hlimited rfl,
          fun partner => ?_, nofun⟩
        simp only [Label.admitted, hauth]
        exact if_neg fun hpass => Bool.noConfusion hpass.1
      · -- What the handler answers from here on turns no request away.
        have hpasses : outcome.answered.any Reply.turnsAway = false ∧
            ProxyState.limiter state' = (RateLimiter.check platform state.limiter partnerName
              loaded.rateLimitPerMinute now).2 := by
          cases haddress : requestAddress req.address with
          | error message =>
            rw [haddress] at h
            obtain ⟨rfl, rfl⟩ := Prod.mk.inj h
            exact ⟨rfl, rfl⟩
          | ok found =>
            rw [haddress] at h
            obtain ⟨rfl, rfl⟩ := Prod.mk.inj h
            exact ⟨turnsAway_consultLists sn loaded found.1 found.2 now _, rfl⟩
        refine Or.inr ⟨loaded, partnerName, true, rfl, hauth,
          Prod.ext (Bool.eq_true_of_not_eq_false hlimited) hpasses.2.symm, fun partner => ?_,
          fun _ message hreply => ?_⟩
        · simp only [Label.admitted, hauth, hpasses.1, true_and]
        · have hturned := hpasses.1
          rw [show outcome.answered = some (.error 429 message) from hreply] at hturned
          cases hturned

/-! ### Runs -/

/-- The configuration of a step names only these partners, with a limit up to a bound. -/
def Label.Serves (partners : Finset String) (limit : ℕ) (label : Label fl) : Prop :=
  ∀ loaded req now reply, label = .received (some loaded) req now reply →
    loaded.rateLimitPerMinute ≤ limit ∧ ∀ name, loaded.partners name ≠ none → name ∈ partners

/-- A request is refused only when its limit was reached within the span of a window. -/
def Label.RefusedAtLimit (platform : ProxyPlatform) (past : List (Label fl)) (label : Label fl) :
    Prop :=
  ∀ config req now message, label = .received config req now (some (.error 429 message)) →
    ∃ loaded partnerName, config = some loaded ∧
      authenticateRequest platform now req loaded = .ok partnerName ∧
      loaded.rateLimitPerMinute ≤
        (admissions platform partnerName past).countP fun time => now < time + windowMs

/-- What holds in every state of a run: the limiter holds the current window of every partner. -/
structure RateInvariant (partners : Finset String) (limit now : ℕ) (past : List (Label fl))
    (state : ProxyState platform) : Prop where
  roomy : Roomy partners state.limiter
  limited : ∀ partner, Limited state.limiter limit partner now (admissions platform partner past)

theorem authenticateRequest_partner {now : ℕ} {req : Request} {config : Config}
    {partnerName : String} (h : authenticateRequest platform now req config = .ok partnerName) :
    config.partners partnerName ≠ none := by
  simp only [authenticateRequest, bind_eq_ok, expect_eq_ok, require_eq_ok, pure_eq_ok,
    exists_const] at h
  obtain ⟨-, -, -, -, partner, hpartner, -, -, rfl⟩ := h
  simp [hpartner]

theorem admissions_append (partner : String) (past : List (Label fl)) (label : Label fl) :
    admissions platform partner (past ++ [label]) =
      label.admitted platform partner ++ admissions platform partner past := by
  simp [admissions]

section Invariant

variable {partners : Finset String} {limit now now' : ℕ} {past : List (Label fl)}
  {label : Label fl} {state state' : ProxyState platform} {proxy proxy' : Proxy platform}

/-- A step that the limiter does not see. -/
theorem RateInvariant.unseen (h : RateInvariant partners limit now past state) (hnow : now ≤ now')
    (hlimiter : state'.limiter = state.limiter)
    (hadmitted : ∀ partner, label.admitted platform partner = []) :
    RateInvariant partners limit now' (past ++ [label]) state' where
  roomy := hlimiter ▸ h.roomy
  limited partner := by
    rw [admissions_append, hadmitted partner, List.nil_append]
    exact (h.limited partner).later h.roomy.ttl hnow (Or.inl (by rw [hlimiter]))

theorem RateInvariant.mono (h : RateInvariant partners limit now past state) (hnow : now ≤ now') :
    RateInvariant partners limit now' past state where
  roomy := h.roomy
  limited partner := (h.limited partner).later h.roomy.ttl hnow (Or.inl rfl)

/-- A request that is received, whether it is answered at once or goes to the upstream. -/
theorem received_limited (hlawful : platform.windows.Lawful) (hcard : partners.card ≤ maxPartners)
    {config : Option Config} {req : Request} {outcome : Outcome}
    (hinv : RateInvariant partners limit now past state)
    (hserves : (Label.received config req now' outcome.answered : Label fl).Serves partners limit)
    (hnow : now ≤ now') (h : receive sn platform config req now' state = (outcome, state')) :
    (Label.received config req now' outcome.answered : Label fl).RefusedAtLimit platform past ∧
      RateInvariant partners limit now' (past ++ [.received config req now' outcome.answered])
        state' := by
  rcases receive_limiter fl h with hunreached | ⟨loaded, partnerName, allowed, rfl, hreached⟩
  · refine ⟨fun _ _ _ message hlabel => ?_, hinv.unseen hnow hunreached.limiter
      hunreached.admitted⟩
    exact absurd (congrArg Label.reply hlabel) (hunreached.reply message)
  · obtain ⟨hlimit, hknown⟩ := hserves _ _ _ _ rfl
    obtain ⟨hroomy, hlimited, hrefused⟩ := check_limited hlawful hinv.roomy hcard
      (hknown _ (authenticateRequest_partner hreached.authenticated)) hinv.limited hnow hlimit
      hreached.checked
    refine ⟨fun _ _ _ message hlabel => ?_, hroomy, fun partner => ?_⟩
    · obtain ⟨rfl, rfl, rfl, -⟩ := Label.received.inj hlabel
      refine ⟨loaded, partnerName, rfl, hreached.authenticated, hrefused ?_⟩
      by_contra hallowed
      exact hreached.reply (Bool.eq_true_of_not_eq_false hallowed) message
        (congrArg Label.reply hlabel)
    · rw [admissions_append, hreached.admitted partner]
      have hpartner := hlimited partner
      split_ifs at hpartner ⊢
      · exact hpartner
      · exact hpartner

/-- One step: it refuses only at the limit, and the invariant stays. -/
theorem proxyStep_limited (hlawful : platform.windows.Lawful) (hcard : partners.card ≤ maxPartners)
    (hinv : RateInvariant partners limit now past proxy.state)
    (hserves : label.Serves partners limit) (hnow : now ≤ label.time)
    (h : ProxyStep sn label proxy proxy') :
    label.RefusedAtLimit platform past ∧
      RateInvariant partners limit label.time (past ++ [label]) proxy'.state := by
  cases h with
  | replied hreceive => exact received_limited hlawful hcard hinv hserves hnow hreceive
  | forwarded hreceive => exact received_limited hlawful hcard hinv hserves hnow hreceive
  | answered hanswer =>
    refine ⟨fun _ _ _ _ hlabel => (by cases hlabel), hinv.unseen hnow ?_ fun _ => rfl⟩
    rcases answer_cases hanswer with ⟨_, -, -, -, rfl⟩ | ⟨rfl, -⟩
    · rfl
    · rfl

theorem RateInvariant.start (hlawful : platform.windows.Lawful) :
    RateInvariant partners limit now ([] : List (Label fl))
      (ProxyState.start : ProxyState platform) where
  roomy := ⟨hlawful.capacity_empty _ _, hlawful.ttl_empty _ _,
    fun key hheld => absurd (hlawful.held_empty _ _ key) hheld⟩
  limited partner := .unseen (hlawful.held_empty _ _ partner)

/-- The invariant holds after every run in which time does not run backwards. -/
theorem rateInvariant_of_trace (hlawful : platform.windows.Lawful)
    (hcard : partners.card ≤ maxPartners) {labels : List (Label fl)}
    (trace : Trace (ProxyStep sn) proxy labels proxy')
    (hinv : RateInvariant partners limit now past proxy.state)
    (htimes : (now :: labels.map Label.time).Pairwise (· ≤ ·))
    (hserves : ∀ label ∈ labels, label.Serves partners limit)
    (hnow : ∀ time ∈ now :: labels.map Label.time, time ≤ now') :
    RateInvariant partners limit now' (past ++ labels) proxy'.state := by
  induction trace generalizing past now with
  | nil _ =>
    rw [List.append_nil]
    exact hinv.mono (hnow _ List.mem_cons_self)
  | @cons label labels _ _ _ hstep _ ih =>
    obtain ⟨hfirst, hrest⟩ := List.pairwise_cons.mp htimes
    have hnext := ih
      (proxyStep_limited hlawful hcard hinv (hserves label List.mem_cons_self)
        (hfirst _ List.mem_cons_self) hstep).2
      hrest (fun other hmem => hserves other (List.mem_cons_of_mem _ hmem))
      (fun time hmem => hnow time (List.mem_cons_of_mem _ hmem))
    rwa [List.append_assoc, List.singleton_append] at hnext

end Invariant

end PrivacyPool.EllipticProxy
