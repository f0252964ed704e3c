import PrivacyPool.Base.History
import PrivacyPool.Base.Lru
import PrivacyPool.Interceptor.PoolTransaction

/-!
# The policy client

The client that reads open-note screening policies from the pool. It keeps what it reads
for a while, and callers that ask for one address while it is being read share the read.
Callers ask, reads are answered and settle, and callers resume in any order, and the pool
changes its policies meanwhile.

## Main definitions

* `readPolicy` — what a reply of the node says
* `PolicyClient.getPolicy`, `PolicyClient.settle`, `PolicyClient.resume` — the parts of a
  call between which others run
* `policySystem` — the client beside a pool

## Main results

* `policyRun_invariant` — what the client holds was shown by the pool since the read of it
  began, and each caller is answered once or still waits
-/

namespace PrivacyPool.Interceptor

open Hex

/-! ### Reading a policy -/

/-- The variants of the policy in the order of the ABI. -/
def policyVariants : List OpenNoteScreeningPolicy := [.required, .exempt, .delegated]

/-- The index of a variant, which the pool answers with. -/
def policyIndex : OpenNoteScreeningPolicy → ℕ
  | .required => 0
  | .exempt => 1
  | .delegated => 2

@[simp] theorem policyVariants_policyIndex (policy : OpenNoteScreeningPolicy) :
    policyVariants[policyIndex policy]? = some policy := by
  cases policy <;> rfl

/-- `decodeParameters` of starknet.js at the type of the policy, with the active variant. -/
abbrev PolicyDecoder := List String → Option OpenNoteScreeningPolicy

/-- The coder reads the index of a variant, and rejects one that the ABI does not have. -/
def PolicyDecoder.Reads (decoder : PolicyDecoder) : Prop :=
  ∀ text n, Spells text n → decoder [text] = policyVariants[n]?

/-- The policy that one felt stands for. -/
def parsePolicy (decoder : PolicyDecoder) (felts : List String) :
    Option OpenNoteScreeningPolicy :=
  match felts with
  | [_] => decoder felts
  | _ => none

/-- What the node answers to a call of the pool's view. -/
inductive CallReply
  | felts (answer : List String)
  | entrypointNotFound
  | failed

/-- A pool without the entry point predates the policies. -/
def readPolicy (decoder : PolicyDecoder) : CallReply → Option OpenNoteScreeningPolicy
  | .felts answer => parsePolicy decoder answer
  | .entrypointNotFound => some .exempt
  | .failed => none

/-- The policies of a pool, absent where it predates them. -/
abbrev PolicyView := Option (ContractAddress → OpenNoteScreeningPolicy)

/-- The policy of a contract in a view. A pool without the view exempts all. -/
def PolicyView.policy (view : PolicyView) (contract : ContractAddress) : OpenNoteScreeningPolicy :=
  view.elim .exempt fun policies => policies contract

/-- The answers of a node that executes the view at a pool. Any call may fail. -/
inductive NodeAnswers (address : String) : PolicyView → CallReply → Prop
  | felts {policies : ContractAddress → OpenNoteScreeningPolicy} {contract : ContractAddress}
      {text : String} : Spells address contract.val →
      Spells text (policyIndex (policies contract)) →
      NodeAnswers address (some policies) (.felts [text])
  | entrypointNotFound : NodeAnswers address none .entrypointNotFound
  | failed {view : PolicyView} : NodeAnswers address view .failed

/-- What is read from an answer is the pool's policy. -/
theorem NodeAnswers.readPolicy {decoder : PolicyDecoder} (hreads : decoder.Reads)
    {address : String} {view : PolicyView} {reply : CallReply}
    (h : NodeAnswers address view reply) {policy : OpenNoteScreeningPolicy}
    (hpolicy : readPolicy decoder reply = some policy) {contract : ContractAddress}
    (hspells : Spells address contract.val) : view.policy contract = policy := by
  cases h with
  | felts haddress htext =>
    -- The address that was called is the one that is asked for.
    obtain rfl := Fin.ext (haddress.unique hspells)
    have hread := (hreads _ _ htext).symm.trans hpolicy
    rw [policyVariants_policyIndex] at hread
    exact Option.some.inj hread
  | entrypointNotFound => exact Option.some.inj hpolicy
  | failed => cases hpolicy

/-! ### The client -/

/-- A read in flight: when it began, who waits for it, and the reply that is on its way. -/
structure PendingRead where
  started : ℕ
  callers : List ℕ
  reply : Option CallReply

/-- A caller whose read has settled. -/
structure Resuming where
  caller : ℕ
  address : String
  started : ℕ
  policy : Option OpenNoteScreeningPolicy

variable (lru : LruCache String OpenNoteScreeningPolicy)

/-- The state of the client. Reads in flight are keyed by their address. -/
structure PolicyClient where
  cachedPolicies : lru.Cache
  pendingReads : List (String × PendingRead)
  resuming : List Resuming

/-- The cache holds this many policies. -/
def maxCachedPolicies : ℕ := 1024

variable {lru}

namespace PolicyClient

/-- The client before its first call. -/
def start (ttlMs : ℕ) : PolicyClient lru :=
  ⟨lru.empty maxCachedPolicies ttlMs, [], []⟩

/-- The read of an address changes, the others do not. -/
def atRead (address : String) (change : PendingRead → PendingRead)
    (entry : String × PendingRead) : String × PendingRead :=
  if entry.1 = address then (entry.1, change entry.2) else entry

/-- A caller that arrives in mid-flight waits for the read that is running. -/
def readOnce (now caller : ℕ) (address : String) (pendingReads : List (String × PendingRead)) :
    List (String × PendingRead) :=
  if address ∈ pendingReads.map Prod.fst then
    pendingReads.map (atRead address fun read => { read with callers := read.callers ++ [caller] })
  else (address, ⟨now, [caller], none⟩) :: pendingReads

/-- The part of a call before it waits: the answer if it is cached. -/
def getPolicy (client : PolicyClient lru) (now caller : ℕ) (depositor : String) :
    Option OpenNoteScreeningPolicy × PolicyClient lru :=
  let address := normalizeFelt depositor
  let (cached, cachedPolicies) := lru.get client.cachedPolicies now address
  match cached with
  | some policy => (some policy, { client with cachedPolicies })
  | none => (none, { client with
      cachedPolicies, pendingReads := readOnce now caller address client.pendingReads })

/-- The reply to a read arrives. -/
def receive (client : PolicyClient lru) (address : String) (reply : CallReply) :
    PolicyClient lru :=
  { client with pendingReads :=
      client.pendingReads.map (atRead address fun read => { read with reply := some reply }) }

/-- A read settles: it is no longer in flight, and its callers go on. -/
def settle (decoder : PolicyDecoder) (client : PolicyClient lru) (address : String)
    (read : PendingRead) (reply : CallReply) : PolicyClient lru :=
  { client with
    pendingReads := client.pendingReads.filter fun entry => entry.1 ≠ address
    resuming := client.resuming ++ read.callers.map fun caller =>
      ⟨caller, address, read.started, readPolicy decoder reply⟩ }

/-- The part of a call after its read: what was read is cached, a failure is not. -/
def resume (client : PolicyClient lru) (now : ℕ) (caller : Resuming) (others : List Resuming) :
    PolicyClient lru :=
  match caller.policy with
  | some policy => { client with
      cachedPolicies := lru.set client.cachedPolicies now caller.address policy
      resuming := others }
  | none => { client with resuming := others }

/-- The callers that wait for a read, with its address. -/
def callersOf (entry : String × PendingRead) : List (ℕ × String) :=
  entry.2.callers.map fun caller => (caller, entry.1)

/-- The callers that wait for an answer, with the address that they asked for. -/
def waiting (client : PolicyClient lru) : List (ℕ × String) :=
  client.pendingReads.flatMap callersOf ++
    client.resuming.map fun caller => (caller.caller, caller.address)

end PolicyClient

/-! ### The client beside a pool -/

/-- What happens: the pool moves, time passes, or one of the calls goes on. -/
inductive PolicyEvent (L : Type)
  | pool (label : L)
  | tick
  | asked (caller : ℕ) (depositor : String) (answer : Option OpenNoteScreeningPolicy)
  | evaluated (address : String) (reply : CallReply)
  | settled (address : String)
  | resumed (caller : Resuming)

/-- A pool, a client of it, and the time. -/
structure Watched (S : Type) (lru : LruCache String OpenNoteScreeningPolicy) where
  pool : S
  now : ℕ
  client : PolicyClient lru

variable {S L : Type} (sys : System S L) (view : S → PolicyView) (decoder : PolicyDecoder)
  (ttlMs : ℕ)

/-- One step, labelled with its time. -/
inductive PolicyStep (visited : List (Watched S lru)) :
    ℕ × PolicyEvent L → Watched S lru → Watched S lru → Prop
  | pool {label : L} {pool pool' : S} {now : ℕ} {client : PolicyClient lru} :
      sys.step (visited.map Watched.pool) label pool pool' →
      PolicyStep visited (now, .pool label) ⟨pool, now, client⟩ ⟨pool', now, client⟩
  | tick {pool : S} {now now' : ℕ} {client : PolicyClient lru} : now ≤ now' →
      PolicyStep visited (now, .tick) ⟨pool, now, client⟩ ⟨pool, now', client⟩
  | asked {pool : S} {now caller : ℕ} {depositor : String} {client client' : PolicyClient lru}
      {answer : Option OpenNoteScreeningPolicy} :
      client.getPolicy now caller depositor = (answer, client') →
      PolicyStep visited (now, .asked caller depositor answer) ⟨pool, now, client⟩
        ⟨pool, now, client'⟩
  | evaluated {pool : S} {now : ℕ} {address : String} {read : PendingRead} {reply : CallReply}
      {client : PolicyClient lru} : (address, read) ∈ client.pendingReads → read.reply = none →
      NodeAnswers address (view pool) reply →
      PolicyStep visited (now, .evaluated address reply) ⟨pool, now, client⟩
        ⟨pool, now, client.receive address reply⟩
  | settled {pool : S} {now : ℕ} {address : String} {read : PendingRead} {reply : CallReply}
      {client : PolicyClient lru} : (address, read) ∈ client.pendingReads →
      read.reply = some reply →
      PolicyStep visited (now, .settled address) ⟨pool, now, client⟩
        ⟨pool, now, client.settle decoder address read reply⟩
  | resumed {pool : S} {now : ℕ} {caller : Resuming} {earlier later : List Resuming}
      {client : PolicyClient lru} : client.resuming = earlier ++ caller :: later →
      PolicyStep visited (now, .resumed caller) ⟨pool, now, client⟩
        ⟨pool, now, client.resume now caller (earlier ++ later)⟩

/-- The client beside a pool, from a client that has read nothing. -/
def policySystem (lru : LruCache String OpenNoteScreeningPolicy) :
    System (Watched S lru) (ℕ × PolicyEvent L) where
  init watched := sys.init watched.pool ∧ watched.client = .start ttlMs
  step := PolicyStep sys view decoder

/-! ### Reads in flight -/

namespace PolicyClient

variable {address : String} {pendingReads : List (String × PendingRead)}

@[simp] theorem fst_atRead (change : PendingRead → PendingRead) (entry : String × PendingRead) :
    (atRead address change entry).1 = entry.1 := by
  unfold atRead
  split_ifs <;> rfl

theorem map_fst_atRead (change : PendingRead → PendingRead) :
    (pendingReads.map (atRead address change)).map Prod.fst = pendingReads.map Prod.fst := by
  simp [Function.comp_def]

/-- An entry after a change is the changed one or was there before. -/
theorem mem_map_atRead {change : PendingRead → PendingRead} {entry : String × PendingRead}
    (h : entry ∈ pendingReads.map (atRead address change)) : entry ∈ pendingReads ∨
      ∃ read, (address, read) ∈ pendingReads ∧ entry = (address, change read) := by
  obtain ⟨⟨key, read⟩, hmem, rfl⟩ := List.mem_map.mp h
  unfold atRead
  split_ifs with hkey
  · right
    obtain rfl : key = address := hkey
    exact ⟨read, hmem, rfl⟩
  · exact Or.inl hmem

/-- A read after a call was in flight before, has one more caller, or begins now. -/
theorem mem_readOnce {now caller : ℕ} {key : String} {read : PendingRead}
    (h : (key, read) ∈ readOnce now caller address pendingReads) : (key, read) ∈ pendingReads ∨
      (∃ old, (key, old) ∈ pendingReads ∧ read = { old with callers := old.callers ++ [caller] }) ∨
      key = address ∧ read = ⟨now, [caller], none⟩ := by
  unfold readOnce at h
  split_ifs at h with hflight
  · rcases mem_map_atRead h with hold | ⟨old, hold, heq⟩
    · exact Or.inl hold
    · obtain ⟨rfl, rfl⟩ := Prod.mk.inj heq
      exact Or.inr (Or.inl ⟨old, hold, rfl⟩)
  · rcases List.mem_cons.mp h with heq | hold
    · exact Or.inr (Or.inr (Prod.mk.inj heq))
    · exact Or.inl hold

theorem nodup_readOnce {now caller : ℕ} (hnodup : (pendingReads.map Prod.fst).Nodup) :
    ((readOnce now caller address pendingReads).map Prod.fst).Nodup := by
  unfold readOnce
  split_ifs with hflight
  · rwa [map_fst_atRead]
  · exact List.nodup_cons.mpr ⟨hflight, hnodup⟩

/-- The reads of different addresses: one of them, and those of the others. -/
theorem perm_cons_filter (hnodup : (pendingReads.map Prod.fst).Nodup) {read : PendingRead}
    (hmem : (address, read) ∈ pendingReads) :
    pendingReads.Perm ((address, read) :: pendingReads.filter fun entry => entry.1 ≠ address) := by
  induction pendingReads with
  | nil => cases hmem
  | cons entry rest ih =>
    rw [List.map_cons, List.nodup_cons] at hnodup
    rcases List.mem_cons.mp hmem with rfl | hrest
    · have hothers : rest.filter (fun entry => entry.1 ≠ address) = rest := by
        refine List.filter_eq_self.mpr fun other hother => decide_eq_true fun hsame => ?_
        exact hnodup.1 (hsame ▸ List.mem_map.mpr ⟨other, hother, rfl⟩)
      rw [List.filter_cons_of_neg (by simp), hothers]
    · have hne : entry.1 ≠ address := fun hsame =>
        hnodup.1 (hsame ▸ List.mem_map_of_mem hrest)
      have hkeep : (entry :: rest).filter (fun entry => entry.1 ≠ address) =
          entry :: rest.filter fun entry => entry.1 ≠ address := by simp [hne]
      rw [hkeep]
      exact ((ih hnodup.2 hrest).cons entry).trans (.swap _ _ _)

theorem perm_callers_filter (hnodup : (pendingReads.map Prod.fst).Nodup) {read : PendingRead}
    (hmem : (address, read) ∈ pendingReads) :
    (pendingReads.flatMap callersOf).Perm (callersOf (address, read) ++
      (pendingReads.filter fun entry => entry.1 ≠ address).flatMap callersOf) :=
  (perm_cons_filter hnodup hmem).flatMap_right _

/-- The callers of the reads when one of these changes. -/
theorem perm_callers_atRead (hnodup : (pendingReads.map Prod.fst).Nodup) {read : PendingRead}
    (hmem : (address, read) ∈ pendingReads) (change : PendingRead → PendingRead) :
    ((pendingReads.map (atRead address change)).flatMap callersOf).Perm
      (callersOf (address, change read) ++
        (pendingReads.filter fun entry => entry.1 ≠ address).flatMap callersOf) := by
  have hothers : (pendingReads.filter fun entry => entry.1 ≠ address).map (atRead address change) =
      pendingReads.filter fun entry => entry.1 ≠ address := by
    refine (List.map_congr_left fun entry hentry => ?_).trans (List.map_id _)
    have hne : entry.1 ≠ address := of_decide_eq_true (List.mem_filter.mp hentry).2
    exact if_neg hne
  have hperm := ((perm_cons_filter hnodup hmem).map (atRead address change)).flatMap_right callersOf
  rw [List.map_cons, hothers] at hperm
  simpa [atRead] using hperm

variable (address) in
/-- A caller that asks waits for a read, the other callers wait as before. -/
theorem perm_callers_readOnce (hnodup : (pendingReads.map Prod.fst).Nodup) (now caller : ℕ) :
    ((readOnce now caller address pendingReads).flatMap callersOf).Perm
      ((caller, address) :: pendingReads.flatMap callersOf) := by
  unfold readOnce
  split_ifs with hflight
  · obtain ⟨⟨key, read⟩, hmem, rfl⟩ := List.mem_map.mp hflight
    have hbefore := perm_callers_filter hnodup hmem
    refine (perm_callers_atRead hnodup hmem _).trans ?_
    have hfront : (callersOf (key, { read with callers := read.callers ++ [caller] })).Perm
        ((caller, key) :: callersOf (key, read)) := by
      unfold callersOf
      rw [List.map_append]
      exact List.perm_append_singleton _ _
    exact (hfront.append_right _).trans (hbefore.symm.cons (caller, key))
  · exact List.Perm.refl _

end PolicyClient

/-! ### What the client holds -/

section Invariant

variable {S L : Type} {view : S → PolicyView} {lru : LruCache String OpenNoteScreeningPolicy}
  {visited : List (Watched S lru)} {since : ℕ} {address : String}
  {policy : OpenNoteScreeningPolicy}

variable (view) in
/-- At some moment since a time the pool had this policy for an address. -/
def ShownSince (visited : List (Watched S lru)) (since : ℕ) (address : String)
    (policy : OpenNoteScreeningPolicy) : Prop :=
  ∃ moment ∈ visited, since ≤ moment.now ∧
    ∀ contract : ContractAddress, Spells address contract.val →
      (view moment.pool).policy contract = policy

theorem ShownSince.cons (h : ShownSince view visited since address policy) (s : Watched S lru) :
    ShownSince view (s :: visited) since address policy := by
  obtain ⟨moment, hmem, hshown⟩ := h
  exact ⟨moment, List.mem_cons_of_mem _ hmem, hshown⟩

/-- A caller goes on within a window from when its read began. -/
def Prompt (window : ℕ) : ℕ × PolicyEvent L → Prop
  | (now, .resumed caller) => now ≤ caller.started + window
  | _ => True

namespace PolicyEvent

/-- The callers that ask, and for which address. -/
def asking : PolicyEvent L → List (ℕ × String)
  | .asked caller depositor _ => [(caller, normalizeFelt depositor)]
  | _ => []

/-- The callers that are answered, by a policy or by the lack of one, and for which address. -/
def answering : PolicyEvent L → List (ℕ × String)
  | .asked caller depositor (some _) => [(caller, normalizeFelt depositor)]
  | .resumed caller => [(caller.caller, caller.address)]
  | _ => []

/-- The policy that is answered, and the address that it is for. -/
def served : PolicyEvent L → Option (String × OpenNoteScreeningPolicy)
  | .asked _ depositor (some policy) => some (normalizeFelt depositor, policy)
  | .resumed ⟨_, address, _, some policy⟩ => some (address, policy)
  | _ => none

end PolicyEvent

variable (view) in
/-- What holds in every state of a run in which callers go on within a window. -/
structure PolicyInvariant (decoder : PolicyDecoder) (ttlMs window : ℕ)
    (visited : List (Watched S lru)) (labels : List (ℕ × PolicyEvent L)) (s : Watched S lru) :
    Prop where
  capacity : lru.capacity s.client.cachedPolicies = maxCachedPolicies
  ttl : lru.ttl s.client.cachedPolicies = ttlMs
  cached : ∀ address policy time,
    lru.held s.client.cachedPolicies address = some (policy, time) →
    ∃ since, time ≤ since + window ∧ ShownSince view visited since address policy
  begun : ∀ address read, (address, read) ∈ s.client.pendingReads → read.started ≤ s.now
  replied : ∀ address read reply policy, (address, read) ∈ s.client.pendingReads →
    read.reply = some reply → readPolicy decoder reply = some policy →
    ShownSince view visited read.started address policy
  settled : ∀ caller ∈ s.client.resuming, ∀ policy, caller.policy = some policy →
    ShownSince view visited caller.started caller.address policy
  single : (s.client.pendingReads.map Prod.fst).Nodup
  accounted : (labels.flatMap (fun label => label.2.answering) ++ s.client.waiting).Perm
    (labels.flatMap fun label => label.2.asking)

variable {sys : System S L} {decoder : PolicyDecoder} {ttlMs window : ℕ}
  {labels : List (ℕ × PolicyEvent L)} {s s' : Watched S lru} {label : ℕ × PolicyEvent L}

/-! What is held stays shown in a longer run. -/

section Longer

variable (h : PolicyInvariant view decoder ttlMs window visited labels s) (next : Watched S lru)

include h

theorem PolicyInvariant.cached_cons {time : ℕ}
    (hheld : lru.held s.client.cachedPolicies address = some (policy, time)) :
    ∃ since, time ≤ since + window ∧ ShownSince view (next :: visited) since address policy := by
  obtain ⟨since, htime, hshown⟩ := h.cached address policy time hheld
  exact ⟨since, htime, hshown.cons next⟩

theorem PolicyInvariant.replied_cons {read : PendingRead} {reply : CallReply}
    (hmem : (address, read) ∈ s.client.pendingReads) (hreply : read.reply = some reply)
    (hread : readPolicy decoder reply = some policy) :
    ShownSince view (next :: visited) read.started address policy :=
  (h.replied address read reply policy hmem hreply hread).cons next

theorem PolicyInvariant.settled_cons {caller : Resuming} (hmem : caller ∈ s.client.resuming)
    (hpolicy : caller.policy = some policy) :
    ShownSince view (next :: visited) caller.started caller.address policy :=
  (h.settled caller hmem policy hpolicy).cons next

end Longer

variable (view) in
/-- What is answered at a step was shown within the window and the time to live. -/
def ServesFresh (ttlMs window : ℕ) (visited : List (Watched S lru))
    (label : ℕ × PolicyEvent L) : Prop :=
  ∀ address policy, label.2.served = some (address, policy) →
    ∃ since, label.1 ≤ since + window + ttlMs ∧ ShownSince view visited since address policy

/-- A state that has the same client keeps the invariant. -/
theorem PolicyInvariant.moved (h : PolicyInvariant view decoder ttlMs window visited labels s)
    {pool : S} {now now' : ℕ} {client : PolicyClient lru} {event : PolicyEvent L}
    (hclient : s.client = client) (hnow : s.now ≤ now') (hasking : event.asking = [])
    (hanswering : event.answering = []) :
    PolicyInvariant view decoder ttlMs window (⟨pool, now', client⟩ :: visited)
      ((now, event) :: labels) ⟨pool, now', client⟩ := by
  subst hclient
  constructor
  · exact h.capacity
  · exact h.ttl
  · exact fun address policy time hheld => h.cached_cons _ hheld
  · exact fun address read hmem => (h.begun address read hmem).trans hnow
  · exact fun address read reply policy hmem hreply hread => h.replied_cons _ hmem hreply hread
  · exact fun caller hmem policy hpolicy => h.settled_cons _ hmem hpolicy
  · exact h.single
  · rw [List.flatMap_cons, List.flatMap_cons, hasking, hanswering]
    exact h.accounted

/-- A call is answered from the cache, or waits. -/
theorem asked_invariant (hlawful : lru.Lawful)
    (h : PolicyInvariant view decoder ttlMs window visited labels s) {caller : ℕ}
    {depositor : String} {client' : PolicyClient lru} {answer : Option OpenNoteScreeningPolicy}
    (hget : s.client.getPolicy s.now caller depositor = (answer, client')) :
    ServesFresh view ttlMs window visited
        (s.now, (.asked caller depositor answer : PolicyEvent L)) ∧
      PolicyInvariant view decoder ttlMs window (⟨s.pool, s.now, client'⟩ :: visited)
        ((s.now, .asked caller depositor answer) :: labels) ⟨s.pool, s.now, client'⟩ := by
  have hcapacity := (hlawful.get_capacity s.client.cachedPolicies s.now
    (normalizeFelt depositor)).trans h.capacity
  have httl := (hlawful.get_ttl s.client.cachedPolicies s.now (normalizeFelt depositor)).trans h.ttl
  have hvalue := hlawful.get_value s.client.cachedPolicies s.now (normalizeFelt depositor)
  have hcached : ∀ address policy time,
      lru.held (lru.get s.client.cachedPolicies s.now (normalizeFelt depositor)).2 address =
        some (policy, time) →
      ∃ since, time ≤ since + window ∧ ShownSince view visited since address policy :=
    fun address policy time hheld => h.cached address policy time (hlawful.held_of_get hheld)
  unfold PolicyClient.getPolicy at hget
  cases hcase : lru.get s.client.cachedPolicies s.now (normalizeFelt depositor) with
  | mk cached cachedPolicies =>
    rw [hcase] at hcapacity httl hvalue hcached
    simp only [hcase] at hget
    cases cached with
    -- The policy is served from the cache, which has seen it within the window.
    | some policy =>
      obtain ⟨rfl, rfl⟩ := Prod.mk.inj hget
      refine ⟨fun address served hserved => ?_, hcapacity, httl, ?_, h.begun, ?_, ?_, h.single, ?_⟩
      · obtain ⟨rfl, rfl⟩ := Prod.mk.inj (Option.some.inj hserved)
        obtain ⟨time, hheld, hfresh⟩ := LruCache.served_eq_some.mp hvalue.symm
        rw [h.ttl] at hfresh
        obtain ⟨since, htime, hshown⟩ := h.cached _ _ _ hheld
        exact ⟨since, by omega, hshown⟩
      · intro address policy time hheld
        obtain ⟨since, htime, hshown⟩ := hcached address policy time hheld
        exact ⟨since, htime, hshown.cons _⟩
      · exact fun address read reply policy hmem hreply hread => h.replied_cons _ hmem hreply hread
      · exact fun caller hmem policy hpolicy => h.settled_cons _ hmem hpolicy
      · exact h.accounted.cons (caller, normalizeFelt depositor)
    | none =>
      obtain ⟨rfl, rfl⟩ := Prod.mk.inj hget
      refine ⟨fun _ _ hserved => (nomatch hserved), hcapacity, httl, ?_, ?_, ?_, ?_, ?_, ?_⟩
      · intro address policy time hheld
        obtain ⟨since, htime, hshown⟩ := hcached address policy time hheld
        exact ⟨since, htime, hshown.cons _⟩
      -- A new read begins now; the caller may join one that is pending.
      · intro address read hmem
        rcases PolicyClient.mem_readOnce hmem with hold | ⟨old, hold, rfl⟩ | ⟨rfl, rfl⟩
        · exact h.begun _ _ hold
        · exact h.begun _ old hold
        · exact le_rfl
      · intro address read reply policy hmem hreply hread
        rcases PolicyClient.mem_readOnce hmem with hold | ⟨old, hold, rfl⟩ | ⟨rfl, rfl⟩
        · exact h.replied_cons _ hold hreply hread
        · exact (h.replied _ old _ _ hold hreply hread).cons _
        · cases hreply
      · exact fun caller hmem policy hpolicy => h.settled_cons _ hmem hpolicy
      · exact PolicyClient.nodup_readOnce h.single
      · have hcallers := PolicyClient.perm_callers_readOnce (normalizeFelt depositor) h.single
          s.now caller
        refine List.Perm.trans ?_ (h.accounted.cons (caller, normalizeFelt depositor))
        exact ((hcallers.append_right _).append_left _).trans List.perm_middle

/-- The node answers a read with what the pool shows now. -/
theorem evaluated_invariant (hreads : decoder.Reads) (hmoment : s ∈ visited)
    (h : PolicyInvariant view decoder ttlMs window visited labels s) {address : String}
    {reply : CallReply} (hanswers : NodeAnswers address (view s.pool) reply)
    {read : PendingRead} (hmem : (address, read) ∈ s.client.pendingReads) :
    PolicyInvariant view decoder ttlMs window
      (⟨s.pool, s.now, s.client.receive address reply⟩ :: visited)
      ((s.now, .evaluated address reply) :: labels)
      ⟨s.pool, s.now, s.client.receive address reply⟩ := by
  constructor
  · exact h.capacity
  · exact h.ttl
  · exact fun address policy time hheld => h.cached_cons _ hheld
  · intro key entry hentry
    rcases PolicyClient.mem_map_atRead hentry with hold | ⟨old, hold, heq⟩
    · exact h.begun _ _ hold
    · obtain ⟨rfl, rfl⟩ := Prod.mk.inj heq
      exact h.begun _ old hold
  · intro key entry reply' policy hentry hreply hread
    rcases PolicyClient.mem_map_atRead hentry with hold | ⟨old, hold, heq⟩
    · exact h.replied_cons _ hold hreply hread
    · -- The reply is about this moment, and the read began before it.
      obtain ⟨rfl, rfl⟩ := Prod.mk.inj heq
      obtain rfl := Option.some.inj hreply
      exact ⟨s, List.mem_cons_of_mem _ hmoment, h.begun _ old hold,
        fun contract hspells => hanswers.readPolicy hreads hread hspells⟩
  · exact fun caller hcaller policy hpolicy => h.settled_cons _ hcaller hpolicy
  · exact (PolicyClient.map_fst_atRead _).symm ▸ h.single
  · have hcallers := (PolicyClient.perm_callers_atRead h.single hmem fun read =>
      { read with reply := some reply }).trans (PolicyClient.perm_callers_filter h.single hmem).symm
    exact ((hcallers.append_right _).append_left _).trans h.accounted

/-- A read settles: what it says is what its callers go on with. -/
theorem settled_invariant (h : PolicyInvariant view decoder ttlMs window visited labels s)
    {address : String} {reply : CallReply} {read : PendingRead}
    (hmem : (address, read) ∈ s.client.pendingReads) (hreply : read.reply = some reply) :
    PolicyInvariant view decoder ttlMs window
      (⟨s.pool, s.now, s.client.settle decoder address read reply⟩ :: visited)
      ((s.now, .settled address) :: labels)
      ⟨s.pool, s.now, s.client.settle decoder address read reply⟩ := by
  constructor
  · exact h.capacity
  · exact h.ttl
  · exact fun address policy time hheld => h.cached_cons _ hheld
  · exact fun key entry hentry => h.begun key entry (List.mem_of_mem_filter hentry)
  · exact fun key entry reply policy hentry hreply hread =>
      h.replied_cons _ (List.mem_of_mem_filter hentry) hreply hread
  · intro caller hcaller policy hpolicy
    rcases List.mem_append.mp hcaller with hold | hnew
    · exact h.settled_cons _ hold hpolicy
    · obtain ⟨_, -, rfl⟩ := List.mem_map.mp hnew
      exact h.replied_cons _ hmem hreply hpolicy
  · exact h.single.sublist (List.filter_sublist.map Prod.fst)
  · -- The callers of the read move from those in flight to those that resume.
    have hcallers := PolicyClient.perm_callers_filter h.single hmem
    have hwaiting : (s.client.settle decoder address read reply).waiting.Perm s.client.waiting := by
      have hnew : (read.callers.map fun caller =>
          (⟨caller, address, read.started, readPolicy decoder reply⟩ : Resuming)).map
            (fun caller => (caller.caller, caller.address)) =
          PolicyClient.callersOf (address, read) := by
        rw [List.map_map]
        rfl
      unfold PolicyClient.waiting PolicyClient.settle
      rw [List.map_append, hnew]
      refine List.Perm.trans ?_ (hcallers.symm.append_right _)
      rw [← List.append_assoc, List.append_assoc (PolicyClient.callersOf (address, read))]
      exact List.perm_append_comm
    exact (hwaiting.append_left _).trans h.accounted

/-- A caller goes on with what its read said. -/
theorem resumed_invariant (hlawful : lru.Lawful)
    (h : PolicyInvariant view decoder ttlMs window visited labels s) {caller : Resuming}
    {earlier later : List Resuming} (hresuming : s.client.resuming = earlier ++ caller :: later)
    (hprompt : s.now ≤ caller.started + window) :
    ServesFresh view ttlMs window visited (s.now, (.resumed caller : PolicyEvent L)) ∧
      PolicyInvariant view decoder ttlMs window
        (⟨s.pool, s.now, s.client.resume s.now caller (earlier ++ later)⟩ :: visited)
        ((s.now, .resumed caller) :: labels)
        ⟨s.pool, s.now, s.client.resume s.now caller (earlier ++ later)⟩ := by
  have hcaller : caller ∈ s.client.resuming := by simp [hresuming]
  have hothers : ∀ other ∈ earlier ++ later, other ∈ s.client.resuming := by
    intro other hother
    rw [hresuming, List.mem_append, List.mem_cons]
    exact (List.mem_append.mp hother).imp_right Or.inr
  have hperm : s.client.waiting.Perm ((caller.caller, caller.address) ::
      (s.client.pendingReads.flatMap PolicyClient.callersOf ++
        (earlier ++ later).map fun caller => (caller.caller, caller.address))) := by
    unfold PolicyClient.waiting
    rw [hresuming]
    exact ((List.perm_middle.map _).append_left _).trans List.perm_middle
  -- The caller is struck off those that wait, and counts as answered.
  have haccounted : (((caller.caller, caller.address) ::
      labels.flatMap fun label => label.2.answering) ++
      (s.client.pendingReads.flatMap PolicyClient.callersOf ++
        (earlier ++ later).map fun caller => (caller.caller, caller.address))).Perm
      (labels.flatMap fun label => label.2.asking) :=
    (List.perm_middle.symm.trans (hperm.symm.append_left _)).trans h.accounted
  unfold PolicyClient.resume
  obtain ⟨id, address, started, answer⟩ := caller
  cases answer with
  -- Its read has failed, and nothing is cached.
  | none =>
    refine ⟨fun _ _ hserved => (nomatch hserved), h.capacity, h.ttl, ?_, h.begun, ?_, ?_,
      h.single, haccounted⟩
    · exact fun address policy time hheld => h.cached_cons _ hheld
    · exact fun address read reply policy hmem hreply hread => h.replied_cons _ hmem hreply hread
    · exact fun other hother policy hpolicy => h.settled_cons _ (hothers other hother) hpolicy
  | some policy =>
    have hshown := h.settled _ hcaller policy rfl
    refine ⟨fun key served hserved => ?_, (hlawful.set_capacity _ _ _ _).trans h.capacity,
      (hlawful.set_ttl _ _ _ _).trans h.ttl, ?_, h.begun, ?_, ?_, h.single, haccounted⟩
    · obtain ⟨rfl, rfl⟩ := Prod.mk.inj (Option.some.inj hserved)
      exact ⟨started, hprompt.trans (Nat.le_add_right _ _), hshown⟩
    · -- The entry that is written is as old as its read.
      intro key value time hheld
      have hroom : 0 < lru.capacity s.client.cachedPolicies := by
        rw [h.capacity]
        decide
      rcases hlawful.held_of_set hroom hheld with ⟨rfl, heq⟩ | hold
      · obtain ⟨rfl, rfl⟩ := Prod.mk.inj heq
        exact ⟨started, hprompt, hshown.cons _⟩
      · exact h.cached_cons _ hold
    · exact fun address read reply policy hmem hreply hread => h.replied_cons _ hmem hreply hread
    · exact fun other hother policy hpolicy => h.settled_cons _ (hothers other hother) hpolicy

/-- One step: what it answers is fresh, and the invariant stays. -/
theorem policyStep_invariant (hlawful : lru.Lawful) (hreads : decoder.Reads) (hmoment : s ∈ visited)
    (h : PolicyInvariant view decoder ttlMs window visited labels s)
    (hprompt : Prompt window label) (hstep : PolicyStep sys view decoder visited label s s') :
    ServesFresh view ttlMs window visited label ∧
      PolicyInvariant view decoder ttlMs window (s' :: visited) (label :: labels) s' := by
  cases hstep with
  | pool _ => exact ⟨fun _ _ hserved => (nomatch hserved), h.moved rfl le_rfl rfl rfl⟩
  | tick hlater => exact ⟨fun _ _ hserved => (nomatch hserved), h.moved rfl hlater rfl rfl⟩
  | asked hget => exact asked_invariant hlawful h hget
  | evaluated hmem _ hanswers =>
    exact ⟨fun _ _ hserved => (nomatch hserved), evaluated_invariant hreads hmoment h hanswers hmem⟩
  | settled hmem hreply =>
    exact ⟨fun _ _ hserved => (nomatch hserved), settled_invariant h hmem hreply⟩
  | resumed hresuming => exact resumed_invariant hlawful h hresuming hprompt

/-- Every state of a run keeps the invariant. -/
theorem policyRun_invariant (hlawful : lru.Lawful) (hreads : decoder.Reads)
    (run : (policySystem sys view decoder ttlMs lru).Run visited labels s)
    (hprompt : ∀ label ∈ labels, Prompt window label) :
    PolicyInvariant view decoder ttlMs window visited labels s := by
  induction run with
  | start hinit =>
    obtain ⟨-, hstart⟩ := hinit
    rename_i s
    obtain ⟨pool, now, client⟩ := s
    obtain rfl : client = .start ttlMs := hstart
    refine ⟨hlawful.capacity_empty _ _, hlawful.ttl_empty _ _, ?_, nofun, nofun, nofun,
      List.nodup_nil, List.Perm.refl _⟩
    intro address policy time hheld
    rw [PolicyClient.start, hlawful.held_empty] at hheld
    cases hheld
  | step run hstep ih =>
    have hbefore := ih fun label hmem => hprompt label (List.mem_cons_of_mem _ hmem)
    exact (policyStep_invariant hlawful hreads run.mem_visited hbefore
      (hprompt _ List.mem_cons_self) hstep).2

end Invariant

end PrivacyPool.Interceptor
