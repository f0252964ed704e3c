import PrivacyPool.Contract.Utils

/-!
# Assumptions on the platform

What is assumed of the primitives around the pool: tokens move exactly the stated
amount, and a public key has one canonical private key. Collision-freedom of the
hash is stated in `PrivacyPool.System.Domain`.

## Main definitions

* `ExactTransfers` — transfers of the pool move the stated amount
* `PublicKeysDistinct`, `PrimeOrder`, `CurveLaw` — the curve
* `RecoversPoints` — point recovery of another library on the same curve
* `Starknet.sample` — a small platform that meets the assumptions
-/

namespace PrivacyPool

/-- ERC20 transfers that the pool makes move exactly the stated amount, and the
pool has approved nobody, so nobody pulls tokens out of it. -/
structure ExactTransfers (sn : Starknet) : Prop where
  transferFrom_balance : ∀ {tokens tokens' token sender recipient amount},
    sn.checkedTransferFrom tokens token sender recipient amount = some tokens' → ∀ t,
      sn.balanceOf tokens' t sn.contractAddress = sn.balanceOf tokens t sn.contractAddress +
        if t = token ∧ recipient = sn.contractAddress then amount else 0
  transfer_balance : ∀ {tokens tokens' token recipient amount},
    sn.checkedTransfer tokens token recipient amount = some tokens' → ∀ t,
      sn.balanceOf tokens' t sn.contractAddress +
          (if t = token ∧ recipient ≠ sn.contractAddress then amount else 0) =
        sn.balanceOf tokens t sn.contractAddress
  transfer_succeeds : ∀ {tokens token recipient amount}, recipient ≠ 0 →
    amount ≤ sn.balanceOf tokens token sn.contractAddress →
      (sn.checkedTransfer tokens token recipient amount).isSome

/-- Two private keys below the curve order have the same public key only when
they are equal or opposite. -/
def PublicKeysDistinct (sn : Starknet) : Prop :=
  ∀ {k k' publicKey : Felt}, k.val < curveOrder → k'.val < curveOrder →
    sn.derivePublicKey k = .ok publicKey → sn.derivePublicKey k' = .ok publicKey →
    k = k' ∨ k.val + k'.val = curveOrder

/-- A scalar that is not a multiple of the curve order takes no point of the
curve to infinity. -/
def PrimeOrder (sn : Starknet) : Prop :=
  ∀ {scalar publicKey : Felt} {point : sn.EcPoint}, scalar.val % curveOrder ≠ 0 →
    sn.newFromX publicKey = some point →
    (sn.x (sn.mul sn.genP scalar)).isSome ∧ (sn.x (sn.mul point scalar)).isSome

/-- Scalar multiples commute, points with the same `x` coordinate are equal up to
sign, so that their multiples have the same `x` coordinates too, and a point
recovered from a coordinate has that coordinate. -/
structure CurveLaw (sn : Starknet) : Prop where
  mul_mul_comm : ∀ point a b, sn.mul (sn.mul point a) b = sn.mul (sn.mul point b) a
  x_mul : ∀ {point point' coordinate} scalar, sn.x point = some coordinate →
    sn.x point' = some coordinate → sn.x (sn.mul point scalar) = sn.x (sn.mul point' scalar)
  newFromX_x : ∀ {coordinate point}, sn.newFromX coordinate = some point →
    sn.x point = some coordinate

/-- Another library recovers a point, of either sign, from the `x` coordinate of
any point of the curve. -/
structure RecoversPoints (sn : Starknet) (recover : Felt → Option sn.EcPoint) : Prop where
  x_eq : ∀ {coordinate point}, recover coordinate = some point → sn.x point = some coordinate
  isSome : ∀ {point coordinate}, sn.x point = some coordinate → (recover coordinate).isSome

/-- A public key has at most one canonical private key. -/
theorem eq_of_derivePublicKey {sn : Starknet} (hkeys : PublicKeysDistinct sn)
    {k k' publicKey : Felt} (hk : isCanonicalKey k) (hk' : isCanonicalKey k')
    (h : sn.derivePublicKey k = .ok publicKey) (h' : sn.derivePublicKey k' = .ok publicKey) :
    k = k' := by
  have hhalf : halfOrder + halfOrder < curveOrder := by decide +kernel
  have hlt : k.val < halfOrder := hk
  have hlt' : k'.val < halfOrder := hk'
  rcases hkeys (by omega) (by omega) h h' with heq | hsum
  · exact heq
  · omega

/-! ### A small platform -/

/-- Move an amount of a token between two accounts. -/
def moveTokens (tokens : ContractAddress → ContractAddress → ℕ)
    (token sender recipient : ContractAddress) (amount : ℕ) :
    ContractAddress → ContractAddress → ℕ :=
  fun t =>
    if t = token then
      let paid := Function.update (tokens t) sender (tokens t sender - amount)
      Function.update paid recipient (paid recipient + amount)
    else tokens t

/-- The spans that the sample platform hashes to distinct values: those of a user
with address 5 and private key 3, whose channel to itself has key 1, a subchannel
for token 77 and two notes. -/
def sampleSpans : List (List Felt) :=
  [channelKeySpan 5 3 5 3, channelMarkerSpan 1 5 5 3, outgoingChannelIdSpan 5 3 0,
    subchannelMarkerSpan 1 5 3 77, subchannelIdSpan 1 0, noteIdSpan 1 77 0,
    nullifierSpan 1 77 0 3, noteIdSpan 1 77 1, nullifierSpan 1 77 1 3]

/-- A platform with a small hash table, the curve as the multiples of its
generator, and tokens as tables of balances. -/
def Starknet.sample : Starknet where
  contractAddress := 1000
  classHashAt _ := 12
  poseidonHashSpan span := Fin.ofNat feltPrime (sampleSpans.idxOf span + 1)
  entry var key := ⟨(key.val * 32 + 4 * var.ctorIdx) % (2 ^ 251 - 256), Nat.mod_lt _ (by decide)⟩
  EcPoint := ℕ
  genP := 1
  newFromX x := if 0 < x.val ∧ x.val ≤ 8 then some x.val else none
  mul point scalar := point * scalar.val % curveOrder
  x point := if point % curveOrder = 0 then none
    else some (Fin.ofNat feltPrime (min (point % curveOrder) (curveOrder - point % curveOrder)))
  checkEcdsaSignature _ publicKey r _ := r == publicKey
  starknetDomainHash name version := name + version
  Tokens := ContractAddress → ContractAddress → ℕ
  balanceOf tokens token account := tokens token account
  checkedTransferFrom tokens token sender recipient amount :=
    if sender ≠ 1000 ∧ amount ≤ tokens token sender then
      some (moveTokens tokens token sender recipient amount)
    else none
  checkedTransfer tokens token recipient amount :=
    if recipient ≠ 0 ∧ amount ≤ tokens token 1000 then
      some (moveTokens tokens token 1000 recipient amount)
    else none

section MoveTokens

variable {tokens : ContractAddress → ContractAddress → ℕ}
  {token sender recipient account : ContractAddress} {amount : ℕ}

/-- An account that sends nothing gains what it is sent. -/
theorem moveTokens_of_ne_sender (h : sender ≠ account) (t : ContractAddress) :
    moveTokens tokens token sender recipient amount t account =
      tokens t account + if t = token ∧ recipient = account then amount else 0 := by
  by_cases ht : t = token
  · by_cases hto : recipient = account
    · subst hto
      simp [moveTokens, ht, Function.update_of_ne h.symm]
    · simp [moveTokens, ht, hto, Function.update_of_ne h.symm, Function.update_of_ne (Ne.symm hto)]
  · simp [moveTokens, ht]

/-- The sender loses what it sends to others. -/
theorem moveTokens_sender (h : amount ≤ tokens token sender) (t : ContractAddress) :
    moveTokens tokens token sender recipient amount t sender +
      (if t = token ∧ recipient ≠ sender then amount else 0) = tokens t sender := by
  by_cases ht : t = token
  · subst ht
    by_cases hto : recipient = sender
    · subst hto
      simp [moveTokens, Nat.sub_add_cancel h]
    · simp [moveTokens, hto, Function.update_of_ne (Ne.symm hto), Nat.sub_add_cancel h]
  · simp [moveTokens, ht]

end MoveTokens

namespace Starknet

theorem sample_exactTransfers : ExactTransfers sample where
  transferFrom_balance := by
    intro tokens tokens' token sender recipient amount h t
    obtain ⟨⟨hsender, -⟩, htokens⟩ := Option.ite_none_right_eq_some.mp h
    obtain rfl := Option.some.inj htokens
    exact moveTokens_of_ne_sender hsender t
  transfer_balance := by
    intro tokens tokens' token recipient amount h t
    obtain ⟨⟨-, hamount⟩, htokens⟩ := Option.ite_none_right_eq_some.mp h
    obtain rfl := Option.some.inj htokens
    exact moveTokens_sender hamount t
  transfer_succeeds := by
    intro tokens token recipient amount hrecipient hamount
    have hsome : sample.checkedTransfer tokens token recipient amount = some _ :=
      if_pos ⟨hrecipient, hamount⟩
    rw [hsome]
    rfl

/-- On the sample platform a public key is the smaller of the private key and its
opposite. -/
theorem sample_derivePublicKey {k publicKey : Felt} (hk : k.val < curveOrder)
    (h : sample.derivePublicKey k = .ok publicKey) :
    publicKey.val = min k.val (curveOrder - k.val) := by
  have hpoint : sample.x (1 * k.val % curveOrder) = some publicKey := Fallible.expect_eq_ok.mp h
  obtain ⟨-, hx⟩ := Option.ite_none_left_eq_some.mp hpoint
  rw [← Option.some.inj hx, Nat.one_mul, Nat.mod_mod, Nat.mod_eq_of_lt hk]
  refine Nat.mod_eq_of_lt (lt_of_le_of_lt (min_le_left _ _) (hk.trans ?_))
  decide

theorem sample_publicKeysDistinct : PublicKeysDistinct sample := by
  intro k k' publicKey hk hk' h h'
  have hmin := sample_derivePublicKey hk h
  have hmin' := sample_derivePublicKey hk' h'
  rw [Fin.ext_iff]
  omega

theorem sample_primeOrder : PrimeOrder sample := by
  intro scalar publicKey point hscalar hpoint
  obtain ⟨⟨hpos, hle⟩, hsome⟩ := Option.ite_none_right_eq_some.mp hpoint
  obtain rfl := Option.some.inj hsome
  have hx : ∀ p : ℕ, p.Coprime curveOrder →
      (sample.x (sample.mul p scalar)).isSome := by
    intro p hp
    have hne : p * scalar.val % curveOrder % curveOrder ≠ 0 := by
      rw [Nat.mod_mod]
      intro hzero
      have hdvd := hp.symm.dvd_of_dvd_mul_left (Nat.dvd_of_mod_eq_zero hzero)
      exact hscalar (Nat.mod_eq_zero_of_dvd hdvd)
    have hsome : sample.x (sample.mul p scalar) = some _ := if_neg hne
    rw [hsome]
    rfl
  have hcoprime : ∀ p ≤ 8, 0 < p → p.Coprime curveOrder := by decide +kernel
  exact ⟨hx 1 (Nat.coprime_one_left _), hx _ (hcoprime _ hle hpos)⟩

/-- On the sample platform a coordinate determines a point up to sign. -/
theorem sample_x_eq_some {point : ℕ} {coordinate : Felt} :
    sample.x point = some coordinate ↔ point % curveOrder ≠ 0 ∧
      coordinate.val = min (point % curveOrder) (curveOrder - point % curveOrder) := by
  have horder : curveOrder ≤ feltPrime := by decide +kernel
  have hlt : point % curveOrder < curveOrder := Nat.mod_lt _ (by decide)
  change (if _ then none else some _) = _ ↔ _
  split_ifs with hzero
  · simp [hzero]
  · have hsmall : min (point % curveOrder) (curveOrder - point % curveOrder) < feltPrime :=
      (min_le_left _ _).trans_lt (hlt.trans_le horder)
    rw [Option.some.injEq, Fin.ext_iff, Fin.val_ofNat, Nat.mod_eq_of_lt hsmall]
    simp [hzero, eq_comm]

/-- Equal or opposite points of the sample platform have the same coordinate. -/
theorem sample_x_congr {p q : ℕ} (h : p % curveOrder = q % curveOrder ∨ (p + q) % curveOrder = 0) :
    sample.x p = sample.x q := by
  refine Option.ext fun coordinate => ?_
  rw [sample_x_eq_some, sample_x_eq_some]
  rcases h with h | h
  · rw [h]
  · unfold curveOrder at h ⊢
    omega

theorem sample_curveLaw : CurveLaw sample where
  mul_mul_comm := by
    intro (point : ℕ) a b
    change point * a.val % curveOrder * b.val % curveOrder =
      point * b.val % curveOrder * a.val % curveOrder
    rw [Nat.mod_mul_mod, Nat.mod_mul_mod, Nat.mul_right_comm]
  x_mul := by
    intro (p : ℕ) (q : ℕ) coordinate scalar hp hq
    obtain ⟨hp, hpx⟩ := sample_x_eq_some.mp hp
    obtain ⟨hq, hqx⟩ := sample_x_eq_some.mp hq
    have hplt : p % curveOrder < curveOrder := Nat.mod_lt _ (by decide)
    have hqlt : q % curveOrder < curveOrder := Nat.mod_lt _ (by decide)
    apply sample_x_congr
    change p * scalar.val % curveOrder % curveOrder = q * scalar.val % curveOrder % curveOrder ∨
      (p * scalar.val % curveOrder + q * scalar.val % curveOrder) % curveOrder = 0
    rw [Nat.mod_mod, Nat.mod_mod, ← Nat.add_mod, ← Nat.add_mul]
    -- Points with one coordinate are equal or opposite, and scalars keep that.
    have hsame : p % curveOrder = q % curveOrder ∨
        p % curveOrder + q % curveOrder = curveOrder := by omega
    rcases hsame with hsame | hsame
    · left
      rw [Nat.mul_mod, hsame, ← Nat.mul_mod]
    · right
      rw [Nat.mul_mod, Nat.add_mod, hsame, Nat.mod_self, Nat.zero_mul, Nat.zero_mod]
  newFromX_x := by
    intro coordinate point h
    obtain ⟨⟨hpos, hle⟩, hsome⟩ := Option.ite_none_right_eq_some.mp h
    obtain rfl := Option.some.inj hsome
    rw [sample_x_eq_some, Nat.mod_eq_of_lt (by unfold curveOrder; omega)]
    unfold curveOrder
    omega

/-- Recovery on the sample platform, with the sign that its own does not choose. -/
def sampleRecover (coordinate : Felt) : Option sample.EcPoint :=
  if 0 < coordinate.val ∧ coordinate.val ≤ halfOrder then
    some (curveOrder - coordinate.val : ℕ)
  else none

theorem sample_recoversPoints : RecoversPoints sample sampleRecover where
  x_eq := by
    intro coordinate point h
    obtain ⟨⟨hpos, hle⟩, hsome⟩ := Option.ite_none_right_eq_some.mp h
    obtain rfl := Option.some.inj hsome
    unfold halfOrder at hle
    rw [sample_x_eq_some, Nat.mod_eq_of_lt (by unfold curveOrder; omega)]
    unfold curveOrder at *
    omega
  isSome := by
    intro (point : ℕ) coordinate h
    obtain ⟨hne, hx⟩ := sample_x_eq_some.mp h
    have hlt : point % curveOrder < curveOrder := Nat.mod_lt _ (by decide)
    have hrange : 0 < coordinate.val ∧ coordinate.val ≤ halfOrder := by
      unfold halfOrder
      omega
    unfold sampleRecover
    rw [if_pos hrange]
    rfl

end Starknet

end PrivacyPool
