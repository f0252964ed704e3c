import Mathlib.Data.List.Forall2
import Mathlib.Logic.Function.Basic

/-!
# Standard tokens

The ledger of one ERC20 token: a transfer moves an amount, an approval overwrites
the allowance, and a transfer on behalf of another decreases it. A list of entitled
amounts that is approved entry by entry can be pulled entry by entry only if no
approval overwrote a pending one, that is if no token occurs twice.

## Main definitions

* `Ledger` — balances and allowances of one token
* `Entry`, `total` — amounts of tokens, and the sum for one token
* `Moved` — a list of amounts went from one account to another

## Main results

* `nodup_of_total_le` — where one amount covers the sum, each token occurs once
* `total_eq_amount` — then the sum is the amount
-/

namespace Erc20

variable {Account Token : Type*}

/-- Balances and allowances of one token, an allowance by owner and spender. -/
structure Ledger (Account : Type*) where
  balances : Account → ℕ
  allowances : Account → Account → ℕ

section Ledger

variable [DecidableEq Account] {ledger ledger' : Ledger Account}
  {sender recipient spender account : Account} {amount : ℕ}

/-- Move an amount, if the sender has it. -/
def Ledger.transfer (ledger : Ledger Account) (sender recipient : Account) (amount : ℕ) :
    Option (Ledger Account) :=
  if amount ≤ ledger.balances sender then
    let paid := Function.update ledger.balances sender (ledger.balances sender - amount)
    some { ledger with balances := Function.update paid recipient (paid recipient + amount) }
  else none

/-- Overwrite the allowance of a spender. -/
def Ledger.approve (ledger : Ledger Account) (owner spender : Account) (amount : ℕ) :
    Ledger Account :=
  { ledger with
    allowances := Function.update ledger.allowances owner
      (Function.update (ledger.allowances owner) spender amount) }

/-- Move an amount on behalf of the sender, within the allowance, which it decreases. -/
def Ledger.transferFrom (ledger : Ledger Account) (spender sender recipient : Account)
    (amount : ℕ) : Option (Ledger Account) :=
  if amount ≤ ledger.allowances sender spender then
    (ledger.approve sender spender (ledger.allowances sender spender - amount)).transfer
      sender recipient amount
  else none

@[simp] theorem Ledger.approve_balances (ledger : Ledger Account) (owner spender : Account)
    (amount : ℕ) : (ledger.approve owner spender amount).balances = ledger.balances := rfl

@[simp] theorem Ledger.approve_allowances_self (ledger : Ledger Account)
    (owner spender : Account) (amount : ℕ) :
    (ledger.approve owner spender amount).allowances owner spender = amount := by
  simp [Ledger.approve]

theorem Ledger.transfer_allowances (h : ledger.transfer sender recipient amount = some ledger') :
    ledger'.allowances = ledger.allowances := by
  unfold Ledger.transfer at h
  split at h
  · rw [← Option.some.inj h]
  · cases h

/-- A transfer between two accounts moves the amount and nothing else. -/
theorem Ledger.transfer_balances (hne : sender ≠ recipient)
    (h : ledger.transfer sender recipient amount = some ledger') :
    ledger'.balances sender + amount = ledger.balances sender ∧
      ledger'.balances recipient = ledger.balances recipient + amount ∧
      ∀ a, a ≠ sender → a ≠ recipient → ledger'.balances a = ledger.balances a := by
  unfold Ledger.transfer at h
  split at h
  · rename_i hle
    rw [← Option.some.inj h]
    refine ⟨?_, ?_, ?_⟩
    · simp [Function.update_of_ne hne, Nat.sub_add_cancel hle]
    · simp [Function.update_of_ne hne.symm]
    · intro a hsender hrecipient
      simp [Function.update_of_ne hrecipient, Function.update_of_ne hsender]
  · cases h

/-- A transfer on behalf of the sender is an allowance spent and a transfer. -/
theorem Ledger.transferFrom_spends
    (h : ledger.transferFrom spender sender recipient amount = some ledger') :
    ledger'.allowances sender spender + amount = ledger.allowances sender spender ∧
      ∃ approved : Ledger Account, approved.balances = ledger.balances ∧
        approved.transfer sender recipient amount = some ledger' := by
  unfold Ledger.transferFrom at h
  split at h
  · rename_i hle
    refine ⟨?_, ledger.approve sender spender _, rfl, h⟩
    rw [Ledger.transfer_allowances h, Ledger.approve_allowances_self, Nat.sub_add_cancel hle]
  · cases h

end Ledger

/-! ### Amounts per token -/

/-- An amount of a token. -/
structure Entry (Token : Type*) where
  token : Token
  amount : ℕ

variable [DecidableEq Token] {token : Token} {entries : List (Entry Token)}

/-- The sum of the amounts of a token. -/
def total (token : Token) : List (Entry Token) → ℕ
  | [] => 0
  | entry :: entries => (if entry.token = token then entry.amount else 0) + total token entries

theorem total_cons_self (entry : Entry Token) (entries : List (Entry Token)) :
    total entry.token (entry :: entries) = entry.amount + total entry.token entries := by
  rw [total, if_pos rfl]

theorem total_cons_of_ne {entry : Entry Token} (h : entry.token ≠ token) :
    total token (entry :: entries) = total token entries := by
  rw [total, if_neg h, Nat.zero_add]

theorem total_append (token : Token) (entries entries' : List (Entry Token)) :
    total token (entries ++ entries') = total token entries + total token entries' := by
  induction entries with
  | nil => simp [total]
  | cons entry entries ih => rw [List.cons_append, total, ih, total, Nat.add_assoc]

theorem total_eq_zero (h : token ∉ entries.map (·.token)) : total token entries = 0 := by
  induction entries with
  | nil => rfl
  | cons entry entries ih =>
    rw [List.map_cons, List.mem_cons, not_or] at h
    rw [total_cons_of_ne (Ne.symm h.1), ih h.2]

theorem amount_le_total {entry : Entry Token} (h : entry ∈ entries) :
    entry.amount ≤ total entry.token entries := by
  induction entries with
  | nil => cases h
  | cons head entries ih =>
    rcases List.mem_cons.mp h with rfl | htail
    · rw [total_cons_self]
      exact Nat.le_add_right _ _
    · exact Nat.le_trans (ih htail) (Nat.le_add_left _ _)

/-- Where one amount of each token covers their sum, each token occurs once. -/
theorem nodup_of_total_le (hpos : ∀ entry ∈ entries, entry.amount ≠ 0)
    (hcovered : ∀ entry ∈ entries, ∃ latest ∈ entries, latest.token = entry.token ∧
      total entry.token entries ≤ latest.amount) :
    (entries.map (·.token)).Nodup := by
  induction entries with
  | nil => exact List.nodup_nil
  | cons head entries ih =>
    have hpos' : ∀ entry ∈ entries, entry.amount ≠ 0 := fun entry hentry =>
      hpos entry (List.mem_cons_of_mem _ hentry)
    have hhead : head.amount ≠ 0 := hpos head List.mem_cons_self
    have hfresh : head.token ∉ entries.map (·.token) := by
      intro hmem
      obtain ⟨entry, hentry, htoken⟩ := List.mem_map.mp hmem
      have hentryPos := hpos' entry hentry
      have hentryLe := amount_le_total hentry
      rw [htoken] at hentryLe
      obtain ⟨latest, hlatest, hlatestToken, hle⟩ := hcovered head List.mem_cons_self
      rw [total_cons_self] at hle
      -- The sum has a positive amount besides the one that is to cover it.
      rcases List.mem_cons.mp hlatest with rfl | hlatest
      · omega
      · have hlatestLe := amount_le_total hlatest
        rw [hlatestToken] at hlatestLe
        omega
    refine List.nodup_cons.mpr ⟨hfresh, ih hpos' fun entry hentry => ?_⟩
    have hne : head.token ≠ entry.token := fun heq =>
      hfresh (heq ▸ List.mem_map_of_mem hentry)
    obtain ⟨latest, hlatest, hlatestToken, hle⟩ := hcovered entry (List.mem_cons_of_mem _ hentry)
    rw [total_cons_of_ne hne] at hle
    rcases List.mem_cons.mp hlatest with rfl | hlatest
    · exact absurd hlatestToken hne
    · exact ⟨latest, hlatest, hlatestToken, hle⟩

/-- Where each token occurs once, the sum of a token is its amount. -/
theorem total_eq_amount (hnodup : (entries.map (·.token)).Nodup) {entry : Entry Token}
    (h : entry ∈ entries) : total entry.token entries = entry.amount := by
  induction entries with
  | nil => cases h
  | cons head entries ih =>
    rw [List.map_cons, List.nodup_cons] at hnodup
    rcases List.mem_cons.mp h with rfl | htail
    · rw [total_cons_self, total_eq_zero hnodup.1, Nat.add_zero]
    · have hne : head.token ≠ entry.token := fun heq =>
        hnodup.1 (heq ▸ List.mem_map_of_mem htail)
      rw [total_cons_of_ne hne, ih hnodup.2 htail]

/-! ### Moving entries -/

section Moved

variable {sender recipient : Account}
  {ledgers ledgers' ledgers'' : Token → Ledger Account} {entries' : List (Entry Token)}

/-- Every amount of the list went from the sender to the recipient, and no other
balance changed. -/
structure Moved (sender recipient : Account) (entries : List (Entry Token))
    (ledgers ledgers' : Token → Ledger Account) : Prop where
  sent (token : Token) :
    (ledgers' token).balances sender + total token entries = (ledgers token).balances sender
  received (token : Token) : (ledgers' token).balances recipient =
    (ledgers token).balances recipient + total token entries
  others (token : Token) (account : Account) : account ≠ sender → account ≠ recipient →
    (ledgers' token).balances account = (ledgers token).balances account

theorem Moved.nil : Moved sender recipient [] ledgers ledgers :=
  ⟨fun _ => rfl, fun _ => rfl, fun _ _ _ _ => rfl⟩

theorem Moved.append (h : Moved sender recipient entries ledgers ledgers')
    (h' : Moved sender recipient entries' ledgers' ledgers'') :
    Moved sender recipient (entries ++ entries') ledgers ledgers'' where
  sent token := by
    have hfirst := h.sent token
    have hsecond := h'.sent token
    rw [total_append]
    omega
  received token := by
    have hfirst := h.received token
    have hsecond := h'.received token
    rw [total_append]
    omega
  others token account hsender hrecipient :=
    (h'.others token account hsender hrecipient).trans (h.others token account hsender hrecipient)

/-- A transfer of one token moves one entry. The ledger it starts from may differ from
the recorded one in its allowances. -/
theorem Moved.single [DecidableEq Account] {ledger moved : Ledger Account} {amount : ℕ} (hne : sender ≠ recipient)
    (hbalances : ledger.balances = (ledgers token).balances)
    (h : ledger.transfer sender recipient amount = some moved) :
    Moved sender recipient [⟨token, amount⟩] ledgers (Function.update ledgers token moved) := by
  obtain ⟨hsent, hreceived, hothers⟩ := Ledger.transfer_balances hne h
  rw [hbalances] at hsent hreceived hothers
  refine ⟨fun t => ?_, fun t => ?_, fun t account hsender hrecipient => ?_⟩
  all_goals by_cases heq : token = t
  · subst heq
    simpa [total] using hsent
  · simp [total, heq, Function.update_of_ne (Ne.symm heq)]
  · subst heq
    simpa [total] using hreceived
  · simp [total, heq, Function.update_of_ne (Ne.symm heq)]
  · subst heq
    simpa using hothers account hsender hrecipient
  · simp [Function.update_of_ne (Ne.symm heq)]

end Moved

end Erc20
