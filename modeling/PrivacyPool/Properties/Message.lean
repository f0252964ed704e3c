import PrivacyPool.System.Run

/-!
# The message binds the list

The hash that the server computes from the actions it is given is the hash of the
message that the proven execution sent for them. The serialization of a list of
server actions is injective and self-delimiting, so the message determines the
list, and a proof vouches for one list only.

## Main results

* `message_binding` — the two hashes agree, and determine the class and the list
-/

namespace PrivacyPool

open Fallible

/-- The server rebuilds the message that the client sent. -/
theorem computeMessageHash_eq (sn : Starknet) (actions : Span ServerAction)
    (contractAddress : ContractAddress) :
    computeMessageHash sn actions contractAddress =
      (sendMessageToServer sn actions contractAddress).hash sn := rfl

/-- A payload determines the class hash and the list. -/
theorem payload_inj {sn sn' : Starknet} {actions actions' : Span ServerAction}
    {contractAddress contractAddress' : ContractAddress}
    (h : (sendMessageToServer sn actions contractAddress).payload =
      (sendMessageToServer sn' actions' contractAddress').payload) :
    sn.classHashAt contractAddress = sn'.classHashAt contractAddress' ∧ actions = actions' := by
  simp only [sendMessageToServer, List.cons_append, List.nil_append, List.cons.injEq] at h
  exact ⟨widen_injective _ h.1, serialize_injective h.2⟩

/-- The felts that a message is hashed from determine its sender and its payload. -/
theorem span_inj {message message' : L1Message} (h : message.span = message'.span) :
    message.fromAddress = message'.fromAddress ∧ message.payload = message'.payload := by
  simp only [L1Message.span, List.cons_append, List.nil_append, List.cons.injEq,
    ContractAddress.toFelt_inj] at h
  exact ⟨h.1, h.2.2.2⟩

/-- A valid proof reports exactly one message, the one for the given list. -/
theorem validateProof_eq_ok {sn : Starknet} {world : World sn} {tx : TxInfo}
    {actions : Span ServerAction} (h : validateProof sn world tx actions = .ok ()) :
    ∃ proofFacts : ProofFacts, deserialize tx.proofFacts = some (proofFacts, []) ∧
      proofFacts.messageToL1Hashes.1 = [computeMessageHash sn actions sn.contractAddress] := by
  simp only [validateProof, bind_eq_ok, require_eq_ok, expect_eq_ok, exists_and_left,
    exists_const] at h
  obtain ⟨-, ⟨proofFacts, rest⟩, hfacts, hrest, -, -, -, _, -, -, hhashes⟩ := h
  dsimp only at hrest hhashes
  subst hrest
  exact ⟨proofFacts, hfacts, hhashes⟩

/-- **Message binding.** The server hashes the message that the proven execution
sent for the same list. The serialization of lists is self-delimiting, so equal
payloads come from the same class and the same list. A proof whose messages were
sent for some list is accepted for that list only, by a hash that does not collide
on the two messages. -/
theorem message_binding :
    (∀ (sn : Starknet) (actions : Span ServerAction) (contractAddress : ContractAddress),
      computeMessageHash sn actions contractAddress =
        (sendMessageToServer sn actions contractAddress).hash sn) ∧
    (∀ (actions actions' : Span ServerAction) (rest rest' : List Felt),
      serialize actions ++ rest = serialize actions' ++ rest' → actions = actions' ∧ rest = rest') ∧
    (∀ (sn sn' : Starknet) (actions actions' : Span ServerAction)
      (contractAddress contractAddress' : ContractAddress),
      (sendMessageToServer sn actions contractAddress).payload =
        (sendMessageToServer sn' actions' contractAddress').payload →
      sn.classHashAt contractAddress = sn'.classHashAt contractAddress' ∧ actions = actions') ∧
    (∀ (sn : Starknet) (world : World sn) (tx : TxInfo) (actions : Span ServerAction),
      validateProof sn world tx actions = .ok () →
      ∃ proofFacts : ProofFacts, deserialize tx.proofFacts = some (proofFacts, []) ∧
        ∀ (sent : Span ServerAction) (sender : ContractAddress),
          (sendMessageToServer sn sent sender).hash sn ∈ proofFacts.messageToL1Hashes.1 →
          Set.InjOn sn.poseidonHashSpan {(sendMessageToServer sn sent sender).span,
            (sendMessageToServer sn actions sn.contractAddress).span} →
          sender = sn.contractAddress ∧ sent = actions) := by
  refine ⟨computeMessageHash_eq, fun _ _ _ _ => serialize_append_inj, fun _ _ _ _ _ _ => payload_inj,
    fun sn world tx actions h => ?_⟩
  obtain ⟨proofFacts, hfacts, hhashes⟩ := validateProof_eq_ok h
  refine ⟨proofFacts, hfacts, fun sent sender hsent hinj => ?_⟩
  rw [hhashes, List.mem_singleton, computeMessageHash_eq] at hsent
  obtain ⟨hsender, hpayload⟩ := span_inj (hinj (by simp) (by simp) hsent)
  exact ⟨hsender, (payload_inj hpayload).2⟩

theorem message_binding_sample :
    ∃ proofFacts : ProofFacts, deserialize Sample.tx.proofFacts = some (proofFacts, []) ∧
      ∀ (sent : Span ServerAction) (sender : ContractAddress),
        (sendMessageToServer Starknet.sample sent sender).hash Starknet.sample ∈
          proofFacts.messageToL1Hashes.1 →
        Set.InjOn Starknet.sample.poseidonHashSpan
          {(sendMessageToServer Starknet.sample sent sender).span,
            (sendMessageToServer Starknet.sample Sample.funding.actions 1000).span} →
        sender = 1000 ∧ sent = Sample.funding.actions :=
  message_binding.2.2.2 Starknet.sample Sample.deployed Sample.tx Sample.funding.actions
    (by decide +kernel)

end PrivacyPool
