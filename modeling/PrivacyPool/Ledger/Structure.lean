import PrivacyPool.Ledger.Block
import PrivacyPool.System.Assumptions

/-!
# Structure of the book

The objects of the pool depend on each other: a note lies in a subchannel, a
subchannel in a channel, a channel is opened toward a registered recipient, and
a nullifier belongs to a note and to the one key that owns it. Indices are used
in order, and the vector of a recipient lists the channels opened toward it.
These invariants refer to records that are there, so a move can only break them
at the records it writes.

## Main definitions

* `WellFormed` — the invariants of the book, each a definition of its own

## Main results

* `WellFormed.channel_eq` — a channel key belongs to one channel
* `WellFormed.subchannel_eq` — the subchannels of a channel key have one owner
* `WellFormed.nullifier_eq` — a note is nullified with one key only
-/

namespace PrivacyPool

open WriteOnce

/-! ### The invariants -/

/-- Only slots whose names are in play are used. -/
def RecordsCovered (D : Domain) (L : Ledger) : Prop := ∀ s, L s ≠ 0 → s.Covered D

/-- A registered public key has a canonical private key. -/
def KeysRegistered (sn : Starknet) (L : Ledger) : Prop :=
  ∀ user, L (.publicKey user) 0 ≠ 0 → ∃ privateKey, privateKey ≠ 0 ∧
    isCanonicalKey privateKey ∧ sn.derivePublicKey privateKey = .ok (L (.publicKey user) 0)

/-- The channel was opened by its registered sender toward its registered recipient. -/
structure OpenedWith (sn : Starknet) (D : Domain) (L : Ledger) (c : Channel)
    (senderPrivateKey : Felt) : Prop where
  sender : L (.publicKey c.senderAddr) 0 ≠ 0
  authenticated : sn.derivePublicKey senderPrivateKey = .ok (L (.publicKey c.senderAddr) 0)
  recipient_ne : c.recipientAddr ≠ 0
  recipient : L (.publicKey c.recipientAddr) 0 = c.recipientPublicKey
  registered : c.recipientPublicKey ≠ 0
  key : c.key = sn.computeChannelKey c.senderAddr senderPrivateKey c.recipientAddr
    c.recipientPublicKey
  key_covered : channelKeySpan c.senderAddr senderPrivateKey c.recipientAddr
    c.recipientPublicKey ∈ D.spans

/-- A channel marker was set when the channel was opened. -/
def ChannelsOpened (sn : Starknet) (D : Domain) (L : Ledger) : Prop :=
  ∀ c, L (.channelExists c) 0 ≠ 0 → ∃ senderPrivateKey, OpenedWith sn D L c senderPrivateKey

/-- A subchannel lies in a channel. -/
def SubchannelsOpened (L : Ledger) : Prop :=
  ∀ c, L (.subchannelExists c) 0 ≠ 0 → c.token ≠ 0 ∧
    ∃ sender, L (.channelExists ⟨c.key, sender, c.recipientAddr, c.recipientPublicKey⟩) 0 ≠ 0

/-- The token of a subchannel index, decrypted. -/
def tokenAt (sn : Starknet) (L : Ledger) (channelKey : Felt) (index : Usize) : Felt :=
  L (.subchannelToken channelKey index) 1 -
    sn.computeEncTokenHash channelKey index (L (.subchannelToken channelKey index) 0)

/-- A subchannel index holds the token of a subchannel that exists. -/
def TokensOpened (sn : Starknet) (L : Ledger) : Prop :=
  ∀ channelKey index, L (.subchannelToken channelKey index) 0 ≠ 0 →
    ∃ c : Subchannel, c.key = channelKey ∧ L (.subchannelExists c) 0 ≠ 0 ∧
      tokenAt sn L channelKey index = ContractAddress.toFelt c.token

/-- The tokens of a channel are pairwise distinct. -/
def TokensDistinct (sn : Starknet) (L : Ledger) : Prop :=
  ∀ channelKey index index', L (.subchannelToken channelKey index) 0 ≠ 0 →
    L (.subchannelToken channelKey index') 0 ≠ 0 →
    tokenAt sn L channelKey index = tokenAt sn L channelKey index' → index = index'

/-- A note lies in a subchannel. -/
def NotesOpened (L : Ledger) : Prop :=
  ∀ n : NoteKey, L (.note n) 0 ≠ 0 → ∃ recipientAddr recipientPublicKey,
    L (.subchannelExists ⟨n.channelKey, recipientAddr, recipientPublicKey, n.token⟩) 0 ≠ 0

/-- The record of a note holds an encrypted amount, or an open one with its token. -/
def NoteReadable (sn : Starknet) (n : NoteKey) (r : Record) : Prop :=
  (∃ salt amount, openNoteSalt < salt ∧ salt < twoPow120 ∧
    sn.encNotePackedValue n.channelKey n.token n.index salt amount = .ok (r 0)) ∨
  (∃ amount, pack openNoteSalt amount = .ok (r 0)) ∧ r 1 = ContractAddress.toFelt n.token

/-- Every note of the book can be read. -/
def NotesReadable (sn : Starknet) (L : Ledger) : Prop :=
  ∀ n, L (.note n) 0 ≠ 0 → NoteReadable sn n (L (.note n))

/-- A used index has a used predecessor. -/
def Contiguous (L : Ledger) (slot : Usize → Slot) : Prop :=
  ∀ index, L (slot index) 0 ≠ 0 → index = 0 ∨ L (slot (index - 1)) 0 ≠ 0

/-- Outgoing channels, subchannels and notes are numbered in order. -/
structure Numbered (L : Ledger) : Prop where
  outgoing : ∀ sender key, Contiguous L (.outgoingChannel sender key)
  subchannels : ∀ channelKey, Contiguous L (.subchannelToken channelKey)
  notes : ∀ channelKey token, Contiguous L fun index => .note ⟨channelKey, token, index⟩

/-- The note was used by the owner of its subchannel, when it had an amount. -/
structure UsedBy (sn : Starknet) (L : Ledger) (n : NoteKey) (privateKey : Felt) : Prop where
  canonical : isCanonicalKey privateKey
  owner : ∃ owner publicKey, sn.derivePublicKey privateKey = .ok publicKey ∧
    L (.subchannelExists ⟨n.channelKey, owner, publicKey, n.token⟩) 0 ≠ 0
  note : L (.note n) 0 ≠ 0
  filled : L (.note n) 0 ≠ openNotePackedValue

/-- A nullifier was set when its note was used. -/
def NullifiersUsed (sn : Starknet) (L : Ledger) : Prop :=
  ∀ n privateKey, L (.nullifier n privateKey) 0 ≠ 0 → UsedBy sn L n privateKey

/-- An entry of the vector of a recipient is about the channel. -/
def Announces (sn : Starknet) (info : EncChannelInfo) (c : Channel) : Prop :=
  ∃ random, sn.encryptChannelInfo random c.recipientPublicKey c.key c.senderAddr = .ok info

/-- The vector of each recipient has one entry for each channel opened toward it. -/
def ChannelsListed (sn : Starknet) (B : Book) : Prop :=
  ∀ recipient, ∃ opened : List Channel, opened.Nodup ∧
    (∀ c, c ∈ opened ↔ c.recipientAddr = recipient ∧ B.ledger (.channelExists c) 0 ≠ 0) ∧
    List.Forall₂ (Announces sn) (B.channels recipient) opened

/-- The invariants of the book. -/
structure WellFormed (sn : Starknet) (D : Domain) (B : Book) : Prop where
  headed : Headed B.ledger
  covered : RecordsCovered D B.ledger
  keys : KeysRegistered sn B.ledger
  channels : ChannelsOpened sn D B.ledger
  subchannels : SubchannelsOpened B.ledger
  tokens : TokensOpened sn B.ledger
  tokensDistinct : TokensDistinct sn B.ledger
  notes : NotesOpened B.ledger
  readable : NotesReadable sn B.ledger
  numbered : Numbered B.ledger
  nullifiers : NullifiersUsed sn B.ledger
  listed : ChannelsListed sn B

section Unique

variable {sn : Starknet} {D : Domain} {B : Book}

/-- A channel key determines who opened the channel toward whom. -/
theorem channel_eq_of_opened (hD : NoCollision sn D) {L L' : Ledger} {c c' : Channel}
    {k k' : Felt} (h : OpenedWith sn D L c k) (h' : OpenedWith sn D L' c' k')
    (hkey : c.key = c'.key) : c = c' := by
  have hhash := (h.key.symm.trans hkey).trans h'.key
  have hspan := hD.hash_injOn h.key_covered h'.key_covered hhash
  simp only [channelKeySpan, List.cons.injEq, ContractAddress.toFelt_inj] at hspan
  obtain ⟨-, hsender, -, hrecipient, hpublic, -⟩ := hspan
  cases c
  cases c'
  simp_all

/-- A channel key belongs to one channel. -/
theorem WellFormed.channel_eq (hD : NoCollision sn D) (hB : WellFormed sn D B) {c c' : Channel}
    (hc : B.ledger (.channelExists c) 0 ≠ 0) (hc' : B.ledger (.channelExists c') 0 ≠ 0)
    (hkey : c.key = c'.key) : c = c' := by
  obtain ⟨k, hopened⟩ := hB.channels c hc
  obtain ⟨k', hopened'⟩ := hB.channels c' hc'
  exact channel_eq_of_opened hD hopened hopened' hkey

/-- The subchannels of a channel key have one owner. -/
theorem WellFormed.subchannel_eq (hD : NoCollision sn D) (hB : WellFormed sn D B)
    {c c' : Subchannel} (hc : B.ledger (.subchannelExists c) 0 ≠ 0)
    (hc' : B.ledger (.subchannelExists c') 0 ≠ 0) (hkey : c.key = c'.key) :
    c.recipientAddr = c'.recipientAddr ∧ c.recipientPublicKey = c'.recipientPublicKey := by
  obtain ⟨-, sender, hchannel⟩ := hB.subchannels c hc
  obtain ⟨-, sender', hchannel'⟩ := hB.subchannels c' hc'
  have hsame := hB.channel_eq hD hchannel hchannel' hkey
  simp only [Channel.mk.injEq] at hsame
  exact hsame.2.2

/-- A note is nullified with one key only, that of the owner of its subchannel. -/
theorem WellFormed.nullifier_eq (hD : NoCollision sn D) (hkeys : PublicKeysDistinct sn)
    (hB : WellFormed sn D B) {n : NoteKey} {k k' publicKey : Felt} {owner : ContractAddress}
    (hused : B.ledger (.nullifier n k) 0 ≠ 0) (hk' : isCanonicalKey k')
    (hderived : sn.derivePublicKey k' = .ok publicKey)
    (howner : B.ledger (.subchannelExists ⟨n.channelKey, owner, publicKey, n.token⟩) 0 ≠ 0) :
    k = k' := by
  have hby := hB.nullifiers n k hused
  obtain ⟨user, pk, hpk, hsub⟩ := hby.owner
  obtain ⟨-, hpublic⟩ := hB.subchannel_eq hD hsub howner rfl
  dsimp only at hpublic
  subst hpublic
  exact eq_of_derivePublicKey hkeys hby.canonical hk' hpk hderived

end Unique

end PrivacyPool
