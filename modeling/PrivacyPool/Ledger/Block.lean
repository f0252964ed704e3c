import Mathlib.Data.Int.Cast.Basic
import PrivacyPool.Base.Trace
import PrivacyPool.Ledger.Book

/-!
# Moves of the book

What a compiled client action does, once everything that compiling it computes
is filled in: a `Block`. A block is enabled by facts about records that are
already there, writes fresh records, and moves value between the tokens the pool
holds, the running balance of the list and the notes. Its enabling facts are
positive, so a block that was enabled on an older ledger is enabled on every
later one (`Enabled.mono`): this is what makes it sound to compile on a state
and apply on another.

Beside the blocks there is one more move: an open note receives its amount.

## Main definitions

* `Block`, `Block.serverActions` — a compiled client action and its server actions
* `Enabled` — what was checked when the block was compiled
* `Block.puts`, `Block.write` — the records a block writes
* `Move.Step` — one move of the book

## Main results

* `Enabled.mono` — enabled blocks stay enabled
* `Move.Step.later`, `Move.Step.channels_prefix` — a move leads to a later book
-/

namespace PrivacyPool

open WriteOnce

/-! ### Blocks -/

/-- Who creates a note for whom. -/
structure NoteCreation where
  senderAddr : ContractAddress
  senderPrivateKey : Felt
  recipientAddr : ContractAddress
  recipientPublicKey : Felt
  note : NoteKey
  deriving DecidableEq

/-- The subchannel a note is created in. -/
def NoteCreation.subchannel (c : NoteCreation) : Subchannel :=
  ⟨c.note.channelKey, c.recipientAddr, c.recipientPublicKey, c.note.token⟩

/-- A compiled client action. -/
inductive Block
  | setViewingKey (user : ContractAddress) (privateKey publicKey : Felt) (enc : EncPrivateKey)
  | openChannel (channel : Channel) (senderPrivateKey : Felt) (index : Usize)
      (outgoing : EncOutgoingChannelInfo) (info : EncChannelInfo)
  | openSubchannel (senderAddr : ContractAddress) (subchannel : Subchannel) (index : Usize)
      (info : EncSubchannelInfo)
  | createEncNote (creation : NoteCreation) (salt amount : U128) (packedValue : Felt)
  | createOpenNote (creation : NoteCreation) (enc : EncUserAddr)
  | deposit (user token : ContractAddress) (amount : U128)
  | useNote (owner : ContractAddress) (privateKey publicKey : Felt) (note : NoteKey)
      (amount : U128)
  | withdraw (enc : EncUserAddr) (toAddr token : ContractAddress) (amount : U128)
  | invoke (input : InvokeInput)
  | invokeWithComputation (input : InvokeInput)

/-- The storage address of a slot, as a felt. -/
def Slot.address (sn : Starknet) (s : Slot) : Felt := storagePathToFelt252 sn s.var (s.key sn)

/-- The server actions of a block. -/
def Block.serverActions (sn : Starknet) : Block → List ServerAction
  | setViewingKey user _ publicKey enc =>
    [toWriteOnceAction (Slot.address sn (.publicKey user)) publicKey,
      toWriteOnceAction (Slot.address sn (.encPrivateKey user)) enc,
      .emitViewingKeySet ⟨user, publicKey, enc⟩]
  | openChannel channel senderPrivateKey index outgoing info =>
    [.append ⟨channel.recipientAddr, info⟩,
      toWriteOnceAction (Slot.address sn (.channelExists channel)) true,
      toWriteOnceAction
        (Slot.address sn (.outgoingChannel channel.senderAddr senderPrivateKey index)) outgoing]
  | openSubchannel _ subchannel index info =>
    [toWriteOnceAction (Slot.address sn (.subchannelToken subchannel.key index)) info,
      toWriteOnceAction (Slot.address sn (.subchannelExists subchannel)) true]
  | createEncNote creation _ _ packedValue =>
    [toWriteOnceAction (Slot.address sn (.note creation.note)) packedValue,
      .emitEncNoteCreated ⟨creation.note.id sn, packedValue⟩]
  | createOpenNote creation enc =>
    [toWriteOnceAction (Slot.address sn (.note creation.note)) (openNote creation.note.token),
      .emitOpenNoteCreated ⟨enc, creation.note.token, creation.note.id sn⟩]
  | deposit user token amount =>
    [.transferFrom ⟨user, token, amount⟩, .emitDeposit ⟨user, token, amount⟩]
  | useNote _ privateKey _ note _ =>
    [toWriteOnceAction (Slot.address sn (.nullifier note privateKey)) true,
      .emitNoteUsed ⟨(Slot.nullifier note privateKey).key sn⟩]
  | withdraw enc toAddr token amount =>
    [.transferTo ⟨toAddr, token, amount⟩, .emitWithdrawal ⟨enc, toAddr, token, amount⟩]
  | invoke input => [.invoke input]
  | invokeWithComputation input => [.invokeWithComputation input]

/-- A note creation follows an existing subchannel and the previous note. -/
structure NoteCreation.Enabled (sn : Starknet) (D : Domain) (L : Ledger) (c : NoteCreation) :
    Prop where
  recipient_ne : c.recipientAddr ≠ 0
  token_ne : c.note.token ≠ 0
  key : c.note.channelKey = sn.computeChannelKey c.senderAddr c.senderPrivateKey c.recipientAddr
    c.recipientPublicKey
  key_covered : channelKeySpan c.senderAddr c.senderPrivateKey c.recipientAddr
    c.recipientPublicKey ∈ D.spans
  subchannel : L (.subchannelExists c.subchannel) 0 ≠ 0
  previous : c.note.index = 0 ∨ L (.note { c.note with index := c.note.index - 1 }) 0 ≠ 0

/-- What was checked of the ledger when the block was compiled. -/
inductive Enabled (sn : Starknet) (D : Domain) (L : Ledger) : Block → Prop
  | setViewingKey {user : ContractAddress} {privateKey publicKey : Felt} {enc : EncPrivateKey}
      (hnonzero : privateKey ≠ 0) (hcanonical : isCanonicalKey privateKey)
      (hderived : sn.derivePublicKey privateKey = .ok publicKey) :
      Enabled sn D L (.setViewingKey user privateKey publicKey enc)
  | openChannel {channel : Channel} {senderPrivateKey : Felt} {index : Usize}
      {outgoing : EncOutgoingChannelInfo} {info : EncChannelInfo}
      (hsender : L (.publicKey channel.senderAddr) 0 ≠ 0)
      (hauthenticated : sn.derivePublicKey senderPrivateKey =
        .ok (L (.publicKey channel.senderAddr) 0))
      (hnonzero : channel.recipientAddr ≠ 0)
      (hrecipient : L (.publicKey channel.recipientAddr) 0 = channel.recipientPublicKey)
      (hregistered : channel.recipientPublicKey ≠ 0)
      (hprevious : index = 0 ∨
        L (.outgoingChannel channel.senderAddr senderPrivateKey (index - 1)) 0 ≠ 0)
      (hkey : channel.key = sn.computeChannelKey channel.senderAddr senderPrivateKey
        channel.recipientAddr channel.recipientPublicKey)
      (hcovered : channelKeySpan channel.senderAddr senderPrivateKey channel.recipientAddr
        channel.recipientPublicKey ∈ D.spans)
      (hinfo : ∃ random, sn.encryptChannelInfo random channel.recipientPublicKey channel.key
        channel.senderAddr = .ok info) :
      Enabled sn D L (.openChannel channel senderPrivateKey index outgoing info)
  | openSubchannel {senderAddr : ContractAddress} {subchannel : Subchannel} {index : Usize}
      {salt : Felt} (htoken : subchannel.token ≠ 0)
      (hchannel : L (.channelExists ⟨subchannel.key, senderAddr, subchannel.recipientAddr,
        subchannel.recipientPublicKey⟩) 0 ≠ 0)
      (hprevious : index = 0 ∨ L (.subchannelToken subchannel.key (index - 1)) 0 ≠ 0) :
      Enabled sn D L (.openSubchannel senderAddr subchannel index
        (sn.encryptSubchannelInfo subchannel.key index subchannel.token salt))
  | createEncNote {creation : NoteCreation} {salt amount : U128} {packedValue : Felt}
      (hcreation : creation.Enabled sn D L) (hsmall : openNoteSalt < salt)
      (hlarge : salt < twoPow120)
      (hpacked : sn.encNotePackedValue creation.note.channelKey creation.note.token
        creation.note.index salt amount = .ok packedValue) :
      Enabled sn D L (.createEncNote creation salt amount packedValue)
  | createOpenNote {creation : NoteCreation} {enc : EncUserAddr}
      (hcreation : creation.Enabled sn D L) :
      Enabled sn D L (.createOpenNote creation enc)
  | deposit {user token : ContractAddress} {amount : U128} (hamount : amount ≠ 0) :
      Enabled sn D L (.deposit user token amount)
  | useNote {owner : ContractAddress} {privateKey publicKey : Felt} {note : NoteKey}
      {amount : U128} (hcanonical : isCanonicalKey privateKey)
      (hderived : sn.derivePublicKey privateKey = .ok publicKey)
      (hsubchannel :
        L (.subchannelExists ⟨note.channelKey, owner, publicKey, note.token⟩) 0 ≠ 0)
      (hnote : L (.note note) 0 ≠ 0)
      (hdecoded : sn.decodeNoteAmount (L (.note note) 0) note.channelKey note.token note.index =
        .ok amount)
      (hamount : amount ≠ 0) :
      Enabled sn D L (.useNote owner privateKey publicKey note amount)
  | withdraw {enc : EncUserAddr} {toAddr token : ContractAddress} {amount : U128}
      (hto : toAddr ≠ 0) : Enabled sn D L (.withdraw enc toAddr token amount)
  | invoke {input : InvokeInput} : Enabled sn D L (.invoke input)
  | invokeWithComputation {input : InvokeInput} : Enabled sn D L (.invokeWithComputation input)

section Mono

variable {sn : Starknet} {D : Domain} {L L' : Ledger}

theorem NoteCreation.Enabled.mono {c : NoteCreation} (h : c.Enabled sn D L) (hlater : Later L L') :
    c.Enabled sn D L' where
  recipient_ne := h.recipient_ne
  token_ne := h.token_ne
  key := h.key
  key_covered := h.key_covered
  subchannel := hlater.head_ne_zero h.subchannel
  previous := h.previous.imp_right hlater.head_ne_zero

/-- An open note that awaits its amount decodes to zero. -/
theorem head_ne_openNotePackedValue {n : NoteKey} {amount : U128} {packedValue : Felt}
    (hdecoded : sn.decodeNoteAmount packedValue n.channelKey n.token n.index = .ok amount)
    (hamount : amount ≠ 0) : packedValue ≠ openNotePackedValue := by
  rintro rfl
  rw [decodeNoteAmount_pack_open sn pack_open_zero, Except.ok.injEq] at hdecoded
  exact hamount hdecoded.symm

/-- A block that was enabled stays enabled. -/
theorem Enabled.mono {b : Block} (h : Enabled sn D L b) (hlater : Later L L') :
    Enabled sn D L' b := by
  -- Checked records are written ones: only an open note without its amount could
  -- change, and no check accepts such a note.
  cases h with
  | setViewingKey hnonzero hcanonical hderived => exact .setViewingKey hnonzero hcanonical hderived
  | openChannel hsender hauthenticated hnonzero hrecipient hregistered hprevious hkey hcovered
      hinfo =>
    have hsame := hlater.record_eq_of_not_note hsender (by simp)
    have hsame' := hlater.record_eq_of_not_note (hrecipient ▸ hregistered) (by simp)
    refine .openChannel ?_ ?_ hnonzero ?_ hregistered (hprevious.imp_right hlater.head_ne_zero)
      hkey hcovered hinfo
    · rwa [hsame]
    · rwa [hsame]
    · rwa [hsame']
  | openSubchannel htoken hchannel hprevious =>
    exact .openSubchannel htoken (hlater.head_ne_zero hchannel)
      (hprevious.imp_right hlater.head_ne_zero)
  | createEncNote hcreation hsmall hlarge hpacked =>
    exact .createEncNote (hcreation.mono hlater) hsmall hlarge hpacked
  | createOpenNote hcreation => exact .createOpenNote (hcreation.mono hlater)
  | deposit hamount => exact .deposit hamount
  | useNote hcanonical hderived hsubchannel hnote hdecoded hamount =>
    have hsame := hlater.record_eq hnote (head_ne_openNotePackedValue hdecoded hamount)
    exact .useNote hcanonical hderived (hlater.head_ne_zero hsubchannel) (by rwa [hsame])
      (by rwa [hsame]) hamount
  | withdraw hto => exact .withdraw hto
  | invoke => exact .invoke
  | invokeWithComputation => exact .invokeWithComputation

end Mono

/-! ### Writing -/

/-- The records a block writes. -/
def Block.puts : Block → List (Slot × List Felt)
  | setViewingKey user _ publicKey enc =>
    [(.publicKey user, serialize publicKey), (.encPrivateKey user, serialize enc)]
  | openChannel channel senderPrivateKey index outgoing _ =>
    [(.channelExists channel, serialize true),
      (.outgoingChannel channel.senderAddr senderPrivateKey index, serialize outgoing)]
  | openSubchannel _ subchannel index info =>
    [(.subchannelToken subchannel.key index, serialize info),
      (.subchannelExists subchannel, serialize true)]
  | createEncNote creation _ _ packedValue => [(.note creation.note, serialize packedValue)]
  | createOpenNote creation _ =>
    [(.note creation.note, serialize (openNote creation.note.token))]
  | useNote _ privateKey _ note _ => [(.nullifier note privateKey, serialize true)]
  | deposit _ _ _ | withdraw _ _ _ _ | invoke _ | invokeWithComputation _ => []

/-- The ledger after a block. -/
def Block.write (b : Block) (L : Ledger) : Ledger :=
  b.puts.foldl (fun L p => Function.update L p.1 (record p.2)) L

/-- The vectors after a block. -/
def Block.append (channels : ContractAddress → List EncChannelInfo) :
    Block → ContractAddress → List EncChannelInfo
  | openChannel channel _ _ _ info =>
    Function.update channels channel.recipientAddr (channels channel.recipientAddr ++ [info])
  | _ => channels

/-- The records a block writes are blank, and start with a non-zero word. -/
def Block.Fresh (b : Block) (L : Ledger) : Prop :=
  ∀ p ∈ b.puts, L p.1 = 0 ∧ p.2.headD 0 ≠ 0

namespace Block

variable {b : Block} {L L' : Ledger} {s : Slot} {value : List Felt}

theorem length_le_size {p : Slot × List Felt} (h : p ∈ b.puts) : p.2.length ≤ p.1.var.size := by
  cases b <;> simp only [puts, List.mem_cons, List.not_mem_nil, or_false] at h
  case setViewingKey | openChannel | openSubchannel =>
    rcases h with rfl | rfl <;> simp [Slot.var, StorageVar.size]
  case createEncNote | createOpenNote | useNote =>
    subst h
    simp [Slot.var, StorageVar.size]

/-- Each written slot holds the record written to it. -/
theorem write_of_mem (h : (s, value) ∈ b.puts) : b.write L s = record value := by
  cases b <;> simp only [puts, List.mem_cons, List.not_mem_nil, or_false, Prod.mk.injEq] at h
  case setViewingKey | openChannel | openSubchannel =>
    rcases h with ⟨rfl, rfl⟩ | ⟨rfl, rfl⟩ <;> simp [write, puts]
  case createEncNote | createOpenNote | useNote =>
    obtain ⟨rfl, rfl⟩ := h
    simp [write, puts]

theorem write_of_not_mem (h : ∀ value, (s, value) ∉ b.puts) : b.write L s = L s := by
  unfold write
  generalize b.puts = puts at h ⊢
  induction puts generalizing L with
  | nil => rfl
  | cons p rest ih =>
    have hne : s ≠ p.1 := by
      rintro rfl
      exact h p.2 List.mem_cons_self
    rw [List.foldl_cons, ih (fun value hmem => h value (List.mem_cons_of_mem p hmem)),
      Function.update_of_ne hne]

/-- A block leaves the records alone that are there. -/
theorem write_of_ne_zero (hfresh : b.Fresh L) (h : L s ≠ 0) : b.write L s = L s :=
  write_of_not_mem fun _ hmem => h (hfresh _ hmem).1

theorem write_of_head_ne_zero (hfresh : b.Fresh L) (h : L s 0 ≠ 0) : b.write L s = L s :=
  write_of_ne_zero hfresh fun hzero => h (congrFun hzero 0)

/-- A used slot was used before the block, or the block wrote it. -/
theorem mem_puts_or_eq (b : Block) (L : Ledger) (s : Slot) :
    (∃ value, (s, value) ∈ b.puts ∧ b.write L s = record value) ∨ b.write L s = L s := by
  by_cases h : ∃ value, (s, value) ∈ b.puts
  · obtain ⟨value, hmem⟩ := h
    exact Or.inl ⟨value, hmem, write_of_mem hmem⟩
  · exact Or.inr (write_of_not_mem (not_exists.mp h))

theorem later_write (hfresh : b.Fresh L) : Later L (b.write L) :=
  fun _ hs => Or.inl (write_of_ne_zero hfresh hs)

/-- The same block keeps two ledgers in order. -/
theorem later_write_both (b : Block) (h : Later L L') : Later (b.write L) (b.write L') := by
  intro s hs
  rcases b.mem_puts_or_eq L s with ⟨value, hmem, hvalue⟩ | hsame
  · left
    rw [hvalue, write_of_mem hmem]
  · by_cases hput : ∃ value, (s, value) ∈ b.puts
    · obtain ⟨value, hmem⟩ := hput
      left
      rw [write_of_mem hmem, write_of_mem hmem]
    · rw [write_of_not_mem (not_exists.mp hput)] at hs ⊢
      rw [write_of_not_mem (not_exists.mp hput)]
      exact h s hs

end Block

/-! ### Flow of value -/

/-- An amount in one token. -/
def amountOf (token : ContractAddress) (amount : U128) (t : ContractAddress) : ℤ :=
  if t = token then amount.val else 0

/-- What a block adds to the running balance of its list. -/
def Block.credit : Block → ContractAddress → ℤ
  | deposit _ token amount => amountOf token amount
  | useNote _ _ _ note amount => amountOf note.token amount
  | createEncNote creation _ amount _ => -amountOf creation.note.token amount
  | withdraw _ _ token amount => -amountOf token amount
  | setViewingKey _ _ _ _ | openChannel _ _ _ _ _ | openSubchannel _ _ _ _ | createOpenNote _ _
  | invoke _ | invokeWithComputation _ => 0

/-! ### Moves -/

/-- A block, or an open note that receives its amount. -/
inductive Move
  | block (b : Block)
  | fill (note : NoteKey) (amount : U128)

/-- What a move adds to the tokens the pool holds. -/
def Move.held : Move → ContractAddress → ℤ
  | block (.deposit _ token amount) => amountOf token amount
  | block (.withdraw _ _ token amount) => -amountOf token amount
  | block _ => 0
  | fill note amount => amountOf note.token amount

/-- What a move adds to the running balance. -/
def Move.credit : Move → ContractAddress → ℤ
  | block b => b.credit
  | fill _ _ => 0

/-- What a move adds to the value of the notes. -/
def Move.debt : Move → ContractAddress → ℤ
  | block (.useNote _ _ _ note amount) => -amountOf note.token amount
  | block (.createEncNote creation _ amount _) => amountOf creation.note.token amount
  | block _ => 0
  | fill note amount => amountOf note.token amount

/-- Value is conserved by each move. -/
theorem Move.held_eq (m : Move) (t : ContractAddress) : m.held t = m.credit t + m.debt t := by
  cases m with
  | fill note amount => simp [held, credit, debt]
  | block b => cases b <;> simp [held, credit, debt, Block.credit]

/-- A block takes one book to the next. -/
structure Block.Applies (sn : Starknet) (D : Domain) (b : Block) (B B' : Book) : Prop where
  enabled : Enabled sn D B.ledger b
  covered : ∀ p ∈ b.puts, p.1.Covered D
  fresh : b.Fresh B.ledger
  ledger : B'.ledger = b.write B.ledger
  channels : B'.channels = b.append B.channels

/-- An open note receives its amount. -/
structure Fills (note : NoteKey) (amount : U128) (B B' : Book) : Prop where
  awaits : B.ledger (.note note) 0 = openNotePackedValue
  amount_ne : amount ≠ 0
  packed : pack openNoteSalt amount = .ok (B'.ledger (.note note) 0)
  rest : ∀ j ≠ 0, B'.ledger (.note note) j = B.ledger (.note note) j
  others : ∀ s, s ≠ .note note → B'.ledger s = B.ledger s
  channels : B'.channels = B.channels

/-- One move of the book. -/
def Move.Step (sn : Starknet) (D : Domain) : Move → Book → Book → Prop
  | block b => b.Applies sn D
  | fill note amount => Fills note amount

variable {sn : Starknet} {D : Domain} {B B' : Book}

theorem Fills.later {note : NoteKey} {amount : U128} (h : Fills note amount B B') :
    Later B.ledger B'.ledger := by
  intro s hs
  by_cases hnote : s = .note note
  · subst hnote
    exact Or.inr ⟨⟨note, rfl⟩, h.awaits, ⟨amount, h.amount_ne, h.packed⟩, h.rest⟩
  · exact Or.inl (h.others s hnote)

/-- A move leads to a later ledger. -/
theorem Move.Step.later {m : Move} (h : m.Step sn D B B') : Later B.ledger B'.ledger := by
  cases m with
  | block b =>
    have happlies : b.Applies sn D B B' := h
    rw [happlies.ledger]
    exact Block.later_write happlies.fresh
  | fill note amount => exact Fills.later h

/-- A move only appends to the vectors. -/
theorem Move.Step.channels_prefix {m : Move} (h : m.Step sn D B B') (recipient : ContractAddress) :
    B.channels recipient <+: B'.channels recipient := by
  cases m with
  | fill note amount =>
    have hfills : Fills note amount B B' := h
    rw [hfills.channels]
  | block b =>
    have happlies : b.Applies sn D B B' := h
    rw [happlies.channels]
    cases b with
    | openChannel channel senderPrivateKey index outgoing info =>
      by_cases hto : recipient = channel.recipientAddr
      · subst hto
        rw [Block.append, Function.update_self]
        exact List.prefix_append _ _
      · rw [Block.append, Function.update_of_ne hto]
    | _ => exact List.prefix_refl _

end PrivacyPool
