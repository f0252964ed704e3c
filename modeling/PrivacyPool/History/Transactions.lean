import PrivacyPool.Base.AddressMap
import PrivacyPool.Base.Hex
import PrivacyPool.History.Notes

/-!
# Coordinated backward history scan

`history/transactions.rs`: a page of the history of a user. For each block of notes the
events of the block are fetched and grouped by transaction, then the withdrawals between
this block and the one before it. The budget is drawn as the page goes on; a page ends when
it is full, when the budget is used up, or when no notes are left.

## Main definitions

* `EventLog`, `Snapshot` — the events of the pool, and the view that a request is pinned to
* `HistoryTransaction` — the events of a transaction, grouped for display
* `processNextBlock` — one block of notes
* `fetchTransactions` — one page
-/

namespace PrivacyPool.History

open Discovery HashMap

/-! ### Events -/

/-- `Deposit` -/
structure DepositEvent where
  userAddress : Felt
  token : Felt
  amount : ℕ
  deriving DecidableEq, Repr

/-- `Withdrawal`, without the encrypted user. -/
structure WithdrawalEvent where
  toAddress : Felt
  token : Felt
  amount : ℕ
  deriving DecidableEq, Repr

/-- `EncNoteCreated` -/
structure EncNoteCreatedEvent where
  noteId : Felt
  packedValue : Felt
  deriving DecidableEq, Repr

/-- `OpenNoteDeposited` -/
structure OpenNoteDepositedEvent where
  depositor : Felt
  token : Felt
  noteId : Felt
  amount : ℕ
  deriving DecidableEq, Repr

/-- `ViewingKeySet`, without the encrypted key. -/
structure ViewingKeySetEvent where
  userAddress : Felt
  publicKey : Felt
  deriving DecidableEq, Repr

/-- The events that the history is made of. -/
inductive PrivacyPoolEventContent
  | deposit (event : DepositEvent)
  | withdrawal (event : WithdrawalEvent)
  | encNoteCreated (event : EncNoteCreatedEvent)
  | openNoteDeposited (event : OpenNoteDepositedEvent)
  | viewingKeySet (event : ViewingKeySetEvent)
  deriving DecidableEq, Repr

/-- A typed event of the pool with its block. -/
structure PrivacyPoolEvent where
  blockNumber : ℕ
  transactionHash : Felt
  content : PrivacyPoolEventContent
  deriving DecidableEq, Repr

namespace PrivacyPoolEvent

/-- The note that an event creates, in the eyes of the history. -/
def createdNoteId (event : PrivacyPoolEvent) : Option Felt :=
  match event.content with
  | .encNoteCreated e => some e.noteId
  | .openNoteDeposited e => some e.noteId
  | _ => none

/-- A withdrawal to an address. -/
def isWithdrawalTo (event : PrivacyPoolEvent) (address : Felt) : Bool :=
  match event.content with
  | .withdrawal e => e.toAddress = address
  | _ => false

/-- A registration. -/
def isViewingKeySet (event : PrivacyPoolEvent) : Bool :=
  match event.content with
  | .viewingKeySet _ => true
  | _ => false

/-- A registration of a user. -/
def isViewingKeySetOf (event : PrivacyPoolEvent) (address : Felt) : Bool :=
  match event.content with
  | .viewingKeySet e => e.userAddress = address
  | _ => false

end PrivacyPoolEvent

/-- The events of the chain in their order. Those of the pre-confirmed block come by its tag
only, and a transaction is in one block. A block 0 says that the block is unavailable. -/
structure EventLog where
  events : List PrivacyPoolEvent
  preConfirmed : ℕ
  block_pos : ∀ event ∈ events, 0 < event.blockNumber
  block_eq : ∀ event ∈ events, ∀ event' ∈ events,
    event.transactionHash = event'.transactionHash → event.blockNumber = event'.blockNumber

/-- A block by its number, or the pre-confirmed one by its tag. -/
inductive BlockId
  | number (n : ℕ)
  | preConfirmed
  deriving DecidableEq, Repr

/-- The storage and the events that a request reads, and the block that it is pinned to. A block
that is known by its number is confirmed. -/
structure Snapshot extends Backend where
  log : EventLog
  blockId : BlockId
  confirmed : ∀ n, blockId = .number n → n < log.preConfirmed

namespace Snapshot

variable (sn : Starknet) (snapshot : Snapshot)

/-- The number of a block. -/
def numberOf : BlockId → ℕ
  | .number n => n
  | .preConfirmed => snapshot.log.preConfirmed

/-- The number of the block of the snapshot. -/
def blockNumber : ℕ := snapshot.numberOf snapshot.blockId

/-- Whether an event is seen under a block id. -/
def sees (id : BlockId) (event : PrivacyPoolEvent) : Bool :=
  id = .preConfirmed || event.blockNumber ≠ snapshot.log.preConfirmed

/-- All events of a block but those of `ViewingKeySet`. -/
def getBlockEvents (id : BlockId) : List PrivacyPoolEvent :=
  snapshot.log.events.filter fun event =>
    event.blockNumber = snapshot.numberOf id && snapshot.sees id event && !event.isViewingKeySet

/-- The withdrawals to an address in a range of blocks. -/
def getWithdrawalEvents (address : Felt) (fromBlock : ℕ) (toBlock : BlockId) :
    List PrivacyPoolEvent :=
  snapshot.log.events.filter fun event =>
    fromBlock ≤ event.blockNumber && event.blockNumber ≤ snapshot.numberOf toBlock &&
      snapshot.sees toBlock event && event.isWithdrawalTo address

/-- The registrations of a user in a block. -/
def getViewingKeySetEvents (userAddress : Felt) (block : BlockId) : List PrivacyPoolEvent :=
  snapshot.log.events.filter fun event =>
    event.blockNumber = snapshot.numberOf block && snapshot.sees block event &&
      event.isViewingKeySetOf userAddress

/-- The public key of a user, with the block of its last update. -/
def getPublicKeyWithBlock (userAddress : Felt) : StorageResult :=
  ⟨snapshot.getPublicKey sn userAddress,
    snapshot.lastUpdateBlock (sn.entry .publicKey userAddress).val⟩

end Snapshot

/-! ### Transactions -/

/-- A transaction's events grouped and typed for history display. -/
structure HistoryTransaction where
  blockNumber : ℕ
  transactionHash : Felt
  notes : List HistoryNote := []
  deposits : List DepositEvent := []
  withdrawals : List WithdrawalEvent := []
  openNoteDeposits : List OpenNoteDepositedEvent := []
  /-- Present only on the registration transaction at the end of the history. -/
  registeredPubkey : Option Felt := none
  deriving DecidableEq, Repr

/-- A transaction with one more note. -/
def HistoryTransaction.addNote (note : HistoryNote) (tx : HistoryTransaction) :
    HistoryTransaction :=
  { tx with notes := tx.notes ++ [note] }

/-- A transaction with one more withdrawal. -/
def HistoryTransaction.addWithdrawal (event : PrivacyPoolEvent) (tx : HistoryTransaction) :
    HistoryTransaction :=
  match event.content with
  | .withdrawal withdrawal => { tx with withdrawals := tx.withdrawals ++ [withdrawal] }
  | _ => tx

/-- The auxiliary events of a transaction. Deposits of others are left out; withdrawals are not
filtered, since the user that withdraws is encrypted. -/
def HistoryTransaction.attach (userAddress : Felt) (tx : HistoryTransaction)
    (event : PrivacyPoolEvent) : HistoryTransaction :=
  match event.content with
  | .deposit deposit =>
    if deposit.userAddress = userAddress then { tx with deposits := tx.deposits ++ [deposit] }
    else tx
  | .withdrawal withdrawal => { tx with withdrawals := tx.withdrawals ++ [withdrawal] }
  | .openNoteDeposited openNote =>
    { tx with openNoteDeposits := tx.openNoteDeposits ++ [openNote] }
  | .encNoteCreated _ | .viewingKeySet _ => tx

/-- Transactions by their hash. -/
abbrev Transactions := List (Felt × HistoryTransaction)

/-- `entry(hash).or_insert_with(new)`, and a change to the entry. -/
def Transactions.upsert (transactions : Transactions) (blockNumber : ℕ) (transactionHash : Felt)
    (f : HistoryTransaction → HistoryTransaction) : Transactions :=
  modify (orInsert transactions transactionHash { blockNumber, transactionHash }) transactionHash f

/-- What a page has while it is put together. -/
structure HistoryState where
  scan : ScanState
  transactions : Transactions := []

/-- Cost for the events of a block. -/
def costBlockEventsQuery : ℕ := 10

/-- The blocks that one chunk of an event range covers. -/
def eventsCostChunkSize : ℕ := 1024

/-- Cost per chunk of an event range. -/
def costEventsChunk : ℕ := 10

/-- `try_consume`: a draw that is paid for in full, or not made. -/
def ScanState.tryConsume (cost : ℕ) (st : ScanState) : Except DiscoveryError ScanState :=
  if cost ≤ st.budget then .ok { st with budget := st.budget - cost }
  else .error (.insufficientBudget cost st.budget)

variable (sn : Starknet) (snapshot : Snapshot) (userAddress : Felt)

/-- The events of a block by its number, or those of the pre-confirmed block. -/
def eventsOfBlock (blockNumber : ℕ) : List PrivacyPoolEvent :=
  let blockEvents := snapshot.getBlockEvents (.number blockNumber)
  if blockEvents = [] then snapshot.getBlockEvents .preConfirmed else blockEvents

/-- The transactions of the note creations among events, by note id. -/
def noteIdToTxHash (blockEvents : List PrivacyPoolEvent) : List (Felt × Felt) :=
  blockEvents.foldl (fun hashes event => match event.createdNoteId with
    | some noteId => insert hashes noteId event.transactionHash
    | none => hashes) []

/-- Notes are added to the transactions that created them. -/
def insertNotes (hashes : List (Felt × Felt)) (blockNumber : ℕ) (notes : List HistoryNote)
    (transactions : Transactions) : Transactions :=
  notes.foldl (fun transactions note => match AddressMap.get hashes note.noteId with
    | some transactionHash =>
      transactions.upsert blockNumber transactionHash (HistoryTransaction.addNote note)
    | none => transactions) transactions

/-- Auxiliary events are attached to the transactions that are there. -/
def attachEvents (blockEvents : List PrivacyPoolEvent) (transactions : Transactions) :
    Transactions :=
  blockEvents.foldl (fun transactions event => modify transactions event.transactionHash
    fun tx => tx.attach userAddress event) transactions

/-- Fetch all events of a block and group them into transactions. -/
def fetchAggregatedBlockEvents (blockNumber : ℕ) (notes : List HistoryNote) (st : HistoryState) :
    Except DiscoveryError HistoryState := do
  let scan ← st.scan.tryConsume costBlockEventsQuery
  let blockEvents := eventsOfBlock snapshot blockNumber
  let transactions := insertNotes (noteIdToTxHash blockEvents) blockNumber notes st.transactions
  return { scan, transactions := attachEvents userAddress blockEvents transactions }

/-- The cost of an event range that is not empty. -/
def eventsCost (fromBlock toBlock : ℕ) : ℕ :=
  (toBlock - fromBlock + 1 + eventsCostChunkSize - 1) / eventsCostChunkSize * costEventsChunk

/-- Withdrawals are added to their transactions. -/
def insertWithdrawals (events : List PrivacyPoolEvent) (transactions : Transactions) :
    Transactions :=
  events.foldl (fun transactions event =>
    transactions.upsert event.blockNumber event.transactionHash
      (HistoryTransaction.addWithdrawal event)) transactions

/-- Fetch the withdrawals to the user in a range of blocks, up to the snapshot by default. -/
def fetchAggregatedWithdrawalEvents (fromBlock : ℕ) (toBlock : Option ℕ) (st : HistoryState) :
    Except DiscoveryError HistoryState :=
  let toBlockId := toBlock.elim snapshot.blockId .number
  let toBlockNumber := snapshot.numberOf toBlockId
  if toBlockNumber < fromBlock then .ok st
  else do
    let scan ← st.scan.tryConsume (eventsCost fromBlock toBlockNumber)
    let events := snapshot.getWithdrawalEvents userAddress fromBlock toBlockId
    return { scan, transactions := insertWithdrawals events st.transactions }

/-! ### Pages -/

/-- Drain blocks until one is not above the upper bound. Every call but the last drains a note,
so the notes that are left bound the fuel. -/
def nextBlockBelow (upperBound : ℕ) : ℕ → ScanState →
    Except DiscoveryError (Option (ℕ × List HistoryNote)) × ScanState
  | 0, st => (.ok none, st)
  | fuel + 1, st =>
    match nextBlock sn snapshot.toBackend st with
    | (.ok (some (blockNumber, notes)), st) =>
      if blockNumber ≤ upperBound then (.ok (some (blockNumber, notes)), st)
      else nextBlockBelow upperBound fuel st
    | (.ok none, st) => (.ok none, st)
    | (.error e, st) => (.error e, st)

/-- Process one block: drain its notes, fetch its events, fetch the withdrawals in the gap above
it. What was drained stays so when a fetch fails. -/
def processNextBlock (st : HistoryState) : Except DiscoveryError (Option ℕ) × HistoryState :=
  let previousBlockNumber := st.scan.cursor.beginBlockNumber.getD snapshot.blockNumber
  match nextBlockBelow sn snapshot previousBlockNumber (st.scan.cursor.remaining + 1) st.scan with
  | (.error e, scan) => (.error e, { st with scan })
  | (.ok none, scan) => (.ok none, { st with scan })
  -- The events of the block, then the withdrawals between it and the previous one.
  | (.ok (some (blockNumber, notes)), scan) =>
    match fetchAggregatedBlockEvents snapshot userAddress blockNumber notes { st with scan } with
    | .error e => (.error e, { st with scan })
    | .ok st =>
      match fetchAggregatedWithdrawalEvents snapshot userAddress (blockNumber + 1)
        st.scan.cursor.beginBlockNumber st with
      | .error e => (.error e, st)
      | .ok st => (.ok (some blockNumber), st)

/-- The cursor after a block that was processed. -/
def HistoryState.advance (st : HistoryState) (blockNumber : ℕ) : HistoryState :=
  { st with scan := { st.scan with
    cursor := { st.scan.cursor with beginBlockNumber := some (blockNumber - 1) } } }

/-- How the loop of a page has ended: with a full page, with all notes, or without budget. -/
inductive LoopEnd
  | full
  | scannerComplete
  | budgetError (error : DiscoveryError)
  deriving DecidableEq, Repr

/-- The loop of a page. Every round but the last drains a note, so the notes that are left
bound the fuel. -/
def scanBlocks (maxTransactions : ℕ) : ℕ → HistoryState →
    Except DiscoveryError LoopEnd × HistoryState
  | 0, st => (.ok .full, st)
  | fuel + 1, st =>
    if maxTransactions ≤ st.transactions.length then (.ok .full, st)
    else match processNextBlock sn snapshot userAddress st with
      | (.ok (some blockNumber), st) => scanBlocks maxTransactions fuel (st.advance blockNumber)
      | (.ok none, st) => (.ok .scannerComplete, st)
      -- A budget that runs out ends the page; every other error fails it.
      | (.error (.insufficientBudget needed available), st) =>
        (.ok (.budgetError (.insufficientBudget needed available)), st)
      | (.error e, st) => (.error e, st)

/-- The transactions that a page keeps: those of an iteration that did not complete are
dropped. -/
def retained (st : HistoryState) : LoopEnd → List HistoryTransaction
  | .scannerComplete => st.transactions.map Prod.snd
  | .full | .budgetError _ => match st.scan.cursor.beginBlockNumber with
    | some bound => (st.transactions.map Prod.snd).filter fun tx => bound < tx.blockNumber
    | none => []

/-- The registration of the user as a transaction, unless its block is unavailable. -/
def fetchRegistration (scan : ScanState) : Except DiscoveryError (Option HistoryTransaction) := do
  let scan ← scan.tryConsume costPublicKey
  let storageResult := snapshot.getPublicKeyWithBlock sn userAddress
  let blockNumber := storageResult.lastUpdateBlock
  if blockNumber = 0 then return none
  else
    let _ ← scan.tryConsume costEventsChunk
    match snapshot.getViewingKeySetEvents userAddress (.number blockNumber) with
    | event :: _ =>
      return some { blockNumber, transactionHash := event.transactionHash
                    registeredPubkey := some storageResult.value }
    | [] => throw (.eventError ("ViewingKeySet event not found at block " ++ toString blockNumber ++
        " for user " ++ Hex.writeText userAddress.val))

/-- The transactions of a page with the registration: whether the history is complete, and the
error of the budget. -/
def withRegistration (maxTransactions : ℕ) (st : HistoryState) (loopEnd : LoopEnd) :
    Except DiscoveryError (List HistoryTransaction × Bool × Option DiscoveryError) :=
  let result := retained st loopEnd
  match loopEnd with
  | .scannerComplete =>
    -- The registration is added when the scan is over and the page has room for it.
    if result.length < maxTransactions then
      match fetchRegistration sn snapshot userAddress st.scan with
      | .ok registration => .ok (result ++ registration.toList, true, none)
      | .error (.insufficientBudget needed available) =>
        .ok (result, false, some (.insufficientBudget needed available))
      | .error e => .error e
    else .ok (result, false, none)
  | .full => .ok (result, false, none)
  | .budgetError e => .ok (result, false, some e)

/-- Fetch a page of transactions, from the newest block to the oldest, and the cursor of the
next page. -/
def fetchTransactions (cursor : HistoryCursor) (maxTransactions budget : ℕ) :
    Except DiscoveryError (List HistoryTransaction × HistoryCursor) := do
  let (loopEnd, st) := scanBlocks sn snapshot userAddress maxTransactions (cursor.remaining + 1)
    { scan := { cursor, budget } }
  let loopEnd ← loopEnd
  let (result, historyComplete, budgetError) ←
    withRegistration sn snapshot userAddress maxTransactions st loopEnd
  match result, budgetError with
  -- A page without a transaction reports that the budget ran out.
  | [], some e => throw e
  | result, _ =>
    return (result.insertionSort fun tx tx' => tx'.blockNumber ≤ tx.blockNumber,
      { st.scan.cursor with historyComplete })

end PrivacyPool.History
