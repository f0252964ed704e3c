import PrivacyPool.Sdk.PoolSimulator
import Mathlib.Data.List.Sort

/-!
# The action compiler

`compiler.ts`: the actions of a user become the client actions of the contract. Channels
and notes come from the registry and from discovery, notes are selected until no token has
a deficit, and the result is executed on the pool simulator, which gives the indices.

## Main definitions

* `resolveRecipientChannels`, `resolveNotes` — what the compiler takes from the registry
  and from discovery
* `transformToClientActions` — the client actions, in the order of their phases
* `Attempt`, `compile` — an attempt, and another one after a reorganisation, with what the
  first one has left running
-/

namespace PrivacyPool.Sdk

open Discovery Fallible HashMap

/-! ### Actions -/

/-- A subchannel to open. -/
structure OpenTokenChannelAction where
  recipient : Felt
  token : Felt
  deriving DecidableEq, Repr

/-- A deposit, which may name an open note. -/
structure DepositAction where
  token : Felt
  amount : ℤ
  noteId : Option NoteId := none
  deriving DecidableEq, Repr

/-- A note to use. -/
structure UseNoteAction where
  token : Felt
  note : Note
  deriving DecidableEq, Repr

/-- A note to create. -/
structure CreateNoteAction where
  recipient : Felt
  token : Felt
  /-- `Amount | Open`: none for an open note. -/
  amount : Option ℤ
  deriving DecidableEq, Repr

/-- A withdrawal. -/
structure WithdrawAction where
  recipient : Felt
  token : Felt
  amount : ℤ
  deriving DecidableEq, Repr

/-- Who takes what is left of a token, as a note or as a withdrawal. -/
structure SurplusAction where
  recipient : Felt
  token : Felt
  withdraw : Bool := false
  deriving DecidableEq, Repr

/-- What a call builder is given: the ids and tokens of the open notes, the withdrawals and
the address of the pool. -/
structure InvokeCalldataBuilderArgs where
  openNotes : List (Felt × Felt)
  withdrawals : List WithdrawAction
  poolAddress : Felt
  deriving DecidableEq, Repr

/-- `Actions`; the recipients of the channels to open are their actions. -/
structure Actions where
  setViewingKey : Bool := false
  openChannels : List Felt := []
  openTokenChannels : List OpenTokenChannelAction := []
  deposits : List DepositAction := []
  useNotes : List UseNoteAction := []
  createNotes : List CreateNoteAction := []
  withdraws : List WithdrawAction := []
  surpluses : Option (List SurplusAction) := none
  invoke : Option (InvokeCalldataBuilderArgs → InvokeExternalInput) := none
  computeAndInvoke : Option (InvokeCalldataBuilderArgs → ComputeAndInvokeInput) := none

/-! ### Options -/

/-- Whether a compile discovers what is missing, or anew. -/
inductive DiscoveryLevel
  | missing
  | refresh
  deriving DecidableEq, Repr

/-- `DiscoveryLevel | "all"` -/
inductive NotesDiscoveryLevel
  | level (level : DiscoveryLevel)
  | all
  deriving DecidableEq, Repr

/-- How many notes a compile selects: all of a token, or as many as it needs. -/
inductive AutoSelectionStrategy
  | all
  | naive
  deriving DecidableEq, Repr

/-- What a user knows of its channels and notes, with the cursor of the notes. -/
structure PrivateRegistry where
  channels : List (Felt × Channel) := []
  notes : List (Felt × List Note) := []
  cursor : Option NotesCursor := none
  deriving DecidableEq, Repr

/-- The options of a compile. -/
structure ExecuteOptions where
  autoRegister : Bool := false
  discoverNotes : Option NotesDiscoveryLevel := none
  discoverChannels : Option DiscoveryLevel := none
  autoSetup : Bool := false
  autoSelectNotes : Option AutoSelectionStrategy := none
  registry : Option PrivateRegistry := none
  registryConst : Bool := false

/-- The discovery provider, for the user at the block of the compile. -/
structure DiscoveryProvider where
  discoverNotes : Option NotesCursor → Option (List Felt) →
    Except CompileError (List (Felt × List Note) × NotesCursor)
  discoverChannels : RecipientsFilter → Except CompileError ChannelsResult

/-- What `generateRandom` and `generateRandom120` return, for each action by its position
among the actions of its kind. -/
structure Randomness where
  setViewingKey : Felt
  openChannel : ℕ → Felt × Felt
  openSubchannel : ℕ → Felt
  createNote : ℕ → Felt
  createNote120 : ℕ → ℕ
  withdraw : ℕ → Felt

/-! ### Channels -/

/-- The recipients that need a channel, in the order in which they are first named. -/
def getRecipientsNeeded (userAddress : Felt) (actions : Actions) : List Felt :=
  keys ((userAddress :: actions.openChannels ++ actions.openTokenChannels.map (·.recipient) ++
    actions.createNotes.map (·.recipient) ++
    (actions.surpluses.getD []).map (·.recipient)).foldl
      (fun m recipient => AddressMap.set m recipient true) [])

/-- All recipients have a channel with a key. -/
def allOpen (channels : Option (List (Felt × Channel))) (recipients : List Felt) : Bool :=
  recipients.all fun recipient =>
    (channels.bind fun channels => AddressMap.get channels recipient).any (·.key.isSome)

/-- The recipients of which the channels are discovered. -/
def recipientsToDiscover (actions : Actions) (options : ExecuteOptions)
    (registry : PrivateRegistry) (recipientsNeeded : List Felt) : List Felt :=
  if options.discoverChannels = none ∧ actions.openChannels = [] ∧ options.autoSetup = false then []
  else if options.discoverChannels = some .refresh then recipientsNeeded
  else recipientsNeeded.filter fun r => r ∉ keys registry.channels

/-- The total is only asked for when one of the discovered recipients has no channel. -/
def resolveRecipientChannels (provider : DiscoveryProvider) (actions : Actions)
    (options : ExecuteOptions) (registry : PrivateRegistry) (recipientsNeeded : List Felt) :
    Except CompileError ChannelsResult :=
  let recipients := recipientsToDiscover actions options registry recipientsNeeded
  if recipients = [] then .ok {}
  else do
    let result ← provider.discoverChannels (.only recipients)
    -- The total is needed only when a channel is still to be opened.
    if allOpen result.channels recipients then return { channels := result.channels }
    else
      match result.total with
      | some total => return { channels := result.channels, total := some total }
      | none =>
        let again ← provider.discoverChannels .totalOnly
        return { channels := result.channels, total := again.total }

/-! ### Balances -/

/-- `update(token, amount)` -/
def updateBalance (balances : List (Felt × ℤ)) (token : Felt) (amount : ℤ) : List (Felt × ℤ) :=
  AddressMap.set balances token ((AddressMap.get balances token).getD 0 + amount)

/-- A deposit into an open note does not count. -/
def depositBalance (balances : List (Felt × ℤ)) (d : DepositAction) :
    Except CompileError (List (Felt × ℤ)) := do
  require (0 < d.amount) .depositNotPositive
  return if d.noteId.isNone then updateBalance balances d.token d.amount else balances

/-- The balances with a used note. -/
def useNoteBalance (balances : List (Felt × ℤ)) (u : UseNoteAction) :
    Except CompileError (List (Felt × ℤ)) := do
  require (0 < u.note.amount) (.noteNotPositive u.note.id)
  return updateBalance balances u.token u.note.amount

/-- The balances with a withdrawal. -/
def withdrawBalance (balances : List (Felt × ℤ)) (w : WithdrawAction) :
    Except CompileError (List (Felt × ℤ)) := do
  require (0 < w.amount) .withdrawNotPositive
  return updateBalance balances w.token (-w.amount)

/-- An open note does not count. -/
def createNoteBalance (balances : List (Felt × ℤ)) (c : CreateNoteAction) :
    Except CompileError (List (Felt × ℤ)) :=
  match c.amount with
  | none => .ok balances
  | some amount => do
    require (0 < amount) (.createdNoteNotPositive c.token)
    return updateBalance balances c.token (-amount)

/-- The balances of the actions: inputs less outputs. -/
def actionBalances (actions : Actions) : Except CompileError (List (Felt × ℤ)) := do
  let balances ← actions.deposits.foldlM depositBalance []
  let balances ← actions.useNotes.foldlM useNoteBalance balances
  let balances ← actions.withdraws.foldlM withdrawBalance balances
  actions.createNotes.foldlM createNoteBalance balances

/-! ### Notes -/

/-- Whether all notes of a token are to be swept into a surplus. -/
def isSweeping (actions : Actions) (options : ExecuteOptions) (token : Felt) : Bool :=
  options.autoSelectNotes = some .all && actions.surpluses.any fun s => s.any (·.token = token)

/-- The tokens of which notes are discovered: those with a deficit and those to sweep, as
far as a refresh is asked for or the registry has no notes of them. -/
def tokensToDiscover (level : DiscoveryLevel) (actions : Actions) (options : ExecuteOptions)
    (registry : PrivateRegistry) (balances : List (Felt × ℤ)) : List Felt :=
  (balances.filter fun entry =>
    (entry.2 < 0 || isSweeping actions options entry.1) &&
      (level = .refresh || entry.1 ∉ keys registry.notes)).map Prod.fst

/-- The argument of `discoverNotes`, when it is called: tokens, or none for all of them. -/
def notesQuery (actions : Actions) (options : ExecuteOptions) (registry : PrivateRegistry)
    (balances : List (Felt × ℤ)) : Option (Option (List Felt)) :=
  match options.discoverNotes with
  | none => none
  | some .all => some none
  | some (.level level) =>
    let tokens := tokensToDiscover level actions options registry balances
    if tokens = [] then none else some (some tokens)

/-- The notes that are discovered replace those of the registry, token by token. -/
def discoverInto (provider : DiscoveryProvider) (cursor : Option NotesCursor)
    (tokens : Option (List Felt)) (registry : PrivateRegistry) :
    Except CompileError PrivateRegistry := do
  let (notes, cursor) ← provider.discoverNotes cursor tokens
  return { registry with
           notes := notes.foldl (fun m entry => AddressMap.set m entry.1 entry.2) registry.notes
           cursor := some cursor }

/-- What `resolveNotes` has at hand when it waits for `discoverNotes`, or goes on without. -/
structure PendingNotes where
  balances : List (Felt × ℤ)
  usedNoteIds : List (List Char)
  /-- The cursor and the tokens that `discoverNotes` is called with, if it is. -/
  query : Option (Option NotesCursor × Option (List Felt))
  deriving DecidableEq, Repr

/-- `resolveNotes` up to its call of `discoverNotes`, if there is something to resolve. -/
def startNotes (actions : Actions) (options : ExecuteOptions) (registry : PrivateRegistry) :
    Except CompileError (Option PendingNotes) :=
  -- Notes are resolved only when there is something to select or to put out.
  if actions.surpluses = none ∧ options.autoSelectNotes = none then .ok none
  else do
    let balances ← actionBalances actions
    return some {
      balances
      usedNoteIds := actions.useNotes.map fun u => u.note.id.toText
      query := (notesQuery actions options registry balances).map fun tokens =>
        (registry.cursor, tokens) }

/-- The registry after the discovery of notes. -/
def PendingNotes.discover (pending : PendingNotes) (provider : DiscoveryProvider)
    (registry : PrivateRegistry) : Except CompileError PrivateRegistry :=
  match pending.query with
  | none => .ok registry
  | some (cursor, tokens) => discoverInto provider cursor tokens registry

/-- Largest amount first, in the order of the list between equal amounts. -/
def sortedNotes (notes : List Note) : List Note :=
  notes.insertionSort fun a b => b.amount ≤ a.amount

/-- Select notes that are not used yet until the balance is covered, or all of them. The
selected notes, and the balance with them. -/
def selectNotes (all : Bool) (usedNoteIds : List (List Char)) :
    List Note → ℤ → List Note × ℤ
  | [], balance => ([], balance)
  | note :: notes, balance =>
    -- Notes that are used already are told by the text of their ids.
    if note.id.toText ∈ usedNoteIds then selectNotes all usedNoteIds notes balance
    -- The deficit is covered: unless all notes are wanted, this is the last one.
    else if 0 ≤ balance + note.amount ∧ all = false then ([note], balance + note.amount)
    else
      let (selected, balance) := selectNotes all usedNoteIds notes (balance + note.amount)
      (note :: selected, balance)

/-- The notes of the registry for a token, which start empty. -/
def PrivateRegistry.notesOf (registry : PrivateRegistry) (token : Felt) : List Note :=
  (AddressMap.get registry.notes token).getD []

/-- `registry.notes.get(token)`, which creates the entry. -/
def PrivateRegistry.readNotes (registry : PrivateRegistry) (token : Felt) : PrivateRegistry :=
  { registry with notes := AddressMap.set registry.notes token (registry.notesOf token) }

/-- The surplus action of a token. A deposit of the token gives its surplus to the user. -/
def surplusActionOf (userAddress : Felt) (actions : Actions) (token : Felt) :
    Option (SurplusAction × Actions) :=
  match (actions.surpluses.getD []).find? (·.token = token) with
  | some surplusAction => some (surplusAction, actions)
  | none =>
    if actions.deposits.any (·.token = token) then
      let surplusAction : SurplusAction := { recipient := userAddress, token }
      some (surplusAction,
        { actions with surpluses := some (actions.surpluses.getD [] ++ [surplusAction]) })
    else none

/-- A surplus becomes a withdrawal or a note. -/
def resolveSurplus (userAddress : Felt) (actions : Actions) (token : Felt) (balance : ℤ) :
    Except CompileError Actions := do
  let (surplusAction, actions) ←
    expect (surplusActionOf userAddress actions token) (.surplusWithoutAction balance token)
  if surplusAction.withdraw then
    return { actions with
      withdraws := actions.withdraws ++ [⟨surplusAction.recipient, token, balance⟩] }
  else
    return { actions with
      createNotes := actions.createNotes ++ [⟨surplusAction.recipient, token, some balance⟩] }

/-- Whether notes are selected for a token with this balance. -/
def selects (options : ExecuteOptions) (balance : ℤ) : Bool :=
  balance < 0 && options.autoSelectNotes.isSome || options.autoSelectNotes = some .all

/-- The notes that are selected for a token, and its balance with them. -/
def selectedFor (options : ExecuteOptions) (usedNoteIds : List (List Char))
    (registry : PrivateRegistry) (token : Felt) (balance : ℤ) : List Note × ℤ :=
  if selects options balance then
    selectNotes (options.autoSelectNotes = some .all) usedNoteIds
      (sortedNotes (registry.notesOf token)) balance
  else ([], balance)

/-- The actions and the registry once notes are selected for a token. -/
def selectInto (options : ExecuteOptions) (usedNoteIds : List (List Char))
    (state : Actions × PrivateRegistry) (entry : Felt × ℤ) : Actions × PrivateRegistry :=
  let (actions, registry) := state
  let token := entry.1
  let (selected, _) := selectedFor options usedNoteIds registry token entry.2
  ({ actions with useNotes := actions.useNotes ++ selected.map fun note => ⟨token, note⟩ },
    if selects options entry.2 then registry.readNotes token else registry)

/-- Resolve the deficit or the surplus of a token. -/
def resolveBalance (userAddress : Felt) (options : ExecuteOptions)
    (usedNoteIds : List (List Char)) (state : Actions × PrivateRegistry) (entry : Felt × ℤ) :
    Except CompileError (Actions × PrivateRegistry) := do
  let token := entry.1
  let (_, balance) := selectedFor options usedNoteIds state.2 token entry.2
  let (actions, registry) := selectInto options usedNoteIds state entry
  -- What the notes do not cover fails the compile, with the total of the registry in the message.
  require (0 ≤ balance) (.insufficientBalance token (-balance)
    ((registry.notesOf token).map (·.amount)).sum)
  if 0 < balance then
    let actions ← resolveSurplus userAddress actions token balance
    return (actions, registry)
  else return (actions, registry)

/-- `resolveNotes` from the answer of `discoverNotes` on: select notes, and turn what is left
over into outputs. -/
def PendingNotes.finish (pending : PendingNotes) (userAddress : Felt)
    (provider : DiscoveryProvider) (options : ExecuteOptions)
    (state : Actions × PrivateRegistry) : Except CompileError (Actions × PrivateRegistry) := do
  let registry ← pending.discover provider state.2
  pending.balances.foldlM (resolveBalance userAddress options pending.usedNoteIds)
    (state.1, registry)

/-- The actions and the registry as the loop over the balances leaves them, also when it
fails: what it has pushed and set stays. -/
def leaveBalances (userAddress : Felt) (options : ExecuteOptions)
    (usedNoteIds : List (List Char)) :
    List (Felt × ℤ) → Actions × PrivateRegistry → Actions × PrivateRegistry
  | [], state => state
  | entry :: balances, state =>
    match resolveBalance userAddress options usedNoteIds state entry with
    | .ok next => leaveBalances userAddress options usedNoteIds balances next
    | .error _ => selectInto options usedNoteIds state entry

/-- The actions and the registry as `resolveNotes` leaves them from the answer of
`discoverNotes` on, also when it fails. -/
def PendingNotes.leave (pending : PendingNotes) (userAddress : Felt)
    (provider : DiscoveryProvider) (options : ExecuteOptions)
    (state : Actions × PrivateRegistry) : Actions × PrivateRegistry :=
  match pending.discover provider state.2 with
  | .ok registry =>
    leaveBalances userAddress options pending.usedNoteIds pending.balances (state.1, registry)
  | .error _ => state

/-- A `resolveNotes` whose attempt is over, since the discovery of channels has met a
reorganisation: it goes on when its answer comes, with the actions that it shares with the
next attempt. -/
structure AbandonedNotes where
  pending : PendingNotes
  provider : DiscoveryProvider
  /-- The registry that it works on, unless it shares that of the next attempt. -/
  ownRegistry : Option PrivateRegistry
  /-- Whether its answer comes before that of the next attempt. -/
  early : Bool

/-- The actions and the registry of the next attempt, once the abandoned one went on. -/
def AbandonedNotes.goOn (abandoned : AbandonedNotes) (userAddress : Felt)
    (options : ExecuteOptions) (state : Actions × PrivateRegistry) : Actions × PrivateRegistry :=
  let left := abandoned.pending.leave userAddress abandoned.provider options
    (state.1, abandoned.ownRegistry.getD state.2)
  (left.1, if abandoned.ownRegistry.isSome then state.2 else left.2)

/-- What goes on beside an attempt, if something does. -/
def goOnBeside (abandoned : Option AbandonedNotes) (userAddress : Felt) (options : ExecuteOptions)
    (state : Actions × PrivateRegistry) : Actions × PrivateRegistry :=
  abandoned.elim state fun abandoned => abandoned.goOn userAddress options state

/-- Discover notes, select from them, and turn what is left over into outputs. An abandoned
resolution goes on while this one waits for its notes, or after it, when only the channels
are waited for. -/
def resolveNotes (userAddress : Felt) (provider : DiscoveryProvider)
    (abandoned : Option AbandonedNotes) (actions : Actions) (options : ExecuteOptions)
    (registry : PrivateRegistry) : Except CompileError (Actions × PrivateRegistry) := do
  match ← startNotes actions options registry with
  | none => return goOnBeside abandoned userAddress options (actions, registry)
  | some pending =>
    -- An abandoned resolution goes on before this one gets its answer, or after it has finished.
    if pending.query.isSome ∧ abandoned.any (·.early) then
      pending.finish userAddress provider options
        (goOnBeside abandoned userAddress options (actions, registry))
    else
      let state ← pending.finish userAddress provider options (actions, registry)
      return goOnBeside abandoned userAddress options state

/-! ### Client actions -/

/-- The client actions, by kind. -/
structure ClientActions where
  setViewingKey : Option SetViewingKeyInput := none
  openChannels : List OpenChannelInput := []
  openTokenChannels : List OpenSubchannelInput := []
  deposits : List DepositInput := []
  useNotes : List UseNoteInput := []
  createNotes : List (CreateEncNoteInput ⊕ CreateOpenNoteInput) := []
  withdraws : List WithdrawInput := []
  invoke : Option InvokeExternalInput := none
  computeAndInvoke : Option ComputeAndInvokeInput := none
  deriving DecidableEq, Repr

/-- `CreateEncNote` or `CreateOpenNote` -/
def createNoteAction : CreateEncNoteInput ⊕ CreateOpenNoteInput → ClientAction :=
  Sum.elim ClientAction.createEncNote ClientAction.createOpenNote

/-- `Object.values(clientActions)` -/
def ClientActions.values (out : ClientActions) : List ClientAction :=
  out.setViewingKey.toList.map .setViewingKey ++ out.openChannels.map .openChannel ++
    out.openTokenChannels.map .openSubchannel ++ out.deposits.map .deposit ++
    out.useNotes.map .useNote ++
    out.createNotes.map createNoteAction ++
    out.withdraws.map .withdraw ++ out.invoke.toList.map .invokeExternal ++
    out.computeAndInvoke.toList.map .computeAndInvoke

/-- A recipient is queued once. -/
def addOpenChannel (openChannels : List Felt) (recipient : Felt) : List Felt :=
  if recipient ∈ openChannels then openChannels else openChannels ++ [recipient]

/-- The user has to be registered: it has no public key in the simulator. -/
def needsRegistration (pool : PoolSimulator) (options : ExecuteOptions) : Bool :=
  options.autoRegister &&
    !(pool.getChannel pool.userAddress).any fun channel => channel.publicKey ≠ 0

/-- The channels that `autoSetup` opens: that of a user that registers, and those to
recipients without a channel key. -/
def channelsToOpen (pool : PoolSimulator) (recipientsNeeded : List Felt) (options : ExecuteOptions)
    (setViewingKey : Bool) : List Felt :=
  if options.autoSetup then
    (if setViewingKey then [pool.userAddress] else []) ++ recipientsNeeded.filter
      fun recipient => ((pool.getChannel recipient).bind Channel.openKey).isNone
  else []

/-- The actions with those that `autoRegister` and `autoSetup` add. -/
def setupActions (pool : PoolSimulator) (recipientsNeeded : List Felt) (options : ExecuteOptions)
    (actions : Actions) : Actions :=
  let setViewingKey := actions.setViewingKey || needsRegistration pool options
  { actions with
    setViewingKey
    openChannels := (channelsToOpen pool recipientsNeeded options setViewingKey).foldl
      addOpenChannel actions.openChannels }

/-- The simulator and the client actions so far. -/
structure Transform where
  pool : PoolSimulator
  out : ClientActions := {}

section Transform

variable (sn : Starknet) (random : Randomness) (options : ExecuteOptions)

/-- The viewing key is set, when the actions ask for it. -/
def executeSetViewingKey (actions : Actions) (state : Transform) : Except CompileError Transform :=
  if actions.setViewingKey then do
    let input : SetViewingKeyInput := ⟨random.setViewingKey⟩
    let pool ← state.pool.execute sn (.setViewingKey input)
    return { pool, out := { state.out with setViewingKey := some input } }
  else .ok state

/-- One turn of the loop over `openChannels`, with the recipients seen so far. -/
def executeOpenChannel (state : Transform × List Felt) (recipient : Felt) :
    Except CompileError (Transform × List Felt) := do
  let (state, seenRecipients) := state
  -- A recipient that is named twice gets one channel.
  if recipient ∈ seenRecipients then return (state, seenRecipients)
  else
    let _ ← expect (state.pool.getChannel recipient) (.missingChannelContext recipient)
    let position := state.out.openChannels.length
    let input : OpenChannelInput :=
      ⟨recipient, state.pool.nextChannelIndex, (random.openChannel position).1,
        (random.openChannel position).2⟩
    let pool ← state.pool.execute sn (.openChannel input)
    return ({ pool, out := { state.out with openChannels := state.out.openChannels ++ [input] } },
      recipient :: seenRecipients)

/-- The channel of a recipient, with the subchannel of a token when it is forced or
`autoSetup` is on. -/
def transformOpenSubchannel (force : Bool) (state : Transform) (recipient token : Felt) :
    Except CompileError (Transform × Channel) := do
  let channel ← expect (state.pool.getChannel recipient) (.channelNotFound recipient)
  if token ∈ keys channel.tokens then return (state, channel)
  -- Without `autoSetup` a note is created in a subchannel that may not be there.
  else if !force && !options.autoSetup then return (state, channel)
  else
    let input : OpenSubchannelInput :=
      ⟨recipient, channel.publicKey, channel.key, channel.tokens.length, token,
        random.openSubchannel state.out.openTokenChannels.length⟩
    let pool ← state.pool.execute sn (.openSubchannel input)
    let channel ← expect (pool.getChannel recipient) .undefinedChannel
    return ({ pool, out := { state.out with
      openTokenChannels := state.out.openTokenChannels ++ [input] } }, channel)

/-- The subchannel of an action is opened. -/
def executeOpenTokenChannel (state : Transform) (action : OpenTokenChannelAction) :
    Except CompileError Transform := do
  let (state, _) ←
    transformOpenSubchannel sn random options true state action.recipient action.token
  return state

/-- A note that is not in the registry is trusted to exist, and is added. -/
def trackNote (pool : PoolSimulator) (action : UseNoteAction) : Except CompileError PoolSimulator := do
  let id ← expect action.note.id.toBigInt (.invalidId action.note.id)
  if id ∈ keys (pool.notesOf action.token) then return pool
  else pool.setupNote action.token action.note

/-- The note of an action is tracked and used. -/
def executeUseNote (state : Transform) (action : UseNoteAction) : Except CompileError Transform := do
  let input : UseNoteInput :=
    ⟨action.note.witness.channelKey, action.token, action.note.witness.index⟩
  let pool ← trackNote state.pool action
  let pool ← pool.execute sn (.useNote input)
  return { pool, out := { state.out with useNotes := state.out.useNotes ++ [input] } }

/-- The client action of a note, at the next index of its subchannel. -/
def createNoteInput (channel : Channel) (position : ℕ) (action : CreateNoteAction) :
    CreateEncNoteInput ⊕ CreateOpenNoteInput :=
  let index := (channel.tokenChannel action.token).noteNonce
  match action.amount with
  -- A note without an amount is an open one.
  | none => .inr
      ⟨action.recipient, channel.publicKey, action.token, index, random.createNote position⟩
  | some amount => .inl
      ⟨action.recipient, channel.publicKey, action.token, amount, index,
        random.createNote120 position⟩

/-- The note of an action is created, with the subchannel that it needs. -/
def executeCreateNote (state : Transform) (action : CreateNoteAction) :
    Except CompileError Transform := do
  let (state, channel) ←
    transformOpenSubchannel sn random options false state action.recipient action.token
  let input := createNoteInput random channel state.out.createNotes.length action
  let pool ← state.pool.execute sn (createNoteAction input)
  return { pool, out := { state.out with createNotes := state.out.createNotes ++ [input] } }

/-- The open notes and the withdrawals, for the call builders. -/
def invokeBuilderArgs (poolAddress : Felt) (state : Transform) :
    Except CompileError InvokeCalldataBuilderArgs := do
  let openNotes ← (state.out.createNotes.filterMap Sum.getRight?).mapM fun input => do
    let channelKey ← expect ((state.pool.getChannel input.recipientAddr).bind Channel.openKey)
      CompileError.missingOpenNoteKey
    return (computeNoteId sn channelKey input.token input.index, input.token)
  return {
    openNotes
    withdrawals := state.out.withdraws.map fun input => ⟨input.toAddr, input.token, input.amount⟩
    poolAddress }

/-- The deposits and the withdrawals, which the simulator does not track. -/
def depositInputs (deposits : List DepositAction) : List DepositInput :=
  deposits.map fun action => ⟨action.token, action.amount⟩

/-- Each withdrawal with a random number of its own. -/
def withdrawInputs (withdraws : List WithdrawAction) : List WithdrawInput :=
  withdraws.zipIdx.map fun (action, position) =>
    ⟨action.recipient, action.token, action.amount, random.withdraw position⟩

/-- The invoke-phase action, of which there is at most one. -/
def executeInvoke (poolAddress : Felt) (actions : Actions) (state : Transform) :
    Except CompileError Transform := do
  require (¬(actions.invoke.isSome ∧ actions.computeAndInvoke.isSome)) .multipleInvokes
  -- The builders see the open notes and withdrawals of the list.
  match actions.invoke, actions.computeAndInvoke with
  | some callBuilder, _ => do
    let args ← invokeBuilderArgs sn poolAddress state
    return { state with out := { state.out with invoke := some (callBuilder args) } }
  | none, some callBuilder => do
    let args ← invokeBuilderArgs sn poolAddress state
    return { state with out := { state.out with computeAndInvoke := some (callBuilder args) } }
  | none, none => return state

/-- Execute the actions kind by kind. Creating a note can open a subchannel, which goes
before all notes. -/
def transformToClientActions (poolAddress : Felt) (actions : Actions) (pool : PoolSimulator)
    (recipientsNeeded : List Felt) : Except CompileError Transform := do
  let actions := setupActions pool recipientsNeeded options actions
  let state ← executeSetViewingKey sn random actions { pool }
  let (state, _) ← actions.openChannels.foldlM (executeOpenChannel sn random) (state, [])
  let state ← actions.openTokenChannels.foldlM (executeOpenTokenChannel sn random options) state
  -- Deposits and withdrawals leave the simulated pool as it is.
  let state := { state with out := { state.out with deposits := depositInputs actions.deposits } }
  let state ← actions.useNotes.foldlM (executeUseNote sn) state
  let state ← actions.createNotes.foldlM (executeCreateNote sn random options) state
  let state := { state with out := { state.out with
    withdraws := withdrawInputs random actions.withdraws } }
  executeInvoke sn poolAddress actions state

end Transform

/-! ### Compiling -/

/-- A simulator with the discovered channels, those of the registry that were not
discovered, and the notes of the registry. -/
def createPool (userAddress privateKey : Felt) (registry : PrivateRegistry)
    (resolved : ChannelsResult) : Except CompileError PoolSimulator := do
  let pool : PoolSimulator :=
    { userAddress, userViewingKey := privateKey, nextChannelIndex := resolved.total.getD 0 }
  let discovered := resolved.channels.getD []
  let pool := discovered.foldl (fun pool entry => pool.setupChannel entry.1 entry.2) pool
  -- A channel that was discovered now goes before that of the registry.
  let pool := (registry.channels.filter fun entry => entry.1 ∉ keys discovered).foldl
    (fun pool entry => pool.setupChannel entry.1 entry.2) pool
  registry.notes.foldlM
    (fun pool entry => entry.2.foldlM (fun pool note => pool.setupNote entry.1 note) pool) pool

/-- `updateRegistry`: the tracked state goes back to the registry. -/
def PoolSimulator.updateRegistry (pool : PoolSimulator) (registry : PrivateRegistry) :
    PrivateRegistry :=
  { registry with
    channels := pool.channels.foldl (fun m entry => AddressMap.set m entry.1 entry.2)
      registry.channels
    notes := pool.notes.foldl (fun m entry => AddressMap.set m entry.1 (entry.2.map Prod.snd))
      registry.notes }

/-- `cloneRegistry`: the cursor is not copied. -/
def cloneRegistry (registry : PrivateRegistry) : PrivateRegistry :=
  { registry with cursor := none }

/-- The registry that a compile starts from. -/
def ExecuteOptions.startRegistry (options : ExecuteOptions) : PrivateRegistry :=
  let registry := options.registry.getD {}
  if options.registryConst then cloneRegistry registry else registry

/-- What a compile returns, with the actions that it has compiled. -/
structure CompileResult where
  clientActions : List ClientAction
  registry : PrivateRegistry
  /-- Whether the result has the warning `USER_LINKAGE`. -/
  userLinkage : Bool
  /-- The actions once the notes are resolved. -/
  actions : Actions

/-- `Promise.all` of two: both values, or the error of the one that is rejected first. -/
def promiseAll {ε α β : Type} (secondFirst : Bool) : Except ε α → Except ε β → Except ε (α × β)
  | .ok a, .ok b => .ok (a, b)
  | .error e, .ok _ => .error e
  | .ok _, .error e => .error e
  | .error e, .error e' => .error (if secondFirst then e' else e)

/-- An attempt of a compile: what it is called with, what goes on beside it, and whether a
failing discovery of notes is rejected before a failing one of channels. -/
structure Attempt where
  provider : DiscoveryProvider
  actions : Actions
  options : ExecuteOptions
  abandoned : Option AbandonedNotes := none
  notesFirst : Bool

/-- The notes that an attempt waits for, if it resolves notes. -/
def Attempt.pending (attempt : Attempt) : Option PendingNotes :=
  valueOr none (startNotes attempt.actions attempt.options attempt.options.startRegistry)

/-- Without a discovery `resolveNotes` is over before the channels are discovered. -/
def Attempt.rejectsNotesFirst (attempt : Attempt) : Bool :=
  attempt.notesFirst || !attempt.pending.any (·.query.isSome)

/-- When an abandoned resolution of notes goes on: before the next attempt starts, before or
after the notes of that attempt are there, or not before the compile returns. -/
inductive GoesOn
  | before
  | early
  | late
  | never
  deriving DecidableEq, Repr

/-- The order of what a compile waits for. -/
structure Timing where
  /-- Whether the notes are rejected before the channels, in each attempt. -/
  notesFirst : Bool
  notesFirst' : Bool
  goesOn : GoesOn
  deriving DecidableEq, Repr

/-- The first attempt of a compile. -/
def firstAttempt (provider : DiscoveryProvider) (timing : Timing) (actions : Actions)
    (options : ExecuteOptions) : Attempt :=
  { provider, actions, options, notesFirst := timing.notesFirst }

section Compile

variable (sn : Starknet) (random : Randomness) (userAddress userViewingKey poolAddress : Felt)

/-- One attempt: channels and notes are resolved, and the actions are compiled. -/
def compileOnce (attempt : Attempt) : Except CompileError CompileResult := do
  let options := attempt.options
  let registry := options.startRegistry
  let recipientsNeeded := getRecipientsNeeded userAddress attempt.actions
  let (resolved, actions, registry) ← promiseAll attempt.rejectsNotesFirst
    (resolveRecipientChannels attempt.provider attempt.actions options registry recipientsNeeded)
    (resolveNotes userAddress attempt.provider attempt.abandoned attempt.actions options registry)
  let pool ← createPool userAddress userViewingKey registry resolved
  let state ← transformToClientActions sn random options poolAddress actions pool recipientsNeeded
  return {
    clientActions := state.out.values
    registry := state.pool.updateRegistry registry
    userLinkage := 1 < state.out.openChannels.length
    actions }

/-- The options of the attempt after a reorganisation: a registry is emptied. -/
def ExecuteOptions.afterReorg (options : ExecuteOptions) : ExecuteOptions :=
  { options with registry := options.registry.map fun _ => {} }

/-- The resolution of notes that an attempt leaves behind, if it resolves notes. -/
def Attempt.abandon (attempt : Attempt) (early : Bool) : Option AbandonedNotes :=
  attempt.pending.map fun pending => {
    pending
    provider := attempt.provider
    ownRegistry := if attempt.options.registry.isSome ∧ attempt.options.registryConst = false
      then none else some attempt.options.startRegistry
    early }

/-- Whether the notes of an attempt are resolved before the next attempt starts. -/
def Attempt.settles (attempt : Attempt) (goesOn : GoesOn) : Bool :=
  goesOn = .before || !attempt.pending.any (·.query.isSome)

/-- The attempt after a reorganisation. What its predecessor has pushed to the actions stays
in them, and what its predecessor waits for goes on. -/
def Attempt.again (attempt : Attempt) (provider : DiscoveryProvider) (timing : Timing) : Attempt :=
  let options := attempt.options
  { provider
    actions :=
      if attempt.settles timing.goesOn then
        (goOnBeside (attempt.abandon false) userAddress options
          (attempt.actions, options.startRegistry)).1
      else attempt.actions
    options := options.afterReorg
    abandoned :=
      if attempt.settles timing.goesOn ∨ timing.goesOn = .never then none
      else attempt.abandon (timing.goesOn = .early)
    notesFirst := timing.notesFirst' }

/-- Compile, and once more when a discovery meets a reorganisation. The providers are those
of the two attempts. -/
def compile (provider provider' : DiscoveryProvider) (timing : Timing) (actions : Actions)
    (options : ExecuteOptions) : Except CompileError CompileResult :=
  let attempt := firstAttempt provider timing actions options
  match compileOnce sn random userAddress userViewingKey poolAddress attempt with
  | .error .reorg => compileOnce sn random userAddress userViewingKey poolAddress
      (attempt.again userAddress provider' timing)
  | result => result

end Compile

end PrivacyPool.Sdk
