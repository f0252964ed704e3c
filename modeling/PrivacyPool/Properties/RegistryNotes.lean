import PrivacyPool.Properties.IncrementalSync
import PrivacyPool.Sdk.Selections

/-!
# The notes of a registry

The compiler replaces the notes of a token in its registry by those that discovery returns.
With the cursor of the registry, discovery returns only what it looks for: of the notes that
are not returned, those of the registry are dropped when some are returned, and kept, spent
or not, when none are.

## Main definitions

* `NotesRight` — some notes are the unspent ones of a token, and none is spent
* `RegistryRun` — what resolutions of notes do to one registry, one after another
* `RegistryDiscovery.Follows` — the list of a token has changed as its unspent notes have
* `RegistryDiscovery.Finds` — discovery finds all notes of a token, or the list needs none

## Main results

* `registry_right` — when the registry has the right notes after discovery
* `RegistryRun.compile` — a compile goes on with a run
-/

namespace PrivacyPool.Sdk

open Discovery Fallible HashMap

variable {sn : Starknet} {newFromX : Felt → Option sn.EcPoint} {D : Domain}
  {address : ContractAddress} {viewingKey publicKey : Felt}

/-! ### Discovered notes -/

/-- The lists of a map have different tokens, and none is empty. -/
structure ListsHold (notes : List (Felt × List Note)) : Prop where
  nodup : (keys notes).Nodup
  nonempty : ∀ entry ∈ notes, entry.2 ≠ []

theorem listsHold_nil : ListsHold [] := ⟨List.nodup_nil, nofun⟩

theorem ListsHold.push {notes : List (Felt × List Note)} {token : Felt} {added : List Note}
    (h : ListsHold notes) (hadded : added ≠ []) : ListsHold (push notes token added) := by
  refine ⟨AddressMap.nodup_keys_set h.nodup, fun entry hentry => ?_⟩
  rcases AddressMap.mem_of_mem_set hentry with rfl | hold
  · exact List.append_ne_nil_of_right_ne_nil _ hadded
  · exact h.nonempty entry hold

theorem ListsHold.foldl_push {notes added : List (Felt × List Note)} (h : ListsHold notes)
    (hadded : ∀ entry ∈ added, entry.2 ≠ []) :
    ListsHold (added.foldl (fun m entry => Sdk.push m entry.1 entry.2) notes) := by
  induction added generalizing notes with
  | nil => exact h
  | cons entry added ih =>
    exact ih (h.push (hadded entry List.mem_cons_self)) fun e he =>
      hadded e (List.mem_cons_of_mem entry he)

theorem convertIncomingNotes_listsHold {channelKeyMap : List (Felt × Felt)} {known : NotesCursor}
    {tokenFilter : Option (List Felt)} {apiNotes : List DecryptedNote}
    {result : List (Felt × List Note)}
    (h : convertIncomingNotes channelKeyMap known tokenFilter apiNotes = .ok result) :
    ListsHold result := by
  refine foldlM_invariant ListsHold ?_ listsHold_nil h
  intro n _ result result' hresult hstep
  split_ifs at hstep
  · obtain rfl := Except.ok.inj hstep
    exact hresult
  · split at hstep
    · cases hstep
    · obtain rfl := Except.ok.inj hstep
      exact hresult.push (List.cons_ne_nil _ _)

/-- The notes of a call are in lists that are not empty. -/
theorem discoverNotes_listsHold {backend : Backend} {limits : ValidationLimits}
    {cursor : Option NotesCursor} {tokens : Option (List Felt)} {schedules : ℕ → Schedule}
    {notes : List (Felt × List Note)} {cursor' : NotesCursor}
    (h : DiscoversNotes sn newFromX backend limits address viewingKey cursor tokens schedules notes
      cursor') : ListsHold notes := by
  have hpage : ∀ round (state next : NotesState) ended, ListsHold state.allNotes →
      discoverNotesPage sn newFromX backend limits address viewingKey (tokens.map List.dedup)
        schedules round state = .ok (next, ended) → ListsHold next.allNotes := by
    intro round state next ended hstate hok
    obtain ⟨_, notesByToken, -, hconverted, rfl, -⟩ := discoverNotesPage_eq_ok hok
    exact hstate.foldl_push (convertIncomingNotes_listsHold hconverted).nonempty
  obtain ⟨apiCursor, hends⟩ := h
  obtain ⟨round, last, hlast, hok⟩ := hends.last (fun state => ListsHold state.allNotes)
    listsHold_nil fun round state next hstate hok => hpage round state next false hstate hok
  exact hpage round last _ true hlast hok

/-- What is discovered replaces the list of its token. -/
theorem notesOf_foldl_set {notes : List (Felt × List Note)} (h : ListsHold notes)
    (registry : PrivateRegistry) (t : Felt) :
    ((AddressMap.get (notes.foldl (fun m entry => AddressMap.set m entry.1 entry.2) registry.notes)
      t).getD []) = if notesAt notes t = [] then registry.notesOf t else notesAt notes t := by
  rw [AddressMap.get_foldl_set h.nodup]
  unfold notesAt
  cases hget : AddressMap.get notes t with
  | none => rfl
  | some list =>
    have hne := h.nonempty _ (AddressMap.mem_of_get hget)
    rw [Option.getD_some, if_neg hne]
    rfl

/-! ### The right notes -/

namespace UserState

variable {s : UserState sn address publicKey}

/-- A note of the SDK is a note of the service: it has the same id, as a number, and the same
amount, sender and witness. -/
structure Same (s : UserState sn address publicKey) (n : DecryptedNote) (note : Note) : Prop where
  id : note.id.toBigInt = some n.noteId.val
  amount : note.amount = n.amount
  sender : note.sender = n.senderAddr
  witness : note.witness = ⟨senderKey s.channels n.senderAddr, n.index, n.salt⟩

theorem same_noteOf (s : UserState sn address publicKey) (n : DecryptedNote) :
    s.Same n (noteOf s.channels n) :=
  ⟨NoteId.toBigInt_ofFelt n.noteId, rfl, rfl, rfl⟩

/-- An unspent note is in a channel of the account. -/
theorem mem_unspent {n : DecryptedNote} (hn : n ∈ s.unspent viewingKey) :
    ∃ channel ∈ s.account, n.senderAddr = ContractAddress.toFelt channel.peerAddr ∧
      senderKey s.channels n.senderAddr = channel.channelKey ∧
      isSpent sn s.backend viewingKey channel.channelKey n.token n.index = false := by
  obtain ⟨channel, hchannel, subchannel, hsubchannel, hn⟩ := mem_unspentOf.mp hn
  unfold unspentIn at hn
  obtain ⟨index, hindex, rfl⟩ := List.mem_map.mp hn
  have hspent := (List.mem_filter.mp hindex).2
  rw [Bool.not_eq_true'] at hspent
  refine ⟨channel, hchannel, rfl, ?_, hspent⟩
  refine senderKey_of_mem ?_ (List.mem_map.mpr ⟨channel, hchannel, rfl⟩)
  unfold channels channelsOf
  rw [List.map_map]
  exact nodup_toFelt s.stored.peers_nodup

end UserState

/-- Some notes are right for a token: the unspent notes of the token are among them, and none
of them is spent. -/
structure NotesRight (viewingKey : Felt) (s : UserState sn address publicKey) (t : Felt)
    (notes : List Note) : Prop where
  complete : ∀ n ∈ s.unspent viewingKey, n.token = t → ∃ note ∈ notes, s.Same n note
  unspent : ∀ note ∈ notes,
    isSpent sn s.backend viewingKey note.witness.channelKey t note.witness.index = false

/-- A call with a cursor, or without one, looks for a note. -/
def Looks (s : UserState sn address publicKey) (cursor : Option NotesCursor)
    (tokens : Option (List Felt)) (n : DecryptedNote) : Prop :=
  ∀ known, cursor = some known → LooksFor s.contents known (tokens.map List.dedup) n

variable {s : UserState sn address publicKey} {provider : DiscoveryProvider}
  {registry registry' : PrivateRegistry} {cursor : Option NotesCursor}
  {tokens : Option (List Felt)} {t : Felt}

/-- The provider is that of the service at a state of the pool, under some limits and some
schedules in each call. -/
def DiscoveryProvider.Indexer (newFromX : Felt → Option sn.EcPoint) (viewingKey : Felt)
    (s : UserState sn address publicKey) (provider : DiscoveryProvider) : Prop :=
  ∀ cursor tokens notes cursor', provider.discoverNotes cursor tokens = .ok (notes, cursor') →
    ∃ limits schedules, DiscoversNotes sn newFromX s.backend limits address viewingKey cursor tokens
      schedules notes cursor'

/-- A cursor, if there is one, has seen a state before this one. -/
def CursorSeen (D : Domain) (s : UserState sn address publicKey) (cursor : Option NotesCursor) :
    Prop :=
  ∀ known, cursor = some known → ∃ old : UserState sn address publicKey,
    known.Seen old.contents old.channels ∧ old.Before D s

/-- What a call returns: the unspent notes that it looks for. -/
theorem discoverNotes_looks (hcurve : CurveLaw sn) (hrecover : RecoversPoints sn newFromX)
    (hkey : sn.derivePublicKey viewingKey = .ok publicKey) {limits : ValidationLimits}
    {schedules : ℕ → Schedule} {notes : List (Felt × List Note)} {cursor' : NotesCursor}
    (hcursor : CursorSeen D s cursor)
    (h : DiscoversNotes sn newFromX s.backend limits address viewingKey cursor tokens schedules
      notes cursor') :
    ∃ returned : List DecryptedNote,
      (∀ n, n ∈ returned ↔ n ∈ s.unspent viewingKey ∧ Looks s cursor tokens n) ∧
      (∀ token, notesAt notes token =
        keptNotes s.channels (tokens.map List.dedup) returned token) ∧
      cursor'.Seen s.contents s.channels := by
  cases cursor with
  | none =>
    obtain ⟨returned, hreturned, hnotes, hseen, -⟩ :=
      discoverNotes_fresh hcurve hrecover hkey s.stored h
    refine ⟨returned, fun n => ?_, hnotes, hseen⟩
    rw [hreturned.mem_iff]
    exact (and_iff_left nofun).symm
  | some known =>
    obtain ⟨old, hold, hlater⟩ := hcursor known rfl
    obtain ⟨returned, hreturned, hnotes, hseen⟩ :=
      discoverNotes_later hcurve hrecover hkey hlater hold h
    refine ⟨returned, fun n => ?_, hnotes, hseen⟩
    rw [← Multiset.mem_coe, hreturned, mem_weight_iff hcurve hrecover hkey hlater hold]
    refine and_congr_right fun _ => ⟨?_, fun hlooks => hlooks known rfl⟩
    rintro hlooks _ ⟨⟩
    exact hlooks

/-! ### One discovery -/

/-- A discovery of notes: the state of the pool at its block, the cursor and the tokens that
it asks with, the registry when its answer comes, and the registry when the notes are
resolved. -/
structure RegistryDiscovery (sn : Starknet) (address : ContractAddress) (publicKey : Felt) where
  state : UserState sn address publicKey
  cursor : Option NotesCursor
  tokens : Option (List Felt)
  registry : PrivateRegistry
  resolved : PrivateRegistry

namespace RegistryDiscovery

variable {discovery : RegistryDiscovery sn address publicKey}

/-- The registry has the right notes of a token after a discovery. -/
def Right (viewingKey : Felt) (discovery : RegistryDiscovery sn address publicKey) (t : Felt) : Prop :=
  NotesRight viewingKey discovery.state t (discovery.resolved.notesOf t)

/-- A discovery finds an unspent note of a token. -/
def FindsSome (viewingKey : Felt) (discovery : RegistryDiscovery sn address publicKey) (t : Felt) :
    Prop :=
  ∃ n ∈ discovery.state.unspent viewingKey, n.token = t ∧
    Looks discovery.state discovery.cursor discovery.tokens n

/-- A discovery finds all unspent notes of a token. -/
def FindsAll (viewingKey : Felt) (discovery : RegistryDiscovery sn address publicKey) (t : Felt) :
    Prop :=
  ∀ n ∈ discovery.state.unspent viewingKey, n.token = t →
    Looks discovery.state discovery.cursor discovery.tokens n

/-- Since an earlier discovery the list of a token has changed as its unspent notes have: notes
that stay unspent are kept and created ones are added, and no others are, and notes that have
been spent are dropped. -/
structure Follows (viewingKey : Felt) (earlier discovery : RegistryDiscovery sn address publicKey)
    (t : Felt) : Prop where
  kept : ∀ n ∈ earlier.state.unspent viewingKey, n ∈ discovery.state.unspent viewingKey →
    n.token = t → (∃ note ∈ earlier.resolved.notesOf t, earlier.state.Same n note) →
      ∃ note ∈ discovery.registry.notesOf t, discovery.state.Same n note
  added : ∀ n ∈ discovery.state.unspent viewingKey, n ∉ earlier.state.unspent viewingKey →
    n.token = t → ∃ note ∈ discovery.registry.notesOf t, discovery.state.Same n note
  dropped : ∀ note ∈ discovery.registry.notesOf t, note ∈ earlier.resolved.notesOf t →
    isSpent sn earlier.state.backend viewingKey note.witness.channelKey t note.witness.index =
      false →
    isSpent sn discovery.state.backend viewingKey note.witness.channelKey t note.witness.index =
      false
  onlyUnspent : ∀ note ∈ discovery.registry.notesOf t, note ∉ earlier.resolved.notesOf t →
    isSpent sn discovery.state.backend viewingKey note.witness.channelKey t note.witness.index =
      false

/-- What a discovery depends on: it finds all notes of a token, and some; or it finds none, and
the list has followed the unspent notes since an earlier discovery of the token, or there are
no unspent notes and nothing in the list has been spent. -/
def Finds (viewingKey : Felt) (earlier : List (RegistryDiscovery sn address publicKey))
    (discovery : RegistryDiscovery sn address publicKey) (t : Felt) : Prop :=
  discovery.FindsSome viewingKey t ∧ discovery.FindsAll viewingKey t ∨
  ¬discovery.FindsSome viewingKey t ∧
    ((∃ d ∈ earlier, inFilter d.tokens t = true ∧ d.Follows viewingKey discovery t) ∨
      (∀ n ∈ discovery.state.unspent viewingKey, n.token ≠ t) ∧
      ∀ note ∈ discovery.registry.notesOf t, isSpent sn discovery.state.backend viewingKey
        note.witness.channelKey t note.witness.index = false)

/-- The cursor of a discovery comes from an earlier one at a state before, if there is one. -/
def Ordered (D : Domain) (earlier : List (RegistryDiscovery sn address publicKey))
    (discovery : RegistryDiscovery sn address publicKey) : Prop :=
  discovery.cursor = none ∨
    ∃ d ∈ earlier, d.resolved.cursor = discovery.cursor ∧ d.state.Before D discovery.state

/-- The service has answered, and the notes have been resolved from its answer. -/
def Answered (newFromX : Felt → Option sn.EcPoint) (viewingKey : Felt)
    (discovery : RegistryDiscovery sn address publicKey) : Prop :=
  ∃ provider discovered, provider.Indexer newFromX viewingKey discovery.state ∧
    discoverInto provider discovery.cursor discovery.tokens discovery.registry = .ok discovered ∧
    discovered.Reads discovery.resolved

/-- A list that has followed the unspent notes since it was right is right. -/
theorem Follows.right {earlier : RegistryDiscovery sn address publicKey}
    (h : earlier.Follows viewingKey discovery t) (hright : earlier.Right viewingKey t) :
    NotesRight viewingKey discovery.state t (discovery.registry.notesOf t) := by
  constructor
  · intro n hn htoken
    by_cases hold : n ∈ earlier.state.unspent viewingKey
    · exact h.kept n hold hn htoken (hright.complete n hold htoken)
    · exact h.added n hn hold htoken
  · intro note hnote
    by_cases hold : note ∈ earlier.resolved.notesOf t
    · exact h.dropped note hnote hold (hright.unspent note hold)
    · exact h.onlyUnspent note hnote hold

end RegistryDiscovery

/-- Notes with the same sender and token are looked for alike. -/
theorem Looks.of_eq {n n' : DecryptedNote} (h : Looks s cursor tokens n)
    (hsender : n.senderAddr = n'.senderAddr) (htoken : n.token = n'.token) :
    Looks s cursor tokens n' := by
  intro known hknown
  have hlooks := h known hknown
  unfold LooksFor at hlooks ⊢
  rwa [hsender, htoken] at hlooks

/-- Returned notes are right for a token when all of them are looked for. -/
theorem notesRight_returned_iff {returned : List DecryptedNote}
    (hreturned : ∀ n, n ∈ returned ↔ n ∈ s.unspent viewingKey ∧ Looks s cursor tokens n) :
    NotesRight viewingKey s t
        ((returned.filter fun n => decide (n.token = t)).map (noteOf s.channels)) ↔
      ∀ n ∈ s.unspent viewingKey, n.token = t → Looks s cursor tokens n := by
  constructor
  · intro hright n hn htoken
    obtain ⟨note, hnote, hsame⟩ := hright.complete n hn htoken
    obtain ⟨n', hn', rfl⟩ := List.mem_map.mp hnote
    obtain ⟨hmem, htoken'⟩ := List.mem_filter.mp hn'
    exact ((hreturned n').mp hmem).2.of_eq hsame.sender
      ((of_decide_eq_true htoken').trans htoken.symm)
  · intro hall
    constructor
    · intro n hn htoken
      refine ⟨noteOf s.channels n, List.mem_map_of_mem (List.mem_filter.mpr ⟨?_, ?_⟩),
        s.same_noteOf n⟩
      · exact (hreturned n).mpr ⟨hn, hall n hn htoken⟩
      · exact decide_eq_true htoken
    · intro note hnote
      obtain ⟨n, hn, rfl⟩ := List.mem_map.mp hnote
      obtain ⟨hmem, htoken⟩ := List.mem_filter.mp hn
      obtain ⟨channel, -, -, hkey, hspent⟩ := UserState.mem_unspent ((hreturned n).mp hmem).1
      rw [← hkey, of_decide_eq_true htoken] at hspent
      exact hspent

/-- The registry has the right notes of a token after discovery just when discovery finds all
of them, or finds none and the list was right. -/
theorem discoverInto_right_iff (hcurve : CurveLaw sn) (hrecover : RecoversPoints sn newFromX)
    (hkey : sn.derivePublicKey viewingKey = .ok publicKey) (hcursor : CursorSeen D s cursor)
    (hprovider : provider.Indexer newFromX viewingKey s)
    (h : discoverInto provider cursor tokens registry = .ok registry')
    (ht : inFilter tokens t = true) :
    NotesRight viewingKey s t (registry'.notesOf t) ↔
      ((∃ n ∈ s.unspent viewingKey, n.token = t ∧ Looks s cursor tokens n) →
        ∀ n ∈ s.unspent viewingKey, n.token = t → Looks s cursor tokens n) ∧
      ((¬∃ n ∈ s.unspent viewingKey, n.token = t ∧ Looks s cursor tokens n) →
        NotesRight viewingKey s t (registry.notesOf t)) := by
  simp only [discoverInto, bind_eq_ok, pure_eq_ok] at h
  obtain ⟨⟨notes, cursor'⟩, hanswer, rfl⟩ := h
  obtain ⟨limits, schedules, hcall⟩ := hprovider _ _ _ _ hanswer
  obtain ⟨returned, hreturned, hnotes, -⟩ :=
    discoverNotes_looks hcurve hrecover hkey hcursor hcall
  have hkept : notesAt notes t =
      (returned.filter fun n => decide (n.token = t)).map (noteOf s.channels) := by
    rw [hnotes, keptNotes]
    congr 1
    refine List.filter_congr fun n _ => ?_
    by_cases htoken : n.token = t
    · rw [inFilter_dedup, htoken, ht, Bool.true_and]
    · rw [decide_eq_false htoken, Bool.and_false]
  -- The list of the token is replaced just when a note of it was found.
  have hempty : notesAt notes t = [] ↔
      ¬∃ n ∈ s.unspent viewingKey, n.token = t ∧ Looks s cursor tokens n := by
    rw [hkept, List.map_eq_nil_iff, List.filter_eq_nil_iff]
    constructor
    · rintro hnone ⟨n, hn, htoken, hlooks⟩
      exact hnone n ((hreturned n).mpr ⟨hn, hlooks⟩) (decide_eq_true htoken)
    · intro hnone n hn htoken
      obtain ⟨hunspent, hlooks⟩ := (hreturned n).mp hn
      exact hnone ⟨n, hunspent, of_decide_eq_true htoken, hlooks⟩
  rw [PrivateRegistry.notesOf, notesOf_foldl_set (discoverNotes_listsHold hcall)]
  by_cases hfound : ∃ n ∈ s.unspent viewingKey, n.token = t ∧ Looks s cursor tokens n
  · rw [if_neg (mt hempty.mp (not_not.mpr hfound)), hkept, notesRight_returned_iff hreturned,
      and_iff_left fun hnone => absurd hfound hnone]
    exact ⟨fun hall _ => hall, fun hall => hall hfound⟩
  · rw [if_pos (hempty.mpr hfound), and_iff_right fun hsome => absurd hsome hfound]
    exact ⟨fun hright _ => hright, fun hright => hright hfound⟩

/-- The cursor of a discovery has seen its state. -/
theorem discoverInto_seen (hcurve : CurveLaw sn) (hrecover : RecoversPoints sn newFromX)
    (hkey : sn.derivePublicKey viewingKey = .ok publicKey) (hcursor : CursorSeen D s cursor)
    (hprovider : provider.Indexer newFromX viewingKey s)
    (h : discoverInto provider cursor tokens registry = .ok registry') :
    ∀ known, registry'.cursor = some known → known.Seen s.contents s.channels := by
  simp only [discoverInto, bind_eq_ok, pure_eq_ok] at h
  obtain ⟨⟨notes, cursor'⟩, hanswer, rfl⟩ := h
  obtain ⟨limits, schedules, hcall⟩ := hprovider _ _ _ _ hanswer
  obtain ⟨-, -, -, hseen⟩ := discoverNotes_looks hcurve hrecover hkey hcursor hcall
  rintro _ ⟨⟩
  exact hseen

/-! ### Runs -/

/-- What resolutions of notes do to one registry, with the discoveries in them, and what they
have asked the service for. A resolution asks with the cursor of the registry. Its answer can
come when others have gone on with the registry, also after a reorganisation has emptied it,
and any state of the pool can be that of its block. In between, the lists of the registry and
its channels change in any way: compiles use notes and create them, and work on copies without
the cursor. -/
inductive RegistryRun (newFromX : Felt → Option sn.EcPoint) (viewingKey : Felt) :
    List (RegistryDiscovery sn address publicKey) → List (Option NotesCursor × Option (List Felt)) →
      PrivateRegistry → Prop
  | start : RegistryRun newFromX viewingKey [] [] {}
  | asked {discoveries : List (RegistryDiscovery sn address publicKey)}
      {questions : List (Option NotesCursor × Option (List Felt))} {registry : PrivateRegistry}
      (run : RegistryRun newFromX viewingKey discoveries questions registry)
      (tokens : Option (List Felt)) :
    RegistryRun newFromX viewingKey discoveries ((registry.cursor, tokens) :: questions) registry
  | answered {discoveries : List (RegistryDiscovery sn address publicKey)}
      {questions : List (Option NotesCursor × Option (List Felt))}
      {registry discovered resolved : PrivateRegistry} {s : UserState sn address publicKey}
      {provider : DiscoveryProvider} {cursor : Option NotesCursor} {tokens : Option (List Felt)}
      (run : RegistryRun newFromX viewingKey discoveries questions registry)
      (hquestion : (cursor, tokens) ∈ questions)
      (hprovider : provider.Indexer newFromX viewingKey s)
      (hdiscover : discoverInto provider cursor tokens registry = .ok discovered)
      (hreads : discovered.Reads resolved) :
    RegistryRun newFromX viewingKey (discoveries ++ [⟨s, cursor, tokens, registry, resolved⟩])
      questions resolved
  | changed {discoveries : List (RegistryDiscovery sn address publicKey)}
      {questions : List (Option NotesCursor × Option (List Felt))}
      {registry registry' : PrivateRegistry}
      (run : RegistryRun newFromX viewingKey discoveries questions registry)
      (hcursor : registry'.cursor = registry.cursor ∨ registry'.cursor = none) :
    RegistryRun newFromX viewingKey discoveries questions registry'

section Runs

variable {discoveries : List (RegistryDiscovery sn address publicKey)}
  {questions : List (Option NotesCursor × Option (List Felt))}

theorem RegistryRun.answers (run : RegistryRun newFromX viewingKey discoveries questions registry) :
    ∀ d ∈ discoveries, d.Answered newFromX viewingKey := by
  induction run with
  | start => exact nofun
  | asked run tokens ih => exact ih
  | answered run hquestion hprovider hdiscover hreads ih =>
    intro d hd
    rcases List.mem_append.mp hd with hd | hd
    · exact ih d hd
    · obtain rfl := List.mem_singleton.mp hd
      exact ⟨_, _, hprovider, hdiscover, hreads⟩
  | changed run hcursor ih => exact ih

/-- What holds of an item when it holds of those before it, holds of all. -/
theorem forall_mem_of_earlier {α : Type} {P : α → Prop} {items : List α}
    (h : ∀ earlier a later, items = earlier ++ a :: later → (∀ b ∈ earlier, P b) → P a) :
    ∀ a ∈ items, P a := by
  induction items using List.reverseRecOn with
  | nil => exact nofun
  | append_singleton items last ih =>
    have hitems : ∀ a ∈ items, P a := ih fun earlier a later hsplit =>
      h earlier a (later ++ [last]) (by rw [hsplit, List.append_assoc, List.cons_append])
    intro a ha
    rcases List.mem_append.mp ha with ha | ha
    · exact hitems a ha
    · obtain rfl := List.mem_singleton.mp ha
      exact h items a [] rfl hitems

/-- In a run whose discoveries are in order, each of their cursors has seen a state before. -/
theorem RegistryRun.seen (hcurve : CurveLaw sn) (hrecover : RecoversPoints sn newFromX)
    (hkey : sn.derivePublicKey viewingKey = .ok publicKey)
    (run : RegistryRun newFromX viewingKey discoveries questions registry)
    (hordered : ∀ earlier d later, discoveries = earlier ++ d :: later → d.Ordered D earlier) :
    ∀ d ∈ discoveries, CursorSeen D d.state d.cursor ∧ ∀ known, d.resolved.cursor = some known →
      known.Seen d.state.contents d.state.channels := by
  refine forall_mem_of_earlier fun earlier d later hsplit hearlier => ?_
  have hcursor : CursorSeen D d.state d.cursor := by
    intro known hknown
    rcases hordered earlier d later hsplit with hnone | ⟨d', hd', hleft, hbefore⟩
    · rw [hnone] at hknown
      cases hknown
    · exact ⟨d'.state, (hearlier d' hd').2 known (hleft.trans hknown), hbefore⟩
  obtain ⟨provider, discovered, hprovider, hdiscover, hreads⟩ :=
    run.answers d (hsplit ▸ List.mem_append_right earlier List.mem_cons_self)
  refine ⟨hcursor, fun known hknown => ?_⟩
  rw [hreads.cursor] at hknown
  exact discoverInto_seen hcurve hrecover hkey hcursor hprovider hdiscover known hknown

/-- One discovery of a run: it is right when it finds all notes, or finds none and the list
was right. -/
theorem RegistryDiscovery.Answered.right_iff (hcurve : CurveLaw sn)
    (hrecover : RecoversPoints sn newFromX) (hkey : sn.derivePublicKey viewingKey = .ok publicKey)
    {discovery : RegistryDiscovery sn address publicKey} (h : discovery.Answered newFromX viewingKey)
    (hcursor : CursorSeen D discovery.state discovery.cursor)
    (ht : inFilter discovery.tokens t = true) :
    discovery.Right viewingKey t ↔
      (discovery.FindsSome viewingKey t → discovery.FindsAll viewingKey t) ∧
      (¬discovery.FindsSome viewingKey t →
        NotesRight viewingKey discovery.state t (discovery.registry.notesOf t)) := by
  obtain ⟨provider, discovered, hprovider, hdiscover, hreads⟩ := h
  unfold Right
  rw [hreads.notes]
  exact discoverInto_right_iff hcurve hrecover hkey hcursor hprovider hdiscover ht

/-- **The notes of the registry.** In a run in which each discovery goes on from a state before
its own and finds all notes of each token that it is asked for, or leaves a list that has
followed the unspent notes, the registry has the right notes after each discovery. A discovery
that finds some notes of a token has to find all of them. -/
theorem registry_right (hcurve : CurveLaw sn) (hrecover : RecoversPoints sn newFromX)
    (hkey : sn.derivePublicKey viewingKey = .ok publicKey)
    (run : RegistryRun newFromX viewingKey discoveries questions registry)
    (hordered : ∀ earlier d later, discoveries = earlier ++ d :: later → d.Ordered D earlier) :
    ((∀ earlier d later, discoveries = earlier ++ d :: later → ∀ t, inFilter d.tokens t = true →
        d.Finds viewingKey earlier t) →
      ∀ d ∈ discoveries, ∀ t, inFilter d.tokens t = true → d.Right viewingKey t) ∧
    ∀ d ∈ discoveries, ∀ t, inFilter d.tokens t = true → d.FindsSome viewingKey t →
      (d.Right viewingKey t ↔ d.FindsAll viewingKey t) := by
  have hiff : ∀ d ∈ discoveries, ∀ t, inFilter d.tokens t = true → (d.Right viewingKey t ↔ _) :=
    fun d hd t ht => (run.answers d hd).right_iff hcurve hrecover hkey
      (run.seen hcurve hrecover hkey hordered d hd).1 ht
  refine ⟨fun hfinds => ?_, fun d hd t ht hsome => ?_⟩
  · refine forall_mem_of_earlier fun earlier d later hsplit hearlier t ht => ?_
    have hd : d ∈ discoveries := hsplit ▸ List.mem_append_right earlier List.mem_cons_self
    rw [hiff d hd t ht]
    rcases hfinds earlier d later hsplit t ht with ⟨hsome, hall⟩ | ⟨hnone, hlist⟩
    · exact ⟨fun _ => hall, fun hnone => absurd hsome hnone⟩
    · refine ⟨fun hsome => absurd hsome hnone, fun _ => ?_⟩
      rcases hlist with ⟨d', hd', ht', hfollows⟩ | ⟨hempty, hunspent⟩
      · exact hfollows.right (hearlier d' hd' t ht')
      · exact ⟨fun n hn htoken => absurd htoken (hempty n hn), hunspent⟩
  · rw [hiff d hd t ht, and_iff_left fun hnone => absurd hsome hnone]
    exact ⟨fun hall => hall hsome, fun hall _ => hall⟩

end Runs

/-! ### Compiles -/

section Compiles

variable {discoveries : List (RegistryDiscovery sn address publicKey)}
  {questions : List (Option NotesCursor × Option (List Felt))} {userAddress : Felt}
  {options : ExecuteOptions} {actions actions' : Actions} {pending : PendingNotes}

/-- What a resolution leaves goes on with a run, when it has asked. -/
theorem RegistryRun.leave (run : RegistryRun newFromX viewingKey discoveries questions registry)
    (hquestion : ∀ question, pending.query = some question → question ∈ questions)
    (hprovider : provider.Indexer newFromX viewingKey s) (userAddress : Felt)
    (options : ExecuteOptions) (actions : Actions) :
    ∃ added, RegistryRun newFromX viewingKey (discoveries ++ added) questions
      (pending.leave userAddress provider options (actions, registry)).2 := by
  unfold PendingNotes.leave
  cases hdiscover : pending.discover provider registry with
  | error e => exact ⟨[], (List.append_nil discoveries).symm ▸ run⟩
  | ok discovered =>
    have hreads := (leaveBalances_left userAddress options pending.usedNoteIds pending.balances
      actions discovered).reads
    unfold PendingNotes.discover at hdiscover
    split at hdiscover
    · obtain rfl := Except.ok.inj hdiscover
      exact ⟨[], (List.append_nil discoveries).symm ▸ run.changed (.inl hreads.cursor)⟩
    · rename_i cursor tokens hquery
      exact ⟨_, run.answered (hquestion _ hquery) hprovider hdiscover hreads⟩

/-- An abandoned resolution that shares the registry of a run has asked in the run. -/
def AbandonedNotes.AsksIn (newFromX : Felt → Option sn.EcPoint) (address : ContractAddress)
    (viewingKey publicKey : Felt) (questions : List (Option NotesCursor × Option (List Felt)))
    (abandoned : AbandonedNotes) : Prop :=
  abandoned.ownRegistry = none →
    (∃ s : UserState sn address publicKey, abandoned.provider.Indexer newFromX viewingKey s) ∧
      ∀ question, abandoned.pending.query = some question → question ∈ questions

/-- So does what goes on beside an attempt. -/
theorem RegistryRun.goOnBeside
    (run : RegistryRun newFromX viewingKey discoveries questions registry)
    {abandoned : Option AbandonedNotes}
    (habandoned : ∀ a, abandoned = some a →
      a.AsksIn newFromX address viewingKey publicKey questions) (userAddress : Felt)
    (options : ExecuteOptions) (actions : Actions) :
    ∃ added, RegistryRun newFromX viewingKey (discoveries ++ added) questions
      (Sdk.goOnBeside abandoned userAddress options (actions, registry)).2 := by
  cases abandoned with
  | none => exact ⟨[], (List.append_nil discoveries).symm ▸ run⟩
  | some abandoned =>
    change ∃ added, RegistryRun newFromX viewingKey (discoveries ++ added) questions
      (if abandoned.ownRegistry.isSome then registry else (abandoned.pending.leave userAddress
        abandoned.provider options (actions, abandoned.ownRegistry.getD registry)).2)
    cases hown : abandoned.ownRegistry with
    | some own => exact ⟨[], (List.append_nil discoveries).symm ▸ run⟩
    | none =>
      obtain ⟨⟨s, hprovider⟩, hquestion⟩ := habandoned abandoned rfl hown
      exact run.leave hquestion hprovider userAddress options actions

/-- A resolution asks first, if it does. -/
theorem RegistryRun.ask (run : RegistryRun newFromX viewingKey discoveries questions registry)
    (hstart : startNotes actions options registry = .ok (some pending)) :
    ∃ questions', questions ⊆ questions' ∧
      (∀ question, pending.query = some question → question ∈ questions') ∧
      RegistryRun newFromX viewingKey discoveries questions' registry := by
  rw [(startNotes_eq_some hstart).2.2]
  cases notesQuery actions options registry pending.balances with
  | none => exact ⟨questions, fun _ h => h, nofun, run⟩
  | some tokens =>
    refine ⟨_, List.subset_cons_self _ _, ?_, run.asked tokens⟩
    rintro _ ⟨⟩
    exact List.mem_cons_self

/-- And so does the resolution of notes in an attempt. -/
theorem RegistryRun.resolveNotes {attempt : Attempt} {resolved : PrivateRegistry}
    (run : RegistryRun newFromX viewingKey discoveries questions attempt.options.startRegistry)
    (hprovider : attempt.provider.Indexer newFromX viewingKey s)
    (habandoned : ∀ a, attempt.abandoned = some a →
      a.AsksIn newFromX address viewingKey publicKey questions)
    (h : Sdk.resolveNotes userAddress attempt.provider attempt.abandoned attempt.actions
      attempt.options attempt.options.startRegistry = .ok (actions', resolved)) :
    ∃ added questions', RegistryRun newFromX viewingKey (discoveries ++ added) questions'
      resolved := by
  unfold Sdk.resolveNotes at h
  obtain ⟨pending, hstart, h⟩ := bind_eq_ok.mp h
  cases pending with
  -- No note is asked for: only the abandoned resolution can still write.
  | none =>
    obtain ⟨added, hrun⟩ := run.goOnBeside habandoned userAddress attempt.options attempt.actions
    rw [show Sdk.goOnBeside attempt.abandoned userAddress attempt.options
      (attempt.actions, attempt.options.startRegistry) = (actions', resolved) from
      Except.ok.inj h] at hrun
    exact ⟨added, questions, hrun⟩
  | some pending =>
    obtain ⟨questions', hmore, hasked, run'⟩ := run.ask hstart
    -- The question of this attempt is a further one, which leaves those before it answered.
    have habandoned' : ∀ a, attempt.abandoned = some a →
        a.AsksIn newFromX address viewingKey publicKey questions' := fun a ha hown =>
      ⟨(habandoned a ha hown).1, fun q hq => hmore ((habandoned a ha hown).2 q hq)⟩
    dsimp only at h
    split_ifs at h
    -- The abandoned resolution writes first, then this one leaves its notes.
    · obtain ⟨added, hrun⟩ := run'.goOnBeside habandoned' userAddress attempt.options
        attempt.actions
      obtain ⟨more, hrun'⟩ := hrun.leave hasked hprovider userAddress attempt.options
        (Sdk.goOnBeside attempt.abandoned userAddress attempt.options
          (attempt.actions, attempt.options.startRegistry)).1
      rw [(finish_eq_leave h).1, List.append_assoc] at hrun'
      exact ⟨_, _, hrun'⟩
    -- This one leaves its notes first.
    · obtain ⟨state, hown, h⟩ := bind_eq_ok.mp h
      obtain ⟨added, hrun⟩ := run'.leave hasked hprovider userAddress attempt.options
        attempt.actions
      rw [(finish_eq_leave hown).1] at hrun
      obtain ⟨more, hrun'⟩ := hrun.goOnBeside habandoned' userAddress attempt.options state.1
      rw [show Sdk.goOnBeside attempt.abandoned userAddress attempt.options (state.1, state.2) =
        (actions', resolved) from Except.ok.inj h, List.append_assoc] at hrun'
      exact ⟨_, _, hrun'⟩

/-- And an attempt that succeeds. -/
theorem RegistryRun.compileOnce {attempt : Attempt} {random : Randomness} {poolAddress : Felt}
    {result : CompileResult}
    (run : RegistryRun newFromX viewingKey discoveries questions attempt.options.startRegistry)
    (hprovider : attempt.provider.Indexer newFromX viewingKey s)
    (habandoned : ∀ a, attempt.abandoned = some a →
      a.AsksIn newFromX address viewingKey publicKey questions)
    (h : Sdk.compileOnce sn random userAddress viewingKey poolAddress attempt = .ok result) :
    ∃ added questions', RegistryRun newFromX viewingKey (discoveries ++ added) questions'
      result.registry := by
  obtain ⟨_, resolved, pool, state, -, hnotes, -, -, -, hregistry⟩ := compileOnce_eq_ok h
  obtain ⟨added, questions', hrun⟩ := run.resolveNotes hprovider habandoned hnotes
  rw [hregistry]
  exact ⟨added, questions', hrun.changed (.inl rfl)⟩

theorem RegistryRun.startRegistry
    (run : RegistryRun newFromX viewingKey discoveries questions registry)
    (hregistry : options.registry = some registry) :
    RegistryRun newFromX viewingKey discoveries questions options.startRegistry := by
  unfold ExecuteOptions.startRegistry
  rw [hregistry, Option.getD_some]
  dsimp only
  split_ifs
  · exact run.changed (.inr rfl)
  · exact run

/-- A compile goes on with a run, also when its first attempt meets a reorganisation: its
second one starts with an empty registry, and the resolution of notes of the first one can go
on at any time. -/
theorem RegistryRun.compile {s' : UserState sn address publicKey} {random : Randomness}
    {poolAddress : Felt} {provider' : DiscoveryProvider} {timing : Timing} {result : CompileResult}
    (run : RegistryRun newFromX viewingKey discoveries questions registry)
    (hprovider : provider.Indexer newFromX viewingKey s)
    (hprovider' : provider'.Indexer newFromX viewingKey s')
    (hregistry : options.registry = some registry)
    (h : Sdk.compile sn random userAddress viewingKey poolAddress provider provider' timing actions
      options = .ok result) :
    ∃ added questions', RegistryRun newFromX viewingKey (discoveries ++ added) questions'
      result.registry := by
  have hstart := run.startRegistry hregistry
  rw [compile_eq] at h
  unfold lastAttempt at h
  dsimp only at h
  split at h
  · -- The first attempt asks, and perhaps gets its answer; then the registry is emptied.
    generalize hattempt : firstAttempt provider timing actions options = attempt at h
    obtain ⟨added, questions', habandoned, hrun⟩ : ∃ added questions',
        (∀ early a, attempt.abandon early = some a →
          a.AsksIn newFromX address viewingKey publicKey questions') ∧
        RegistryRun newFromX viewingKey (discoveries ++ added) questions' {} := by
      subst hattempt
      cases hpending : (firstAttempt provider timing actions options).pending with
      | none =>
        refine ⟨[], questions, fun early a ha => ?_, (List.append_nil discoveries).symm ▸
          run.changed (.inr rfl)⟩
        rw [Attempt.abandon, hpending] at ha
        cases ha
      | some pending =>
        have hstarted : startNotes actions options options.startRegistry = .ok (some pending) :=
          startNotes_of_pending hpending
        obtain ⟨questions', -, hasked, run'⟩ := hstart.ask hstarted
        obtain ⟨added, hrun⟩ := run'.leave hasked hprovider userAddress options actions
        -- The first attempt ends with its answer, or is abandoned with its question pending.
        refine ⟨added, questions', fun early a ha _ => ?_, hrun.changed (.inr rfl)⟩
        rw [Attempt.abandon, hpending] at ha
        obtain rfl := Option.some.inj ha
        exact ⟨⟨s, hprovider⟩, hasked⟩
    have hoptions : (attempt.again userAddress provider' timing).options.registry = some {} := by
      subst hattempt
      change options.afterReorg.registry = some {}
      rw [ExecuteOptions.afterReorg, hregistry]
      rfl
    have hbeside : ∀ a, (attempt.again userAddress provider' timing).abandoned = some a →
        a.AsksIn newFromX address viewingKey publicKey questions' := by
      intro a ha
      change (if _ then none else attempt.abandon _) = some a at ha
      split_ifs at ha
      exact habandoned _ a ha
    obtain ⟨more, questions'', hrun'⟩ :=
      (hrun.startRegistry hoptions).compileOnce hprovider' hbeside h
    rw [List.append_assoc] at hrun'
    exact ⟨_, _, hrun'⟩
  -- There is one attempt only, and nothing beside it.
  · refine hstart.compileOnce hprovider (fun a ha => ?_) h
    cases ha

end Compiles

/-! ### Two compiles

After its first list user 5 has a note of token 77, which its second list spends. It compiles
after each list, and discovers all notes. -/

namespace Sample

/-- The note of the first list. -/
def firstNote : Note where
  id := .text "0x6".toList
  amount := 100
  created := some 7
  witness := ⟨1, 0, 2⟩
  sender := 5

/-- Nothing is asked for but the discovery of all notes. -/
def discoverAll (registry : PrivateRegistry) : ExecuteOptions :=
  { discoverNotes := some .all, registry := some registry }

/-- The registry with the first note, and the discovery that finds it. -/
def noted (cursor : NotesCursor) : PrivateRegistry := ⟨[], [(77, [firstNote])], some cursor⟩

/-- A discovery with nothing to continue but what a registry holds. -/
def firstDiscovery (cursor : NotesCursor) : RegistryDiscovery Starknet.sample 5 3 :=
  ⟨fundedState, none, none, {}, noted cursor⟩

/-- A provider that has the answer to one question. -/
def answering (start : Option NotesCursor) (notes : List (Felt × List Note))
    (cursor : NotesCursor) : DiscoveryProvider where
  discoverNotes known tokens :=
    if known = start ∧ tokens = none then .ok (notes, cursor) else .error .reorg
  discoverChannels _ := .ok {}

theorem answering_indexer {s : UserState Starknet.sample 5 3} {limits : ValidationLimits}
    {start : Option NotesCursor} {schedules : ℕ → Schedule} {notes : List (Felt × List Note)}
    {cursor : NotesCursor}
    (h : DiscoversNotes Starknet.sample Starknet.sampleRecover s.backend limits 5 3 start none
      schedules notes cursor) :
    (answering start notes cursor).Indexer Starknet.sampleRecover 3 s := by
  intro known tokens notes' cursor' hanswer
  simp only [answering] at hanswer
  split_ifs at hanswer with hquestion
  obtain ⟨rfl, rfl⟩ := Prod.mk.inj (Except.ok.inj hanswer)
  obtain ⟨rfl, rfl⟩ := hquestion
  exact ⟨limits, schedules, h⟩

/-- A compile that discovers all notes, when they leave the first note in the registry. -/
theorem compile_discoverAll {registry : PrivateRegistry} {notes : List (Felt × List Note)}
    {cursor : NotesCursor} (provider : DiscoveryProvider) (hchannels : registry.channels = [])
    (hnotes : notes.foldl (fun m entry => AddressMap.set m entry.1 entry.2) registry.notes =
      [(77, [firstNote])]) :
    compile Starknet.sample random (ContractAddress.toFelt 5) 3 0
        (answering registry.cursor notes cursor) provider inTurn { surpluses := some [] }
        (discoverAll registry) =
      .ok ⟨[], noted cursor, false, { surpluses := some [] }⟩ := by
  have hresolve : resolveNotes (ContractAddress.toFelt 5)
      (answering registry.cursor notes cursor) none { surpluses := some [] } (discoverAll registry)
      registry =
        .ok ({ surpluses := some [] }, noted cursor) := by
    rw [noted, ← hnotes, ← hchannels]
    simp [resolveNotes, startNotes, actionBalances, notesQuery, discoverAll, PendingNotes.finish,
      PendingNotes.discover, discoverInto, answering, goOnBeside]
  have hcompile : compileOnce Starknet.sample random (ContractAddress.toFelt 5) 3 0
        (firstAttempt (answering registry.cursor notes cursor) inTurn { surpluses := some [] }
          (discoverAll registry)) =
      .ok ⟨[], noted cursor, false, { surpluses := some [] }⟩ := by
    unfold compileOnce firstAttempt
    dsimp only
    rw [show (discoverAll registry).startRegistry = registry from rfl, hresolve]
    rfl
  unfold compile
  dsimp only
  rw [hcompile]

/-- A map with the first note alone. -/
theorem eq_firstNote {notes : List (Felt × List Note)} (hlists : ListsHold notes)
    (h : ∀ token, notesAt notes token = if token = 77 then [firstNote] else []) :
    notes = [(77, [firstNote])] := by
  have hentry : ∀ entry ∈ notes, entry = (77, [firstNote]) := by
    intro entry hentry
    have hget := (AddressMap.get_eq_some_iff hlists.nodup).mpr hentry
    have hat := h entry.1
    rw [notesAt, hget, Option.getD_some] at hat
    by_cases htoken : entry.1 = 77
    · rw [if_pos htoken] at hat
      exact Prod.ext htoken hat
    · rw [if_neg htoken] at hat
      exact absurd hat (hlists.nonempty entry hentry)
  have hreplicate := List.eq_replicate_of_mem hentry
  have hlength : notes.length ≤ 1 := by
    by_contra hlong
    have hnodup := hlists.nodup
    rw [keys, hreplicate, List.map_replicate, List.nodup_replicate] at hnodup
    exact hlong hnodup
  have hnonempty : notes.length ≠ 0 := by
    intro hcount
    have hempty := h 77
    rw [List.length_eq_zero_iff.mp hcount, if_pos rfl] at hempty
    cases hempty
  have hone : notes.length = 1 := by omega
  rwa [hone] at hreplicate

/-- The first discovery finds the first note. -/
theorem funded_notes {schedules : ℕ → Schedule} {notes : List (Felt × List Note)}
    {cursor : NotesCursor} (h : DiscoversNotes Starknet.sample Starknet.sampleRecover
      fundedState.backend wideLimits 5 3 none none schedules notes cursor) :
    notes = [(77, [firstNote])] := by
  refine eq_firstNote (discoverNotes_listsHold h) fun token => ?_
  obtain ⟨returned, hreturned, hnotes, -⟩ := discoverNotes_fresh Starknet.sample_curveLaw
    Starknet.sample_recoversPoints derived fundedState.stored h
  have hunspent : unspentOf Starknet.sample fundedState.backend 3 fundedState.account =
      [⟨5, 77, 0, 6, 100, 2, 7⟩] := by
    decide +kernel
  rw [hunspent, List.perm_singleton] at hreturned
  rw [hnotes, hreturned]
  by_cases htoken : token = 77
  · rw [if_pos htoken, htoken]
    decide
  · rw [if_neg htoken]
    unfold keptNotes
    rw [List.map_eq_nil_iff, List.filter_eq_nil_iff]
    intro n hn
    obtain rfl := List.mem_singleton.mp hn
    simpa using fun _ h => htoken h.symm

theorem spent_sender : ∀ n ∈ spentState.unspent 3, n.senderAddr = ContractAddress.toFelt 5 := by
  decide +kernel

/-- The cursor of the first discovery has scanned the subchannel of the open note. -/
theorem spent_scanned {cursor : NotesCursor} {icc : IncomingChannelCursor}
    (hget : AddressMap.get cursor (ContractAddress.toFelt 5) = some icc)
    (hkey : icc.channelKey = 1) (hindex : icc.subchannelIdIndex = 1) :
    ∀ n ∈ spentState.unspent 3, ∀ icc, AddressMap.get cursor n.senderAddr = some icc →
      n.token ∈ (fundedState.contents.tokens icc.channelKey).take icc.subchannelIdIndex := by
  have htoken : ∀ n ∈ spentState.unspent 3, n.token = 77 := by
    decide +kernel
  intro n hn icc' hget'
  rw [spent_sender n hn] at hget'
  obtain rfl := Option.some.inj (hget.symm.trans hget')
  rw [htoken n hn, hkey, hindex]
  decide

/-- The second discovery, with the cursor of the first, finds nothing. -/
theorem spent_notes {limits : ValidationLimits} {schedules : ℕ → Schedule}
    {notes : List (Felt × List Note)} {cursor cursor' : NotesCursor} {icc : IncomingChannelCursor}
    (hseen : cursor.Seen fundedState.contents fundedState.channels)
    (hget : AddressMap.get cursor (ContractAddress.toFelt 5) = some icc)
    (hkey : icc.channelKey = 1) (hindex : icc.subchannelIdIndex = 1)
    (h : DiscoversNotes Starknet.sample Starknet.sampleRecover spentState.backend limits 5 3
      (some cursor) none schedules notes cursor') : notes = [] := by
  obtain ⟨returned, hreturned, hnotes, -⟩ := discoverNotes_looks Starknet.sample_curveLaw
    Starknet.sample_recoversPoints derived (D := Domain.sample)
    (fun known hknown => ⟨fundedState, Option.some.inj hknown ▸ hseen, funded_before_spent⟩) h
  have hnone : returned = [] := by
    refine List.eq_nil_iff_forall_not_mem.mpr fun n hn => ?_
    obtain ⟨hunspent, hlooks⟩ := (hreturned n).mp hn
    have hsender : n.senderAddr = ContractAddress.toFelt 5 := spent_sender n hunspent
    rw [← hsender] at hget
    exact (looksFor_none_iff Starknet.sample_curveLaw Starknet.sample_recoversPoints derived
      funded_before_spent hseen hunspent hget).mp (hlooks _ rfl)
        (spent_scanned (hsender ▸ hget) hkey hindex n hunspent icc hget)
  refine List.eq_nil_iff_forall_not_mem.mpr fun entry hentry => ?_
  have hlists := discoverNotes_listsHold h
  have hat := hnotes entry.1
  rw [notesAt, (AddressMap.get_eq_some_iff hlists.nodup).mpr hentry, Option.getD_some, hnone] at hat
  exact hlists.nonempty entry hentry hat

end Sample

/-- After the first list the registry of user 5 has the note of the list. -/
theorem registry_right_sample : ∃ cursor, (Sample.firstDiscovery cursor).Right 3 77 ∧
    RegistryRun Starknet.sampleRecover 3 [Sample.firstDiscovery cursor] [(none, none)]
      (Sample.noted cursor) := by
  obtain ⟨notes, cursor, -, hcall, -⟩ := Sample.funded_call
  have hdiscover : discoverInto (Sample.answering none notes cursor) none none {} =
      .ok (Sample.noted cursor) := by
    rw [Sample.funded_notes hcall]
    rfl
  have run : RegistryRun Starknet.sampleRecover 3 [Sample.firstDiscovery cursor] [(none, none)]
      (Sample.noted cursor) := (RegistryRun.start.asked none).answered List.mem_cons_self
    (Sample.answering_indexer hcall) hdiscover (.refl _)
  -- The only discovery is the first one, without a cursor.
  have honly : ∀ earlier d later, [Sample.firstDiscovery cursor] = earlier ++ d :: later →
      d = Sample.firstDiscovery cursor := by
    intro earlier d later hsplit
    refine List.mem_singleton.mp ?_
    rw [hsplit]
    exact List.mem_append_right earlier List.mem_cons_self
  refine ⟨cursor, (registry_right (D := Domain.sample) Starknet.sample_curveLaw
    Starknet.sample_recoversPoints Sample.derived run fun earlier d later hsplit => ?_).1
    (fun earlier d later hsplit t _ => ?_) _ List.mem_cons_self 77 rfl, run⟩
  · rw [honly earlier d later hsplit]
    exact .inl rfl
  · rw [honly earlier d later hsplit]
    by_cases ht : ∃ n ∈ Sample.fundedState.unspent 3, n.token = t
    · obtain ⟨n, hn, htoken⟩ := ht
      exact .inl ⟨⟨n, hn, htoken, nofun⟩, fun _ _ _ => nofun⟩
    · refine .inr ⟨fun ⟨n, hn, htoken, _⟩ => ht ⟨n, hn, htoken⟩, .inr ⟨fun n hn htoken =>
        ht ⟨n, hn, htoken⟩, nofun⟩⟩

/-- User 5 compiles after its first list, and again after the second one. The registry then has
the note that the second list has spent, and not the open note that it has created. -/
theorem registry_keeps_spent_note :
    ∃ (provider provider' : DiscoveryProvider) (result result' : CompileResult),
      provider.Indexer Starknet.sampleRecover 3 Sample.fundedState ∧
      provider'.Indexer Starknet.sampleRecover 3 Sample.spentState ∧
      Sample.fundedState.Before Domain.sample Sample.spentState ∧
      compile Starknet.sample Sample.random (ContractAddress.toFelt 5) 3 0 provider provider
        Sample.inTurn { surpluses := some [] } (Sample.discoverAll {}) = .ok result ∧
      compile Starknet.sample Sample.random (ContractAddress.toFelt 5) 3 0 provider' provider'
        Sample.inTurn { surpluses := some [] } (Sample.discoverAll result.registry) = .ok result' ∧
      ¬NotesRight 3 Sample.spentState 77 (result'.registry.notesOf 77) := by
  obtain ⟨notes, cursor, icc, hcall, hget, hkey, hindex⟩ := Sample.funded_call
  obtain ⟨-, -, -, hseen, -⟩ := discoverNotes_fresh Starknet.sample_curveLaw
    Starknet.sample_recoversPoints Sample.derived Sample.fundedState.stored hcall
  obtain ⟨cursorLimits, hroom⟩ := exists_leavesRoom Sample.fundedState Sample.spentState
  obtain ⟨notes', cursor', hcall'⟩ := exists_laterCall Starknet.sample_curveLaw
    Starknet.sample_recoversPoints Sample.derived Sample.funded_before_spent hseen
    (hroom 0 _ le_rfl) (Sample.spent_scanned hget hkey hindex) fun _ => ⟨[], fun _ => []⟩
  refine ⟨_, _, _, _, Sample.answering_indexer hcall, Sample.answering_indexer hcall',
    Sample.funded_before_spent, Sample.compile_discoverAll _ rfl (by
      rw [Sample.funded_notes hcall]; rfl), Sample.compile_discoverAll _ rfl (by
      rw [Sample.spent_notes hseen hget hkey hindex hcall']; rfl), fun hright => ?_⟩
  have hspent : isSpent Starknet.sample Sample.spentState.backend 3 1 77 0 = true := by
    decide +kernel
  exact Bool.false_ne_true
    ((hright.unspent Sample.firstNote List.mem_cons_self).symm.trans hspent)

end PrivacyPool.Sdk
