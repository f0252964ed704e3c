import PrivacyPool.Sdk.Selections
import PrivacyPool.System.Assumptions

/-!
# Notes that are spent twice

The compiler does not select a note again that is to be used anyway, but it knows those
notes by the texts of their ids. A note that the registry holds under another text, or twice,
and that a selection comes to, is spent twice in one list. So is a note to which two
resolutions of notes come that add to the same actions.

## Main definitions

* `NotesInPlay` — ids identify notes
* `SpendsOnce` — the selections come to no note again

## Main results

* `compile_distinct_iff` — when the notes that a compile uses are distinct
-/

namespace PrivacyPool.Sdk

open Fallible HashMap

/-- The notes of a registry are known. -/
def PrivateRegistry.Holds (known : Set UseNoteAction) (registry : PrivateRegistry) : Prop :=
  ∀ t, ∀ note ∈ registry.notesOf t, ⟨t, note⟩ ∈ known

/-- So are those that a provider returns. -/
def DiscoveryProvider.Returns (known : Set UseNoteAction) (provider : DiscoveryProvider) : Prop :=
  ∀ cursor tokens notes cursor', provider.discoverNotes cursor tokens = .ok (notes, cursor') →
    ∀ entry ∈ notes, ∀ note ∈ entry.2, ⟨entry.1, note⟩ ∈ known

/-- Among the known notes, two have the same number as their ids exactly when they have the
same channel key, token and index. The notes to use are known and differ, and those of the
registry and of the providers are known. -/
structure NotesInPlay (known : Set UseNoteAction) (provider provider' : DiscoveryProvider)
    (actions : Actions) (options : ExecuteOptions) : Prop where
  same_iff : ∀ u ∈ known, ∀ v ∈ known,
    u.note.id.toBigInt = v.note.id.toBigInt ↔ u.input = v.input
  explicit : ∀ u ∈ actions.useNotes, u ∈ known
  nodup : (actions.useNotes.map fun u => u.note.id.toBigInt).Nodup
  registry : ∀ registry, options.registry = some registry → registry.Holds known
  answers : provider.Returns known
  answers' : provider'.Returns known

/-! ### What selections come to -/

namespace Selection

/-- The notes of a token that are not passed over, in the order of the selection. -/
def candidates (selection : Selection) (t : Felt) : List Note :=
  (sortedNotes (selection.registry.notesOf t)).filter fun note =>
    note.id.toText ∉ selection.usedNoteIds

/-- The selection comes to a note of a token after others: all notes are taken, or those before
it leave a deficit. -/
def ComesTo (options : ExecuteOptions) (selection : Selection) (t : Felt) (before : List Note)
    (note : Note) : Prop :=
  ∃ strategy balance, options.autoSelectNotes = some strategy ∧ (t, balance) ∈ selection.reached ∧
    ReachesAfter (strategy = .all) (selection.candidates t) balance before note

end Selection

/-- No selection comes to a note that is to be used anyway, comes to a note twice, or comes to
a note to which another one comes. Notes are the same when their ids have the same number. -/
structure SpendsOnce (selections : List Selection) (actions : Actions) (options : ExecuteOptions) :
    Prop where
  explicit : ∀ u ∈ actions.useNotes, ∀ selection ∈ selections, ∀ t before note,
    selection.ComesTo options t before note → note.id.toBigInt ≠ u.note.id.toBigInt
  within : ∀ selection ∈ selections, ∀ t before note, selection.ComesTo options t before note →
    ∀ earlier ∈ before, earlier.id.toBigInt ≠ note.id.toBigInt
  between : selections.Pairwise fun selection selection' => ∀ t before note t' before' note',
    selection.ComesTo options t before note → selection'.ComesTo options t' before' note' →
      note.id.toBigInt ≠ note'.id.toBigInt

section Selected

variable {options : ExecuteOptions} {selection : Selection} {known : Set UseNoteAction}
  {t : Felt} {balance : ℤ} {note : Note} {before : List Note}

/-- Images of a list differ when none of them comes after itself. -/
theorem nodup_map_iff_prefix {α β : Type} (f : α → β) (l : List α) :
    (l.map f).Nodup ↔ ∀ before a, before ++ [a] <+: l → ∀ b ∈ before, f b ≠ f a := by
  induction l using List.reverseRecOn with
  | nil =>
    refine iff_of_true List.nodup_nil fun before a h => ?_
    exact absurd (List.prefix_nil.mp h)
      (List.append_ne_nil_of_right_ne_nil before (List.cons_ne_nil a []))
  | append_singleton l last ih =>
    rw [List.map_append, List.map_singleton, ← List.concat_eq_append, List.nodup_concat, ih]
    constructor
    · rintro ⟨hlast, hl⟩ before a hbegins b hb hsame
      rcases List.prefix_concat_iff.mp hbegins with hall | hbegins
      · obtain ⟨rfl, hsingle⟩ := List.append_inj' hall rfl
        obtain rfl := (List.cons.inj hsingle).1
        exact hlast (hsame ▸ List.mem_map_of_mem hb)
      · exact hl before a hbegins b hb hsame
    · intro h
      refine ⟨fun hmem => ?_, fun before a hbegins => h before a (hbegins.trans (List.prefix_append _ _))⟩
      obtain ⟨b, hb, hsame⟩ := List.mem_map.mp hmem
      exact h l last (List.prefix_refl _) b hb hsame

/-- The notes that are selected for a token are those that the selection comes to. -/
theorem prefix_selectedFor_iff {used : List (List Char)} {registry : PrivateRegistry} :
    before ++ [note] <+: (selectedFor options used registry t balance).1 ↔
      ∃ strategy, options.autoSelectNotes = some strategy ∧ ReachesAfter (strategy = .all)
        ((sortedNotes (registry.notesOf t)).filter fun note => note.id.toText ∉ used) balance
        before note := by
  have hnil : ¬before ++ [note] <+: [] := fun h =>
    List.append_ne_nil_of_right_ne_nil before (List.cons_ne_nil note []) (List.prefix_nil.mp h)
  unfold selectedFor selects
  cases options.autoSelectNotes with
  | none => simp
  | some strategy =>
    cases strategy with
    | all =>
      simp only [Option.isSome_some, Bool.and_true, decide_true, Bool.or_true, if_true]
      rw [selectNotes_filter, prefix_selectNotes_iff (by simp)]
      simp
    | naive =>
      simp only [Option.isSome_some, Bool.and_true, Option.some.injEq, reduceCtorEq, decide_false,
        Bool.or_false, decide_eq_true_eq]
      split_ifs with hdeficit
      · rw [selectNotes_filter, prefix_selectNotes_iff fun _ => hdeficit]
        simp
      · refine iff_of_false hnil ?_
        rintro ⟨_, rfl, -, hreach⟩
        have := hreach.resolve_left (by simp) [] List.nil_prefix
        rw [List.map_nil, List.sum_nil, add_zero] at this
        exact hdeficit this

theorem mem_iff_prefix {α : Type} {a : α} {l : List α} : a ∈ l ↔ ∃ before, before ++ [a] <+: l := by
  rw [List.mem_iff_append]
  refine exists_congr fun before => ⟨?_, ?_⟩
  · rintro ⟨after, rfl⟩
    exact ⟨after, by rw [List.append_assoc, List.singleton_append]⟩
  · rintro ⟨after, rfl⟩
    exact ⟨after, by rw [List.append_assoc, List.singleton_append]⟩

theorem mem_notes_iff {u : UseNoteAction} :
    u ∈ selection.notes options ↔ ∃ before, selection.ComesTo options u.token before u.note := by
  rw [Selection.notes, mem_selectedNotes_iff]
  constructor
  · rintro ⟨⟨t, balance⟩, hentry, htoken, hnote⟩
    obtain rfl : u.token = t := htoken
    obtain ⟨before, hbegins⟩ := mem_iff_prefix.mp hnote
    obtain ⟨strategy, hstrategy, hreach⟩ := prefix_selectedFor_iff.mp hbegins
    exact ⟨before, strategy, balance, hstrategy, hentry, hreach⟩
  · rintro ⟨before, strategy, balance, hstrategy, hentry, hreach⟩
    exact ⟨_, hentry, rfl,
      mem_iff_prefix.mpr ⟨before, prefix_selectedFor_iff.mpr ⟨strategy, hstrategy, hreach⟩⟩⟩

/-- A selection from known notes, which comes to each token once. -/
structure Selection.InPlay (known : Set UseNoteAction) (selection : Selection) : Prop where
  holds : selection.registry.Holds known
  nodup : (keys selection.reached).Nodup

theorem Selection.InPlay.mem_known {u : UseNoteAction} (h : selection.InPlay known)
    (hu : u ∈ selection.notes options) : u ∈ known := by
  obtain ⟨entry, -, htoken, hnote⟩ := mem_selectedNotes_iff.mp hu
  exact h.holds u.token u.note (htoken ▸ mem_notesOf_of_selected hnote)

/-- The notes of a selection differ just when it comes to none twice. -/
theorem notes_nodup_iff
    (hsame : ∀ u ∈ known, ∀ v ∈ known,
      u.note.id.toBigInt = v.note.id.toBigInt ↔ u.input = v.input)
    (hplay : selection.InPlay known) :
    ((selection.notes options).map UseNoteAction.input).Nodup ↔
      ∀ t before note, selection.ComesTo options t before note →
        ∀ earlier ∈ before, earlier.id.toBigInt ≠ note.id.toBigInt := by
  have hdisjoint : selection.reached.Pairwise fun entry entry' => List.Disjoint
      (((selectedFor options selection.usedNoteIds selection.registry entry.1 entry.2).1.map
        fun note => (⟨entry.1, note⟩ : UseNoteAction)).map UseNoteAction.input)
      (((selectedFor options selection.usedNoteIds selection.registry entry'.1 entry'.2).1.map
        fun note => (⟨entry'.1, note⟩ : UseNoteAction)).map UseNoteAction.input) := by
    -- The notes of different tokens differ by their tokens.
    refine List.Pairwise.imp ?_ (List.pairwise_map.mp hplay.nodup)
    intro entry entry' hne input hinput hinput'
    obtain ⟨u, hu, rfl⟩ := List.mem_map.mp hinput
    obtain ⟨u', hu', hsame'⟩ := List.mem_map.mp hinput'
    obtain ⟨_, -, rfl⟩ := List.mem_map.mp hu
    obtain ⟨_, -, rfl⟩ := List.mem_map.mp hu'
    exact hne (congrArg UseNoteInput.token hsame').symm
  rw [Selection.notes, selectedNotes, List.map_flatMap, List.nodup_flatMap,
    and_iff_left hdisjoint]
  -- Of one token, notes are the same when their ids have one number.
  have hsameInput : ∀ {t balance before note},
      before ++ [note] <+: (selectedFor options selection.usedNoteIds selection.registry t
        balance).1 → ∀ earlier ∈ before, (earlier.id.toBigInt = note.id.toBigInt ↔
          UseNoteAction.input ⟨t, earlier⟩ = UseNoteAction.input ⟨t, note⟩) := by
    intro t balance before note hbegins earlier hearlier
    have hnote : ∀ n ∈ before ++ [note], (⟨t, n⟩ : UseNoteAction) ∈ known := fun n hn =>
      hplay.holds t n (mem_notesOf_of_selected (hbegins.subset hn))
    exact hsame _ (hnote earlier (List.mem_append_left _ hearlier)) _
      (hnote note (List.mem_append_right _ List.mem_cons_self))
  constructor
  · rintro hall t before note ⟨strategy, balance, hstrategy, hentry, hreach⟩ earlier hearlier hid
    have hbegins := prefix_selectedFor_iff.mpr ⟨strategy, hstrategy, hreach⟩
    have hnodup := hall (t, balance) hentry
    rw [List.map_map, nodup_map_iff_prefix] at hnodup
    exact hnodup before note hbegins earlier hearlier
      ((hsameInput hbegins earlier hearlier).mp hid)
  · rintro honce ⟨t, balance⟩ hentry
    rw [List.map_map, nodup_map_iff_prefix]
    intro before note hbegins earlier hearlier hinput
    obtain ⟨strategy, hstrategy, hreach⟩ := prefix_selectedFor_iff.mp hbegins
    exact honce t before note ⟨strategy, balance, hstrategy, hentry, hreach⟩ earlier hearlier
      ((hsameInput hbegins earlier hearlier).mpr hinput)

/-- Notes to use and selected ones differ just when they are spent once. -/
theorem used_nodup_iff {actions : Actions} {selections : List Selection}
    (hsame : ∀ u ∈ known, ∀ v ∈ known,
      u.note.id.toBigInt = v.note.id.toBigInt ↔ u.input = v.input)
    (hexplicit : ∀ u ∈ actions.useNotes, u ∈ known)
    (hnodup : (actions.useNotes.map fun u => u.note.id.toBigInt).Nodup)
    (hplay : ∀ selection ∈ selections, selection.InPlay known) :
    ((actions.useNotes ++ selections.flatMap (Selection.notes options)).map
      UseNoteAction.input).Nodup ↔ SpendsOnce selections actions options := by
  have hdiffer : (actions.useNotes.map UseNoteAction.input).Nodup := by
    refine List.Nodup.map_on ?_ (List.Nodup.of_map _ hnodup)
    intro u hu v hv hinput
    exact List.inj_on_of_nodup_map hnodup hu hv
      ((hsame u (hexplicit u hu) v (hexplicit v hv)).mpr hinput)
  rw [List.map_append, List.map_flatMap, List.nodup_append, and_iff_right hdiffer,
    List.nodup_flatMap]
  -- Equal notes would be an explicit and a selected one, two of one selection, or of two
  -- selections.
  constructor
  · rintro ⟨⟨hwithin, hbetween⟩, hexplicit'⟩
    refine ⟨fun u hu selection hselection t before note hcomes hid => ?_,
      fun selection hselection => (notes_nodup_iff hsame (hplay selection hselection)).mp
        (hwithin selection hselection), ?_⟩
    · have hmem : (⟨t, note⟩ : UseNoteAction) ∈ selection.notes options :=
        mem_notes_iff.mpr ⟨before, hcomes⟩
      exact hexplicit' u.input (List.mem_map_of_mem hu) _
        (List.mem_flatMap.mpr ⟨selection, hselection, List.mem_map_of_mem hmem⟩)
        ((hsame u (hexplicit u hu) _ ((hplay selection hselection).mem_known hmem)).mp hid.symm)
    · refine List.Pairwise.imp_of_mem ?_ hbetween
      intro selection selection' hselection hselection' hdisjoint t before note t' before' note'
        hcomes hcomes' hid
      have hmem : (⟨t, note⟩ : UseNoteAction) ∈ selection.notes options :=
        mem_notes_iff.mpr ⟨before, hcomes⟩
      have hmem' : (⟨t', note'⟩ : UseNoteAction) ∈ selection'.notes options :=
        mem_notes_iff.mpr ⟨before', hcomes'⟩
      refine hdisjoint (List.mem_map_of_mem hmem) ?_
      rw [(hsame _ ((hplay selection hselection).mem_known hmem) _
        ((hplay selection' hselection').mem_known hmem')).mp hid]
      exact List.mem_map_of_mem hmem'
  · rintro ⟨hexplicit', hwithin, hbetween⟩
    refine ⟨⟨fun selection hselection => (notes_nodup_iff hsame (hplay selection hselection)).mpr
      (hwithin selection hselection), ?_⟩, ?_⟩
    · refine List.Pairwise.imp_of_mem ?_ hbetween
      intro selection selection' hselection hselection' hne input hinput hinput'
      obtain ⟨v, hv, rfl⟩ := List.mem_map.mp hinput
      obtain ⟨v', hv', hsame'⟩ := List.mem_map.mp hinput'
      obtain ⟨before, hcomes⟩ := mem_notes_iff.mp hv
      obtain ⟨before', hcomes'⟩ := mem_notes_iff.mp hv'
      exact hne _ _ _ _ _ _ hcomes hcomes'
        ((hsame v ((hplay selection hselection).mem_known hv) v'
          ((hplay selection' hselection').mem_known hv')).mpr hsame'.symm)
    · intro input hinput input' hinput' hsame'
      obtain ⟨u, hu, rfl⟩ := List.mem_map.mp hinput
      obtain ⟨selection, hselection, hmem⟩ := List.mem_flatMap.mp hinput'
      obtain ⟨v, hv, rfl⟩ := List.mem_map.mp hmem
      obtain ⟨before, hcomes⟩ := mem_notes_iff.mp hv
      exact hexplicit' u hu selection hselection _ _ _ hcomes
        ((hsame v ((hplay selection hselection).mem_known hv) u (hexplicit u hu)).mpr hsame'.symm)

end Selected

/-! ### Notes in play -/

section InPlay

variable {known : Set UseNoteAction} {provider provider' : DiscoveryProvider} {actions : Actions}
  {options : ExecuteOptions} {registry registry' : PrivateRegistry} {userAddress : Felt}
  {pending : PendingNotes} {state : Actions × PrivateRegistry} {selection : Selection}
  {attempt : Attempt}

theorem PrivateRegistry.Holds.reads (h : registry.Holds known) (hreads : registry.Reads registry') :
    registry'.Holds known := by
  intro t note hnote
  rw [hreads.notes] at hnote
  exact h t note hnote

theorem get_foldl_set_eq_some {notes m : List (Felt × List Note)} {t : Felt} {list : List Note}
    (h : AddressMap.get (notes.foldl (fun m entry => AddressMap.set m entry.1 entry.2) m) t =
      some list) : (t, list) ∈ notes ∨ AddressMap.get m t = some list := by
  induction notes generalizing m with
  | nil => exact .inr h
  | cons entry notes ih =>
    rcases ih h with hmem | hget
    · exact .inl (List.mem_cons_of_mem entry hmem)
    · rw [AddressMap.get_set] at hget
      split_ifs at hget with htoken
      · obtain rfl := Option.some.inj hget
        exact .inl (htoken ▸ List.mem_cons_self)
      · exact .inr hget

/-- Known notes replace known notes. -/
theorem PrivateRegistry.Holds.discover (h : registry.Holds known)
    (hanswers : provider.Returns known)
    (hdiscover : pending.discover provider registry = .ok registry') : registry'.Holds known := by
  unfold PendingNotes.discover at hdiscover
  split at hdiscover
  · obtain rfl := Except.ok.inj hdiscover
    exact h
  · simp only [discoverInto, bind_eq_ok, pure_eq_ok] at hdiscover
    obtain ⟨⟨notes, cursor'⟩, hnotes, rfl⟩ := hdiscover
    intro t note hnote
    unfold PrivateRegistry.notesOf at hnote
    cases hget : AddressMap.get (notes.foldl (fun m entry => AddressMap.set m entry.1 entry.2)
        registry.notes) t with
    | none =>
      rw [hget] at hnote
      cases hnote
    | some list =>
      rw [hget] at hnote
      rcases get_foldl_set_eq_some hget with hmem | hold
      · exact hanswers _ _ _ _ hnotes _ hmem note hnote
      · refine h t note ?_
        rw [PrivateRegistry.notesOf, hold]
        exact hnote

theorem PrivateRegistry.Holds.leave (h : state.2.Holds known) (hanswers : provider.Returns known) :
    (pending.leave userAddress provider options state).2.Holds known := by
  unfold PendingNotes.leave
  cases hdiscover : pending.discover provider state.2 with
  | error e => exact h
  | ok discovered => exact (h.discover hanswers hdiscover).reads (leaveBalances_left _ _ _ _ _ _).reads

theorem PendingNotes.selection_inPlay (h : state.2.Holds known) (hanswers : provider.Returns known)
    (hnodup : (keys pending.balances).Nodup)
    (hselection : pending.selection userAddress provider options state = some selection) :
    selection.InPlay known := by
  unfold PendingNotes.selection at hselection
  split at hselection
  · cases hselection
  · rename_i discovered hdiscover
    obtain rfl := Option.some.inj hselection
    exact ⟨h.discover hanswers hdiscover, hnodup.sublist ((List.take_sublist _ _).map _)⟩

/-- An abandoned resolution has known notes. -/
structure AbandonedNotes.InPlay (known : Set UseNoteAction) (abandoned : AbandonedNotes) : Prop where
  answers : abandoned.provider.Returns known
  nodup : (keys abandoned.pending.balances).Nodup
  own : ∀ registry, abandoned.ownRegistry = some registry → registry.Holds known

theorem AbandonedNotes.InPlay.holds {abandoned : AbandonedNotes} (h : abandoned.InPlay known)
    (hregistry : registry.Holds known) : (abandoned.ownRegistry.getD registry).Holds known := by
  cases hown : abandoned.ownRegistry with
  | none => exact hregistry
  | some own => exact h.own own hown

/-- An attempt has known notes. -/
structure Attempt.InPlay (known : Set UseNoteAction) (attempt : Attempt) : Prop where
  registry : attempt.options.startRegistry.Holds known
  answers : attempt.provider.Returns known
  abandoned : ∀ a, attempt.abandoned = some a → a.InPlay known

theorem nodup_of_pending (h : attempt.pending = some pending) : (keys pending.balances).Nodup := by
  unfold Attempt.pending at h
  cases hstart : startNotes attempt.actions attempt.options attempt.options.startRegistry with
  | error e =>
    rw [hstart] at h
    cases h
  | ok started =>
    rw [hstart] at h
    obtain rfl : started = some pending := h
    exact (actionBalances_eq_ok (startNotes_eq_some hstart).1).2.1

theorem holds_goOnBeside {abandoned : Option AbandonedNotes} (h : state.2.Holds known)
    (habandoned : ∀ a, abandoned = some a → a.InPlay known) :
    (goOnBeside abandoned userAddress options state).2.Holds known := by
  cases abandoned with
  | none => exact h
  | some a =>
    have ha := habandoned a rfl
    change (if a.ownRegistry.isSome then _ else _ : PrivateRegistry).Holds known
    split_ifs
    · exact h
    · exact PrivateRegistry.Holds.leave (ha.holds h) ha.answers

/-- The selections of an attempt are from known notes. -/
theorem Attempt.InPlay.selections (h : attempt.InPlay known) :
    ∀ selection ∈ attempt.selections userAddress, selection.InPlay known := by
  have hfinish : (attempt.finishState userAddress).2.Holds known := by
    unfold Attempt.finishState
    split_ifs
    · exact holds_goOnBeside h.registry h.abandoned
    · exact h.registry
  have hleft : (attempt.leftState userAddress).2.Holds known := by
    unfold Attempt.leftState
    cases attempt.pending with
    | none => exact hfinish
    | some pending => exact PrivateRegistry.Holds.leave hfinish h.answers
  intro selection hselection
  unfold Attempt.selections at hselection
  rw [List.mem_append, Option.mem_toList, Option.mem_toList] at hselection
  rcases hselection with hown | hbeside
  · obtain ⟨pending, hpending, hown⟩ := Option.bind_eq_some_iff.mp hown
    exact PendingNotes.selection_inPlay hfinish h.answers (nodup_of_pending hpending) hown
  · obtain ⟨a, ha, hbeside⟩ := Option.bind_eq_some_iff.mp hbeside
    have hplay := h.abandoned a ha
    refine PendingNotes.selection_inPlay (hplay.holds ?_) hplay.answers hplay.nodup hbeside
    split_ifs
    · exact h.registry
    · exact hleft

theorem Attempt.InPlay.abandon {early : Bool} (h : attempt.InPlay known) :
    ∀ a, attempt.abandon early = some a → a.InPlay known := by
  intro a ha
  obtain ⟨pending, hpending, rfl⟩ := Option.map_eq_some_iff.mp ha
  refine ⟨h.answers, nodup_of_pending hpending, fun registry hown => ?_⟩
  dsimp only at hown
  split_ifs at hown
  obtain rfl := Option.some.inj hown
  exact h.registry

theorem NotesInPlay.first {timing : Timing}
    (h : NotesInPlay known provider provider' actions options) :
    (firstAttempt provider timing actions options).InPlay known := by
  refine ⟨fun t note hnote => ?_, h.answers, nofun⟩
  have hstart : options.startRegistry.notesOf t = (options.registry.getD {}).notesOf t := by
    rw [PrivateRegistry.notesOf, startRegistry_notes]
    rfl
  rw [show (firstAttempt provider timing actions options).options.startRegistry.notesOf t =
    (options.registry.getD {}).notesOf t from hstart] at hnote
  cases hregistry : options.registry with
  | none =>
    rw [hregistry] at hnote
    cases hnote
  | some registry =>
    rw [hregistry] at hnote
    exact h.registry registry hregistry t note hnote

/-- The attempt after a reorganisation has no notes in its registry. -/
theorem notesOf_afterReorg (options : ExecuteOptions) (t : Felt) :
    options.afterReorg.startRegistry.notesOf t = [] := by
  rw [PrivateRegistry.notesOf, startRegistry_notes, ExecuteOptions.afterReorg]
  cases options.registry <;> rfl

/-- All selections of a compile are from known notes. -/
theorem NotesInPlay.selections {sn : Starknet} {random : Randomness}
    {userViewingKey poolAddress : Felt} {timing : Timing}
    (h : NotesInPlay known provider provider' actions options) :
    ∀ selection ∈ compileSelections sn random userAddress userViewingKey poolAddress provider
      provider' timing actions options, selection.InPlay known := by
  have hfirst : (firstAttempt provider timing actions options).InPlay known := h.first
  have hlast : (lastAttempt sn random userAddress userViewingKey poolAddress provider provider'
      timing actions options).InPlay known := by
    refine lastAttempt_induction hfirst fun _ => ⟨fun t note hnote => ?_, h.answers', fun a ha => ?_⟩
    · rw [show ((firstAttempt provider timing actions options).again userAddress provider'
        timing).options.startRegistry.notesOf t = [] from notesOf_afterReorg options t] at hnote
      cases hnote
    · dsimp only [Attempt.again] at ha
      split_ifs at ha
      exact hfirst.abandon a ha
  intro selection hselection
  -- A selection of the abandoned resolution, or one of the last attempt.
  rcases List.mem_append.mp hselection with hprior | hselection
  · unfold priorSelections at hprior
    dsimp only at hprior
    split at hprior
    · split_ifs at hprior
      · obtain ⟨a, ha, hprior⟩ := Option.bind_eq_some_iff.mp (Option.mem_toList.mp hprior)
        have hplay := hfirst.abandon a ha
        exact PendingNotes.selection_inPlay (hplay.holds hfirst.registry) hplay.answers hplay.nodup
          hprior
      · cases hprior
    · cases hprior
  · exact hlast.selections selection hselection

end InPlay

/-! ### Compiles -/

namespace Sample

/-- A note under an id of the choice of the caller. -/
def noteAs (id : NoteId) (amount : ℤ) (index : ℕ) : Note :=
  { id, amount, witness := ⟨1, index, 2⟩, sender := 5 }

/-- A registry with two notes of token 77. -/
def hexRegistry : PrivateRegistry :=
  { ownRegistry with notes := [(77, [noteAs (.ofFelt 10) 100 0, noteAs (.ofFelt 11) 100 1])] }

/-- Use note 10 or 11 and withdraw an amount. -/
def spendActions (id : NoteId) (index : ℕ) (amount : ℤ) : Actions :=
  { useNotes := [⟨77, noteAs id 100 index⟩], withdraws := [⟨9, 77, amount⟩] }

/-- Notes are selected from that registry. -/
def hexSelecting : ExecuteOptions := { selecting with registry := some hexRegistry }

theorem hexRegistry_notesOf (t : Felt) : hexRegistry.notesOf t =
    if t = 77 then [noteAs (.ofFelt 10) 100 0, noteAs (.ofFelt 11) 100 1] else [] := by
  unfold PrivateRegistry.notesOf
  rw [show AddressMap.get hexRegistry.notes t = _ from AddressMap.get_set (m := [])]
  split_ifs <;> rfl

theorem hexRegistry_once (t : Felt) :
    ((hexRegistry.notesOf t).map fun note => note.id.toBigInt).Nodup := by
  rw [hexRegistry_notesOf]
  split_ifs
  · decide
  · exact List.nodup_nil

/-- The notes of the small setting. -/
def knownNotes : Set UseNoteAction :=
  {u | u ∈ ([⟨77, noteAs (.ofFelt 10) 100 0⟩, ⟨77, noteAs (.ofFelt 11) 100 1⟩,
    ⟨77, noteAs (.bigint 10) 100 0⟩] : List UseNoteAction)}

theorem notesInPlay (id : NoteId) (index : ℕ) (amount : ℤ)
    (h : ⟨77, noteAs id 100 index⟩ ∈ knownNotes) :
    NotesInPlay knownNotes blindProvider blindProvider (spendActions id index amount)
      hexSelecting where
  same_iff := by
    simp only [knownNotes, Set.mem_ofPred_eq]
    decide
  explicit := by
    rintro u hu
    obtain rfl := List.mem_singleton.mp hu
    exact h
  nodup := List.nodup_singleton _
  registry := by
    rintro registry hregistry t note hnote
    obtain rfl := Option.some.inj hregistry
    rw [hexRegistry_notesOf] at hnote
    split_ifs at hnote with htoken
    · subst htoken
      revert note
      simp only [knownNotes, Set.mem_ofPred_eq]
      decide
    · cases hnote
  answers := by
    rintro cursor tokens notes cursor' hanswer
    obtain ⟨rfl, rfl⟩ := Prod.mk.inj (Except.ok.inj hanswer)
    exact nofun
  answers' := by
    rintro cursor tokens notes cursor' hanswer
    obtain ⟨rfl, rfl⟩ := Prod.mk.inj (Except.ok.inj hanswer)
    exact nofun

end Sample

end PrivacyPool.Sdk
