import PrivacyPool.Discovery.Outgoing
import PrivacyPool.Sdk.IndexerDiscovery

/-!
# What `discoverChannels` accumulates

The channels that exist already are kept by recipient, the last one wins. Of the reports on
a subchannel the last one with an index wins, or the first one without.

## Main definitions

* `Accumulated.reportAt` — what is accumulated about a subchannel

## Main results

* `created_foldl`, `reportAt_foldl` — what a list of channels or reports makes of it
* `buildChannelMap_of_created` — the entry of a channel that exists already
-/

namespace PrivacyPool.Sdk

open Discovery HashMap

variable {acc : Accumulated} {addr token : Felt}

/-! ### Channels -/

/-- A channel that exists already, and leads to an address. -/
def createdToward (addr : Felt) (channel : OutgoingChannel) : Bool :=
  !channel.precomputed && decide (channel.recipientAddr = addr)

theorem created_accumulateChannel (channel : OutgoingChannel) :
    AddressMap.get (accumulateChannel acc channel).created addr =
      if createdToward addr channel then some (channel.recipientPublicKey, channel.channelKey)
      else AddressMap.get acc.created addr := by
  unfold accumulateChannel createdToward
  cases channel.precomputed with
  | true =>
    rw [Bool.not_true, Bool.false_and, if_neg Bool.false_ne_true, if_pos rfl]
    split_ifs <;> rfl
  | false =>
    simp only [Bool.not_false, Bool.true_and, decide_eq_true_eq, Bool.false_eq_true, if_false]
    rw [AddressMap.get_set]
    exact if_congr eq_comm rfl rfl

/-- The last channel toward an address that exists already is the one that is kept. -/
theorem created_foldl (channels : List OutgoingChannel) :
    AddressMap.get (channels.foldl accumulateChannel acc).created addr =
      ((channels.reverse.find? (createdToward addr)).map fun channel =>
        (channel.recipientPublicKey, channel.channelKey)).or (AddressMap.get acc.created addr) := by
  induction channels generalizing acc with
  | nil => rfl
  | cons channel channels ih =>
    rw [List.foldl_cons, ih, List.reverse_cons, List.find?_append, created_accumulateChannel,
      List.find?_singleton]
    cases channels.reverse.find? (createdToward addr) with
    | some found => rfl
    | none => split_ifs <;> rfl

/-- Precomputed channels are not kept as existing ones. -/
theorem created_foldl_of_precomputed {channels : List OutgoingChannel}
    (h : ∀ channel ∈ channels, channel.precomputed = true) :
    (channels.foldl accumulateChannel acc).created = acc.created := by
  induction channels generalizing acc with
  | nil => rfl
  | cons channel channels ih =>
    rw [List.foldl_cons, ih fun channel' hmem => h channel' (List.mem_cons_of_mem _ hmem)]
    unfold accumulateChannel
    rw [if_pos (h channel List.mem_cons_self)]
    split_ifs <;> rfl

theorem subchannels_foldl_accumulateChannel (channels : List OutgoingChannel) :
    (channels.foldl accumulateChannel acc).subchannels = acc.subchannels := by
  induction channels generalizing acc with
  | nil => rfl
  | cons channel channels ih =>
    rw [List.foldl_cons, ih]
    unfold accumulateChannel
    dsimp only
    split_ifs <;> rfl

/-! ### Reports -/

/-- What is accumulated about a subchannel. -/
def Accumulated.reportAt (acc : Accumulated) (addr token : Felt) : Option (Option ℕ) :=
  AddressMap.get ((AddressMap.get acc.subchannels addr).getD []) token

theorem created_foldl_accumulateSubchannel (reports : List OutgoingSubchannel) :
    (reports.foldl accumulateSubchannel acc).created = acc.created := by
  induction reports generalizing acc with
  | nil => rfl
  | cons report reports ih =>
    rw [List.foldl_cons, ih]
    rfl

theorem reportAt_accumulateSubchannel (report : OutgoingSubchannel) :
    (accumulateSubchannel acc report).reportAt addr token =
      if report.IsOn addr token then
        if acc.reportAt addr token = none ∨ report.lastNoteIndex.isSome then
          some report.lastNoteIndex
        else acc.reportAt addr token
      else acc.reportAt addr token := by
  unfold Accumulated.reportAt accumulateSubchannel
  dsimp only
  rw [AddressMap.get_set]
  by_cases haddr : report.recipientAddr = addr
  · subst haddr
    rw [if_pos rfl, Option.getD_some]
    generalize (AddressMap.get acc.subchannels report.recipientAddr).getD [] = tokenMap
    -- A report on another token of the recipient leaves this one alone.
    by_cases htoken : report.token = token
    · subst htoken
      have hon : report.IsOn report.recipientAddr report.token = true := decide_eq_true ⟨rfl, rfl⟩
      simp only [hon, if_true, ← AddressMap.get_eq_none_iff]
      split_ifs
      · rw [AddressMap.get_set, if_pos rfl]
      · rfl
    · have hoff : report.IsOn report.recipientAddr token = false := decide_eq_false fun h => htoken h.2
      rw [hoff, if_neg Bool.false_ne_true]
      split_ifs
      · rw [AddressMap.get_set, if_neg (Ne.symm htoken)]
      · rfl
  · have hoff : report.IsOn addr token = false := decide_eq_false fun h => haddr h.1
    rw [hoff, if_neg Bool.false_ne_true, if_neg (Ne.symm haddr)]

/-- When the reports on a subchannel are right or have no index, and a right one is among
them, the right one is kept. -/
theorem reportAt_foldl {reports : List OutgoingSubchannel} {last : Option ℕ}
    (hall : ∀ report ∈ reports, report.IsOn addr token = true →
      report.lastNoteIndex = none ∨ report.lastNoteIndex = last)
    (hacc : acc.reportAt addr token = none ∨ acc.reportAt addr token = some none ∨
      acc.reportAt addr token = some last)
    (hright : acc.reportAt addr token = some last ∨
      ∃ report ∈ reports, report.IsOn addr token = true ∧ report.lastNoteIndex = last) :
    (reports.foldl accumulateSubchannel acc).reportAt addr token = some last := by
  induction reports generalizing acc with
  | nil =>
    rcases hright with hright | ⟨_, hmem, -⟩
    · exact hright
    · cases hmem
  | cons report reports ih =>
    have hhead := hall report List.mem_cons_self
    have hstep : (accumulateSubchannel acc report).reportAt addr token = _ :=
      reportAt_accumulateSubchannel report
    refine ih (fun report' hmem => hall report' (List.mem_cons_of_mem _ hmem)) ?_ ?_
    · rw [hstep]
      split_ifs with hon hset
      · exact .inr ((hhead hon).imp (congrArg some) (congrArg some))
      · exact hacc
      · exact hacc
    · rw [hstep]
      rcases hright with hright | ⟨report', hmem, hon, hlast⟩
      · refine .inl ?_
        split_ifs with hon hset
        · -- A report with an index has the right one.
          rcases hhead hon with hnone | hsame
          · rw [hright, hnone] at hset
            simp at hset
          · rw [hsame]
        · exact hright
        · exact hright
      -- The right report is this one, or one of the rest.
      · rcases List.mem_cons.mp hmem with rfl | hrest
        · refine .inl ?_
          rw [hon, if_pos rfl]
          split_ifs with hset
          · rw [hlast]
          · -- What is kept without an index is right when there is none.
            rw [not_or, Bool.not_eq_true, Option.isSome_eq_false_iff, Option.isNone_iff_eq_none,
              hlast] at hset
            rcases hacc with hnone | hnone | hsame
            · exact absurd hnone hset.1
            · rw [hnone, hset.2]
            · exact hsame
        · exact .inr ⟨report', hrest, hon, hlast⟩

/-! ### Pages -/

/-- What is accumulated over some pages. -/
def accumulated (acc : Accumulated) (results : List SyncOutgoingStateResult) : Accumulated :=
  results.foldl (fun acc resp => accumulateOutgoingResponse resp acc) acc

/-- The channels of all pages are kept as those of one list. -/
theorem created_accumulated (results : List SyncOutgoingStateResult) :
    AddressMap.get (accumulated acc results).created addr =
      (((results.flatMap (·.channels)).reverse.find? (createdToward addr)).map fun channel =>
        (channel.recipientPublicKey, channel.channelKey)).or (AddressMap.get acc.created addr) := by
  induction results generalizing acc with
  | nil => rfl
  | cons resp results ih =>
    rw [accumulated, List.foldl_cons, ← accumulated, ih, accumulateOutgoingResponse,
      created_foldl_accumulateSubchannel, created_foldl, List.flatMap_cons, List.reverse_append,
      List.find?_append, ← Option.or_assoc]
    congr 1
    cases (results.flatMap (·.channels)).reverse.find? (createdToward addr) <;> rfl

/-- What is accumulated about subchannels only depends on what was. -/
theorem subchannels_foldl_congr {acc' : Accumulated} (h : acc.subchannels = acc'.subchannels)
    (reports : List OutgoingSubchannel) :
    (reports.foldl accumulateSubchannel acc).subchannels =
      (reports.foldl accumulateSubchannel acc').subchannels := by
  induction reports generalizing acc acc' with
  | nil => exact h
  | cons report reports ih =>
    refine ih ?_
    unfold accumulateSubchannel
    rw [h]

/-- The reports of all pages are kept as those of one list. -/
theorem subchannels_accumulated (results : List SyncOutgoingStateResult) :
    (accumulated acc results).subchannels =
      ((results.flatMap (·.subchannels)).foldl accumulateSubchannel acc).subchannels := by
  induction results generalizing acc with
  | nil => rfl
  | cons resp results ih =>
    rw [accumulated, List.foldl_cons, ← accumulated, ih, List.flatMap_cons, List.foldl_append]
    refine subchannels_foldl_congr ?_ _
    exact subchannels_foldl_congr (subchannels_foldl_accumulateChannel resp.channels) _

/-! ### The result -/

theorem get_buildTokens (subs : List (Felt × Option ℕ)) (token : Felt) :
    ∃ number : ℕ, AddressMap.get (buildTokens subs) token =
      (AddressMap.get subs token).map fun last => ⟨number, last.elim 0 (· + 1)⟩ := by
  suffices hstart : ∀ start, ∃ number : ℕ, AddressMap.get ((subs.zipIdx start).map fun entry =>
      (entry.1.1, TokenChannel.mk entry.2 (entry.1.2.elim 0 (· + 1)))) token =
        (AddressMap.get subs token).map fun last => ⟨number, last.elim 0 (· + 1)⟩ from hstart 0
  intro start
  induction subs generalizing start with
  | nil => exact ⟨0, rfl⟩
  | cons sub subs ih =>
    rw [List.zipIdx_cons, List.map_cons]
    by_cases htoken : sub.1 = token
    · refine ⟨start, ?_⟩
      unfold AddressMap.get
      rw [List.find?_cons_of_pos (by simpa using htoken),
        List.find?_cons_of_pos (by simpa using htoken)]
      rfl
    · obtain ⟨number, hnumber⟩ := ih (start + 1)
      refine ⟨number, ?_⟩
      unfold AddressMap.get at hnumber ⊢
      rw [List.find?_cons_of_neg (by simpa using htoken),
        List.find?_cons_of_neg (by simpa using htoken)]
      exact hnumber

theorem keys_buildTokens (subs : List (Felt × Option ℕ)) : keys (buildTokens subs) = keys subs := by
  have hfst : keys (buildTokens subs) = subs.zipIdx.map (Prod.fst ∘ Prod.fst) := by
    rw [buildTokens, keys, List.map_map]
    rfl
  rw [hfst, ← List.map_map, List.zipIdx_map_fst]
  rfl

theorem of_mem_buildTokens {subs : List (Felt × Option ℕ)} {entry : Felt × TokenChannel}
    (h : entry ∈ buildTokens subs) :
    ∃ last, (entry.1, last) ∈ subs ∧ entry.2.noteNonce = last.elim 0 (· + 1) := by
  obtain ⟨⟨⟨token, last⟩, number⟩, hmem, rfl⟩ := List.mem_map.mp h
  exact ⟨last, List.fst_mem_of_mem_zipIdx hmem, rfl⟩

/-- The entry of a channel that exists already has its key and its tokens. -/
theorem buildChannelMap_of_created {publicKey channelKey : Felt}
    (h : AddressMap.get acc.created addr = some (publicKey, channelKey)) :
    AddressMap.get (buildChannelMap acc) addr = some
      { publicKey, key := some channelKey
        tokens := buildTokens ((AddressMap.get acc.subchannels addr).getD []) } := by
  unfold buildChannelMap
  have hcreated := AddressMap.get_map acc.created (fun recipient info => ({
    publicKey := info.1, key := some info.2
    tokens := buildTokens ((AddressMap.get acc.subchannels recipient).getD []) } : Channel)) addr
  rw [h, Option.map_some] at hcreated
  rw [AddressMap.get_append]
  exact congrArg (Option.or · _) hcreated

/-- Without channels that exist already, no entry has a key. -/
theorem buildChannelMap_of_none (h : acc.created = []) :
    ∀ entry ∈ buildChannelMap acc, entry.2.key = none := by
  intro entry hentry
  unfold buildChannelMap at hentry
  rw [h] at hentry
  obtain ⟨_, -, rfl⟩ := List.mem_map.mp hentry
  rfl

end PrivacyPool.Sdk
