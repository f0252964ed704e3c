import PrivacyPool.Ledger.Structure

/-!
# Moves keep the book well-formed

A used slot was used before the move, or a block wrote it. The old slots keep
their invariants because these are about records that are kept; at the new ones
they follow from what the block was enabled by.

## Main results

* `Move.Step.wellFormed` — every move keeps the book well-formed
* `Book.blank_wellFormed` — a fresh book is well-formed
-/

namespace PrivacyPool

open WriteOnce

variable {sn : Starknet} {D : Domain} {m : Move} {B B' : Book}

theorem Move.Step.used_cases (h : m.Step sn D B B') {s : Slot} (hs : B'.ledger s 0 ≠ 0) :
    B.ledger s 0 ≠ 0 ∨ ∃ b value, m = .block b ∧ (s, value) ∈ b.puts ∧
      B'.ledger s = record value := by
  cases m with
  | block b =>
    have happlies : b.Applies sn D B B' := h
    rw [happlies.ledger] at hs ⊢
    rcases b.mem_puts_or_eq B.ledger s with ⟨value, hmem, hvalue⟩ | hsame
    · exact Or.inr ⟨b, value, rfl, hmem, hvalue⟩
    · exact Or.inl (by rwa [hsame] at hs)
  | fill note amount =>
    have hfills : Fills note amount B B' := h
    left
    by_cases hnote : s = .note note
    · subst hnote
      rw [hfills.awaits]
      exact openNotePackedValue_ne_zero
    · rwa [hfills.others s hnote] at hs

/-- A slot that is used after a run was used before it, or a block of the run wrote it. -/
theorem used_trace {moves : List Move} (trace : Trace (Move.Step sn D) B moves B') {s : Slot}
    (hs : B'.ledger s 0 ≠ 0) :
    B.ledger s 0 ≠ 0 ∨ ∃ b value B₁ B₂, .block b ∈ moves ∧ (s, value) ∈ b.puts ∧
      b.Applies sn D B₁ B₂ := by
  induction trace with
  | nil _ => exact Or.inl hs
  | cons h _ ih =>
    rcases ih hs with hmiddle | ⟨b, value, B₁, B₂, hb, hmem, happlies⟩
    · rcases h.used_cases hmiddle with hold | ⟨b, value, rfl, hmem, -⟩
      · exact Or.inl hold
      · exact Or.inr ⟨b, value, _, _, List.mem_cons_self, hmem, h⟩
    · exact Or.inr ⟨b, value, B₁, B₂, List.mem_cons_of_mem _ hb, hmem, happlies⟩

/-- Records other than notes are only ever written once. -/
theorem Move.Step.record_eq (h : m.Step sn D B B') {s : Slot} (hs : B.ledger s 0 ≠ 0)
    (hnote : ∀ n, s ≠ .note n) : B'.ledger s = B.ledger s :=
  h.later.record_eq_of_not_note hs hnote

theorem headed_step (h : m.Step sn D B B') (hB : Headed B.ledger) : Headed B'.ledger := by
  intro s hs
  cases m with
  | block b =>
    have happlies : b.Applies sn D B B' := h
    rw [happlies.ledger] at hs ⊢
    rcases b.mem_puts_or_eq B.ledger s with ⟨value, hmem, hvalue⟩ | hsame
    · rw [hvalue, record_zero] at hs
      exact absurd hs (happlies.fresh _ hmem).2
    · rw [hsame] at hs ⊢
      exact hB s hs
  | fill note amount =>
    have hfills : Fills note amount B B' := h
    have hne : s ≠ .note note := by
      rintro rfl
      exact pack_ne_zero (by decide) hfills.packed hs
    rw [hfills.others s hne] at hs ⊢
    exact hB s hs

theorem recordsCovered_step (h : m.Step sn D B B') (hB : RecordsCovered D B.ledger)
    (hheaded : Headed B'.ledger) : RecordsCovered D B'.ledger := by
  intro s hs
  have hused : B'.ledger s 0 ≠ 0 := fun hzero => hs (hheaded s hzero)
  rcases h.used_cases hused with hold | ⟨b, value, rfl, hmem, -⟩
  · exact hB s fun hzero => hold (congrFun hzero 0)
  · have happlies : b.Applies sn D B B' := h
    exact happlies.covered _ hmem

theorem keysRegistered_step (h : m.Step sn D B B') (hB : KeysRegistered sn B.ledger) :
    KeysRegistered sn B'.ledger := by
  intro user hused
  rcases h.used_cases hused with hold | ⟨b, value, rfl, hmem, hvalue⟩
  · rw [h.record_eq hold (by simp)]
    exact hB user hold
  · have happlies : b.Applies sn D B B' := h
    cases happlies.enabled with
    | setViewingKey hnonzero hcanonical hderived =>
      simp only [Block.puts, List.mem_cons, Prod.mk.injEq, reduceCtorEq, false_and,
        List.not_mem_nil, or_false] at hmem
      rw [hvalue, hmem.2]
      exact ⟨_, hnonzero, hcanonical, hderived⟩
    | _ => simp [Block.puts] at hmem

theorem OpenedWith.step (h : m.Step sn D B B') {c : Channel} {k : Felt}
    (hopened : OpenedWith sn D B.ledger c k) : OpenedWith sn D B'.ledger c k := by
  have hsender := h.record_eq hopened.sender (by simp)
  have hrecipient := h.record_eq (hopened.recipient ▸ hopened.registered) (by simp)
  exact ⟨by rw [hsender]; exact hopened.sender, by rw [hsender]; exact hopened.authenticated,
    hopened.recipient_ne, by rw [hrecipient]; exact hopened.recipient, hopened.registered,
    hopened.key, hopened.key_covered⟩

theorem channelsOpened_step (h : m.Step sn D B B') (hB : ChannelsOpened sn D B.ledger) :
    ChannelsOpened sn D B'.ledger := by
  intro c hused
  rcases h.used_cases hused with hold | ⟨b, value, rfl, hmem, hvalue⟩
  · obtain ⟨k, hopened⟩ := hB c hold
    exact ⟨k, hopened.step h⟩
  · have happlies : b.Applies sn D B B' := h
    cases happlies.enabled with
    | openChannel hsender hauthenticated hnonzero hrecipient hregistered hprevious hkey hcovered
        hinfo =>
      simp only [Block.puts, List.mem_cons, Prod.mk.injEq, Slot.channelExists.injEq, reduceCtorEq,
        false_and, List.not_mem_nil, or_false] at hmem
      obtain ⟨rfl, -⟩ := hmem
      have hopened : OpenedWith sn D B.ledger c _ :=
        ⟨hsender, hauthenticated, hnonzero, hrecipient, hregistered, hkey, hcovered⟩
      exact ⟨_, hopened.step h⟩
    | _ => simp [Block.puts] at hmem

theorem subchannelsOpened_step (h : m.Step sn D B B') (hB : SubchannelsOpened B.ledger) :
    SubchannelsOpened B'.ledger := by
  intro c hused
  rcases h.used_cases hused with hold | ⟨b, value, rfl, hmem, hvalue⟩
  · obtain ⟨htoken, sender, hchannel⟩ := hB c hold
    exact ⟨htoken, sender, h.later.head_ne_zero hchannel⟩
  · have happlies : b.Applies sn D B B' := h
    cases happlies.enabled with
    | openSubchannel htoken hchannel hprevious =>
      simp only [Block.puts, List.mem_cons, Prod.mk.injEq, Slot.subchannelExists.injEq,
        reduceCtorEq, false_and, false_or, List.not_mem_nil, or_false] at hmem
      obtain ⟨rfl, -⟩ := hmem
      exact ⟨htoken, _, h.later.head_ne_zero hchannel⟩
    | _ => simp [Block.puts] at hmem

/-- The token of a used index is kept. -/
theorem tokenAt_eq (h : m.Step sn D B B') {channelKey : Felt} {index : Usize}
    (hold : B.ledger (.subchannelToken channelKey index) 0 ≠ 0) :
    tokenAt sn B'.ledger channelKey index = tokenAt sn B.ledger channelKey index := by
  rw [tokenAt, h.record_eq hold (by simp), tokenAt]

/-- A new subchannel index holds the token of the subchannel it opens. -/
theorem tokenAt_new {b : Block} (h : b.Applies sn D B B') {channelKey : Felt} {index : Usize}
    {value : List Felt} (hmem : (.subchannelToken channelKey index, value) ∈ b.puts) :
    ∃ c : Subchannel, c.key = channelKey ∧ (.subchannelExists c, [1]) ∈ b.puts ∧
      (∃ sender, B.ledger (.channelExists ⟨c.key, sender, c.recipientAddr,
        c.recipientPublicKey⟩) 0 ≠ 0) ∧
      (index = 0 ∨ B.ledger (.subchannelToken channelKey (index - 1)) 0 ≠ 0) ∧
      tokenAt sn B'.ledger channelKey index = ContractAddress.toFelt c.token := by
  cases hblock : h.enabled with
  | openSubchannel htoken hchannel hprevious =>
    rename_i sender c i salt
    have hwritten := Block.write_of_mem (L := B.ledger) hmem
    simp only [Block.puts, List.mem_cons, Prod.mk.injEq, Slot.subchannelToken.injEq,
      reduceCtorEq, false_and, List.not_mem_nil, or_false] at hmem
    obtain ⟨⟨rfl, rfl⟩, rfl⟩ := hmem
    refine ⟨c, rfl, by simp [Block.puts], ⟨sender, hchannel⟩, hprevious, ?_⟩
    rw [tokenAt, h.ledger, hwritten]
    simp [record, Starknet.encryptSubchannelInfo]
  | _ => simp [Block.puts] at hmem

theorem tokensOpened_step (h : m.Step sn D B B') (hB : TokensOpened sn B.ledger) :
    TokensOpened sn B'.ledger := by
  intro channelKey index hused
  rcases h.used_cases hused with hold | ⟨b, value, rfl, hmem, hvalue⟩
  · obtain ⟨c, hkey, hexists, htoken⟩ := hB channelKey index hold
    exact ⟨c, hkey, h.later.head_ne_zero hexists, (tokenAt_eq h hold).trans htoken⟩
  · have happlies : b.Applies sn D B B' := h
    obtain ⟨c, hkey, hput, -, -, htoken⟩ := tokenAt_new happlies hmem
    refine ⟨c, hkey, ?_, htoken⟩
    rw [happlies.ledger, Block.write_of_mem hput]
    decide

/-- A new index does not repeat the token of an older one. -/
theorem tokenAt_new_ne (hD : NoCollision sn D) (hB : WellFormed sn D B) {b : Block}
    (h : b.Applies sn D B B') {channelKey : Felt} {index index' : Usize} {value : List Felt}
    (hmem : (.subchannelToken channelKey index, value) ∈ b.puts)
    (hold : B.ledger (.subchannelToken channelKey index') 0 ≠ 0) :
    tokenAt sn B'.ledger channelKey index ≠ tokenAt sn B.ledger channelKey index' := by
  intro heq
  obtain ⟨c, hkey, hput, ⟨sender, hchannel⟩, -, htoken⟩ := tokenAt_new h hmem
  obtain ⟨c', hkey', hexists, htoken'⟩ := hB.tokens channelKey index' hold
  -- Both subchannels lie in the same channel, so they have the same owner.
  obtain ⟨-, sender', hchannel'⟩ := hB.subchannels c' hexists
  have hsame := hB.channel_eq hD hchannel hchannel' (hkey.trans hkey'.symm)
  have hsametoken : c.token = c'.token :=
    ContractAddress.toFelt_inj.mp ((htoken.symm.trans heq).trans htoken')
  have hc : c = c' := by
    cases c
    cases c'
    simp_all
  subst hc
  exact hexists (congrFun (h.fresh _ hput).1 0)

theorem tokensDistinct_step (hD : NoCollision sn D) (hB : WellFormed sn D B)
    (h : m.Step sn D B B') : TokensDistinct sn B'.ledger := by
  intro channelKey index index' hused hused' heq
  rcases h.used_cases hused with hold | ⟨b, value, rfl, hmem, -⟩
  · rcases h.used_cases hused' with hold' | ⟨b, value, rfl, hmem, -⟩
    · rw [tokenAt_eq h hold, tokenAt_eq h hold'] at heq
      exact hB.tokensDistinct channelKey index index' hold hold' heq
    · rw [tokenAt_eq h hold] at heq
      exact absurd heq.symm (tokenAt_new_ne hD hB h hmem hold)
  · rcases h.used_cases hused' with hold' | ⟨b', value', hb', hmem', -⟩
    · rw [tokenAt_eq h hold'] at heq
      exact absurd heq (tokenAt_new_ne hD hB h hmem hold')
    · -- A block opens one index.
      obtain rfl := Move.block.inj hb'
      cases b <;> simp [Block.puts] at hmem hmem'
      exact hmem.1.2.trans hmem'.1.2.symm

/-- The note a block creates, with the checks it went through and what it writes. -/
theorem creation_of_mem {b : Block} (h : b.Applies sn D B B') {n : NoteKey} {value : List Felt}
    (hmem : (.note n, value) ∈ b.puts) :
    ∃ c : NoteCreation, c.note = n ∧ c.Enabled sn D B.ledger ∧ NoteReadable sn n (record value) := by
  cases hblock : h.enabled with
  | createEncNote hcreation hsmall hlarge hpacked =>
    simp only [Block.puts, List.mem_singleton, Prod.mk.injEq, Slot.note.injEq] at hmem
    obtain ⟨rfl, rfl⟩ := hmem
    exact ⟨_, rfl, hcreation, Or.inl ⟨_, _, hsmall, hlarge, hpacked⟩⟩
  | createOpenNote hcreation =>
    simp only [Block.puts, List.mem_singleton, Prod.mk.injEq, Slot.note.injEq] at hmem
    obtain ⟨rfl, rfl⟩ := hmem
    exact ⟨_, rfl, hcreation, Or.inr ⟨⟨0, pack_open_zero⟩, rfl⟩⟩
  | _ => simp [Block.puts] at hmem

theorem notesOpened_step (h : m.Step sn D B B') (hB : NotesOpened B.ledger) :
    NotesOpened B'.ledger := by
  intro n hused
  rcases h.used_cases hused with hold | ⟨b, value, rfl, hmem, -⟩
  · obtain ⟨recipientAddr, recipientPublicKey, hexists⟩ := hB n hold
    exact ⟨recipientAddr, recipientPublicKey, h.later.head_ne_zero hexists⟩
  · obtain ⟨c, rfl, hcreation, -⟩ := creation_of_mem h hmem
    exact ⟨_, _, h.later.head_ne_zero hcreation.subchannel⟩

/-- An encrypted note does not look like an open one. -/
theorem encNotePackedValue_ne_open {n : NoteKey} {salt amount amount' : U128} {packedValue : Felt}
    (hsmall : openNoteSalt < salt)
    (h : sn.encNotePackedValue n.channelKey n.token n.index salt amount = .ok packedValue) :
    pack openNoteSalt amount' ≠ .ok packedValue := by
  intro hopen
  exact absurd (pack_injective hopen h).1 hsmall.ne

theorem notesReadable_step (h : m.Step sn D B B') (hB : NotesReadable sn B.ledger) :
    NotesReadable sn B'.ledger := by
  intro n hused
  rcases h.used_cases hused with hold | ⟨b, value, rfl, hmem, hvalue⟩
  · rcases h.later (.note n) (fun hzero => hold (congrFun hzero 0)) with hsame | hreceives
    · rw [hsame]
      exact hB n hold
    · -- Only an open note receives an amount, and its token word is kept.
      obtain ⟨amount, -, hpack⟩ := hreceives.amount
      rcases hB n hold with ⟨salt, amount', hsmall, -, hpacked⟩ | ⟨-, htoken⟩
      · rw [hreceives.awaits] at hpacked
        exact absurd pack_open_zero (encNotePackedValue_ne_open hsmall hpacked)
      · refine Or.inr ⟨⟨amount, hpack⟩, ?_⟩
        rw [hreceives.rest 1 one_ne_zero]
        exact htoken
  · rw [hvalue]
    obtain ⟨c, rfl, -, hreadable⟩ := creation_of_mem h hmem
    exact hreadable

theorem numbered_step (h : m.Step sn D B B') (hB : Numbered B.ledger) : Numbered B'.ledger where
  outgoing sender key index hused := by
    rcases h.used_cases hused with hold | ⟨b, value, rfl, hmem, -⟩
    · exact (hB.outgoing sender key index hold).imp_right h.later.head_ne_zero
    · have happlies : b.Applies sn D B B' := h
      cases happlies.enabled with
      | openChannel hsender hauthenticated hnonzero hrecipient hregistered hprevious hkey hcovered
          hinfo =>
        simp only [Block.puts, List.mem_cons, Prod.mk.injEq, reduceCtorEq, false_and,
          Slot.outgoingChannel.injEq, List.not_mem_nil, or_false, false_or] at hmem
        obtain ⟨⟨rfl, rfl, rfl⟩, -⟩ := hmem
        exact hprevious.imp_right h.later.head_ne_zero
      | _ => simp [Block.puts] at hmem
  subchannels channelKey index hused := by
    rcases h.used_cases hused with hold | ⟨b, value, rfl, hmem, -⟩
    · exact (hB.subchannels channelKey index hold).imp_right h.later.head_ne_zero
    · obtain ⟨c, -, -, -, hprevious, -⟩ := tokenAt_new h hmem
      exact hprevious.imp_right h.later.head_ne_zero
  notes channelKey token index hused := by
    rcases h.used_cases hused with hold | ⟨b, value, rfl, hmem, -⟩
    · exact (hB.notes channelKey token index hold).imp_right h.later.head_ne_zero
    · obtain ⟨c, hnote, hcreation, -⟩ := creation_of_mem h hmem
      have hprevious := hcreation.previous
      rw [hnote] at hprevious
      exact hprevious.imp_right h.later.head_ne_zero

theorem UsedBy.step (h : m.Step sn D B B') {n : NoteKey} {k : Felt}
    (hused : UsedBy sn B.ledger n k) : UsedBy sn B'.ledger n k := by
  obtain ⟨owner, publicKey, hderived, hsub⟩ := hused.owner
  have hnote := h.later.record_eq hused.note hused.filled
  exact ⟨hused.canonical, ⟨owner, publicKey, hderived, h.later.head_ne_zero hsub⟩,
    by rw [hnote]; exact hused.note, by rw [hnote]; exact hused.filled⟩

theorem nullifiersUsed_step (h : m.Step sn D B B') (hB : NullifiersUsed sn B.ledger) :
    NullifiersUsed sn B'.ledger := by
  intro n k hused
  rcases h.used_cases hused with hold | ⟨b, value, rfl, hmem, -⟩
  · exact (hB n k hold).step h
  · have happlies : b.Applies sn D B B' := h
    cases happlies.enabled with
    | useNote hcanonical hderived hsubchannel hnote hdecoded hamount =>
      simp only [Block.puts, List.mem_singleton, Prod.mk.injEq, Slot.nullifier.injEq] at hmem
      obtain ⟨⟨rfl, rfl⟩, -⟩ := hmem
      have hby : UsedBy sn B.ledger n k := ⟨hcanonical, ⟨_, _, hderived, hsubchannel⟩, hnote,
        head_ne_openNotePackedValue hdecoded hamount⟩
      exact hby.step h
    | _ => simp [Block.puts] at hmem

/-- The channels that are open after a block. -/
theorem channelExists_write_iff {b : Block} (h : b.Applies sn D B B') (c : Channel) :
    B'.ledger (.channelExists c) 0 ≠ 0 ↔ B.ledger (.channelExists c) 0 ≠ 0 ∨
      (.channelExists c, [1]) ∈ b.puts := by
  rw [h.ledger]
  constructor
  · intro hused
    rcases b.mem_puts_or_eq B.ledger (.channelExists c) with ⟨value, hmem, -⟩ | hsame
    · right
      cases b <;> simp [Block.puts] at hmem ⊢
      exact hmem.1
    · exact Or.inl (by rwa [hsame] at hused)
  · rintro (hold | hmem)
    · rw [Block.write_of_head_ne_zero h.fresh hold]
      exact hold
    · rw [Block.write_of_mem hmem]
      decide

theorem channelsListed_step (h : m.Step sn D B B') (hB : ChannelsListed sn B) :
    ChannelsListed sn B' := by
  intro recipient
  obtain ⟨opened, hnodup, hopened, hannounces⟩ := hB recipient
  cases m with
  | fill note amount =>
    have hfills : Fills note amount B B' := h
    refine ⟨opened, hnodup, fun c => ?_, by rw [hfills.channels]; exact hannounces⟩
    rw [hfills.others _ (by simp)]
    exact hopened c
  | block b =>
    have happlies : b.Applies sn D B B' := h
    have hexists := channelExists_write_iff happlies
    cases henabled : happlies.enabled with
    -- The list of the recipient gets the channel at its end, and the other lists stay.
    | openChannel hsender hauthenticated hnonzero hrecipient hregistered hprevious hkey hcovered
        hinfo =>
      rename_i channel k index outgoing info
      simp only [Block.puts, List.mem_cons, Prod.mk.injEq, Slot.channelExists.injEq, reduceCtorEq,
        false_and, List.not_mem_nil, or_false, serialize_true, and_true] at hexists
      have hfresh : B.ledger (.channelExists channel) 0 = 0 :=
        congrFun (happlies.fresh (.channelExists channel, [1]) (by simp [Block.puts])).1 0
      by_cases hto : channel.recipientAddr = recipient
      · subst hto
        have hnew : channel ∉ opened := fun hin => ((hopened channel).mp hin).2 hfresh
        refine ⟨opened ++ [channel], ?_, fun c => ?_, ?_⟩
        · exact List.nodup_append.mpr ⟨hnodup, List.nodup_singleton _, by
            rintro c hc c' hc' rfl
            exact hnew (List.mem_singleton.mp hc' ▸ hc)⟩
        · rw [List.mem_append, List.mem_singleton, hopened, hexists]
          constructor
          · rintro (⟨hrec, hold⟩ | rfl)
            · exact ⟨hrec, Or.inl hold⟩
            · exact ⟨rfl, Or.inr rfl⟩
          · rintro ⟨hrec, hold | hnew⟩
            · exact Or.inl ⟨hrec, hold⟩
            · exact Or.inr hnew
        · rw [happlies.channels, Block.append, Function.update_self]
          exact List.rel_append hannounces (.cons hinfo .nil)
      · refine ⟨opened, hnodup, fun c => ?_, ?_⟩
        · rw [hopened, hexists]
          constructor
          · rintro ⟨hrec, hold⟩
            exact ⟨hrec, Or.inl hold⟩
          · rintro ⟨hrec, hold | rfl⟩
            · exact ⟨hrec, hold⟩
            · exact absurd hrec hto
        · rw [happlies.channels, Block.append, Function.update_of_ne (Ne.symm hto)]
          exact hannounces
    -- No other block writes a marker or appends to the channels.
    | _ =>
      simp only [Block.puts, List.mem_cons, Prod.mk.injEq, reduceCtorEq, false_and,
        List.not_mem_nil, or_false] at hexists
      refine ⟨opened, hnodup, fun c => ?_, by rw [happlies.channels]; exact hannounces⟩
      rw [hopened, hexists]

/-- Every move keeps the book well-formed. -/
theorem Move.Step.wellFormed (hD : NoCollision sn D) (hB : WellFormed sn D B)
    (h : m.Step sn D B B') : WellFormed sn D B' where
  headed := headed_step h hB.headed
  covered := recordsCovered_step h hB.covered (headed_step h hB.headed)
  keys := keysRegistered_step h hB.keys
  channels := channelsOpened_step h hB.channels
  subchannels := subchannelsOpened_step h hB.subchannels
  tokens := tokensOpened_step h hB.tokens
  tokensDistinct := tokensDistinct_step hD hB h
  notes := notesOpened_step h hB.notes
  readable := notesReadable_step h hB.readable
  numbered := numbered_step h hB.numbered
  nullifiers := nullifiersUsed_step h hB.nullifiers
  listed := channelsListed_step h hB.listed

/-- The book of a fresh pool. -/
def Book.blank : Book := ⟨fun _ => 0, fun _ => []⟩

theorem Book.blank_wellFormed (sn : Starknet) (D : Domain) : WellFormed sn D Book.blank where
  headed _ _ := rfl
  covered _ hs := absurd rfl hs
  keys _ hs := absurd rfl hs
  channels _ hs := absurd rfl hs
  subchannels _ hs := absurd rfl hs
  tokens _ _ hs := absurd rfl hs
  tokensDistinct _ _ _ hs _ _ := absurd rfl hs
  notes _ hs := absurd rfl hs
  readable _ hs := absurd rfl hs
  numbered := ⟨fun _ _ _ hs => absurd rfl hs, fun _ _ hs => absurd rfl hs,
    fun _ _ _ hs => absurd rfl hs⟩
  nullifiers _ _ hs := absurd rfl hs
  listed _ := ⟨[], List.nodup_nil, fun _ => ⟨fun h => absurd h List.not_mem_nil,
    fun h => absurd rfl h.2⟩, .nil⟩

end PrivacyPool
