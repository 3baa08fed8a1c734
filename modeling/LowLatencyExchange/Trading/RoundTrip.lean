import LowLatencyExchange.Trading.InSync

/-!
# From the synthesizer to a recovering consumer

`publishSnapshot` sends a complete, numbered snapshot of the live orders, and a recovering
consumer collects it whatever the order of arrival. The success path of `checkSnapshotSync`
then ends in a call of the logger with one argument too many, so with the real logger no
recovery ever completes.
-/

namespace LowLatencyExchange
open MarketDataConsumer

/-- What a published snapshot of `n` updates looks like. -/
structure Publishes (s : SnapshotSynthesizer) : Prop where
  numbers : s.publishSnapshot.map MDPMarketUpdate.seqNum = List.range s.publishSnapshot.length
  first : (s.publishSnapshot.map MDPMarketUpdate.meMarketUpdate).head? = some (snapshotStart s.lastIncSeqNum)
  last : (s.publishSnapshot.map MDPMarketUpdate.meMarketUpdate).getLast? = some (snapshotEnd s.lastIncSeqNum)
  tickers : ∀ t < ME_MAX_TICKERS, ∃ adds : List MEMarketUpdate,
    (s.publishSnapshot.map MDPMarketUpdate.meMarketUpdate).filter (fun u => u.tickerId = t) =
      { type := .clear, tickerId := t } :: adds ∧
    (adds.map MEMarketUpdate.orderId).Pairwise (· < ·) ∧
    ∀ x, x ∈ adds ↔ s.held t x.orderId = some x

/-- A consumer in recovery that has received the snapshot in some order takes it over at the
next check. -/
def RoundTrip (s : SnapshotSynthesizer) (c : MarketDataConsumer) (messages : List MDPMarketUpdate) : Prop :=
  ∃ c₁ c₂, c.recvCallback Logger.log true messages = .ok (c₁, []) ∧
    c₁.checkSnapshotSync Logger.log = .ok (c₂, s.held.bookUpdates) ∧
    c₂.nextExpIncSeqInc = wrap64 (s.lastIncSeqNum + 1) ∧ c₂.inRecovery = false ∧
    c₂.snapshotQueuedMsgs = .empty ∧ c₂.incrementalQueuedMsgs = .empty

namespace SnapshotSynthesizer
variable {s : SnapshotSynthesizer}

lemma publishSnapshot_updates (s : SnapshotSynthesizer) :
    s.publishSnapshot.map MDPMarketUpdate.meMarketUpdate = s.held.snapshot s.lastIncSeqNum := by
  rw [publishSnapshot_eq, List.map_map]
  exact List.zipIdx_map_fst 0 _

lemma publishSnapshot_numbers (s : SnapshotSynthesizer) :
    s.publishSnapshot.map MDPMarketUpdate.seqNum = List.range s.publishSnapshot.length := by
  rw [publishSnapshot_eq, List.map_map, List.length_map, List.length_zipIdx, List.range_eq_range']
  exact List.zipIdx_map_snd 0 _

lemma mem_publishSnapshot (s : SnapshotSynthesizer) {message : MDPMarketUpdate} :
    message ∈ s.publishSnapshot ↔
      (s.held.snapshot s.lastIncSeqNum)[message.seqNum]? = some message.meMarketUpdate := by
  rw [publishSnapshot_eq, List.mem_map]
  constructor
  · rintro ⟨p, hp, rfl⟩
    exact List.mem_zipIdx_iff_getElem?.mp hp
  · exact fun h => ⟨(message.meMarketUpdate, message.seqNum), List.mem_zipIdx_iff_getElem?.mpr h, rfl⟩

/-- Every state of the synthesizer publishes what its arrays hold. -/
theorem WellFormed.publishes (h : s.WellFormed) : Publishes s where
  numbers := s.publishSnapshot_numbers
  first := by
    rw [publishSnapshot_updates]
    rfl
  last := by
    rw [publishSnapshot_updates, OrderMap.snapshot, List.getLast?_concat]
  tickers := fun t ht => by
    refine ⟨(List.range ME_MAX_ORDER_IDS).filterMap (s.held t), ?_, OrderMap.adds_sorted h.proper t,
      fun x => OrderMap.mem_adds h.proper⟩
    have hinvalid : ¬TickerId_INVALID = t := Nat.ne_of_gt (lt_trans ht (by decide))
    rw [publishSnapshot_updates, OrderMap.snapshot, List.filter_append, List.filter_cons,
      OrderMap.filter_bookUpdates h.proper ht]
    simp [snapshotStart, snapshotEnd, hinvalid, OrderMap.tickerUpdates]

end SnapshotSynthesizer

namespace MarketDataConsumer
variable {c : MarketDataConsumer}

/-- Messages with different numbers are collected, whatever their order. -/
lemma recvCallback_collects {log : Log} (hlog : log.Counts) {messages : List MDPMarketUpdate}
    (hrecovery : c.inRecovery = true) (hnodup : (messages.map MDPMarketUpdate.seqNum).Nodup)
    (hfresh : ∀ message ∈ messages, c.snapshotQueuedMsgs.contains message.seqNum = false) :
    ∃ q : QueuedMarketUpdates,
      c.recvCallback log true messages = .ok ({ c with snapshotQueuedMsgs := q }, []) ∧
      ∀ x, x ∈ q.entries ↔ x ∈ c.snapshotQueuedMsgs.entries ∨
        ∃ message ∈ messages, (message.seqNum, message.meMarketUpdate) = x := by
  induction messages generalizing c with
  | nil =>
    refine ⟨c.snapshotQueuedMsgs, ?_, by simp⟩
    rw [recvCallback_eq (.inr hrecovery), recvMessages_nil]
  | cons message messages ih =>
    rw [List.map_cons, List.nodup_cons] at hnodup
    have hfirst := hfresh message List.mem_cons_self
    have hentries : ∀ x, x ∈ (enqueue c.snapshotQueuedMsgs message).entries ↔
        x = (message.seqNum, message.meMarketUpdate) ∨ x ∈ c.snapshotQueuedMsgs.entries := by
      intro x
      rw [enqueue, hfirst, if_neg Bool.false_ne_true, SortedMap.mem_insert_of_fresh hfirst]
    have hrest := ih (c := { c with snapshotQueuedMsgs := enqueue c.snapshotQueuedMsgs message }) hrecovery
      hnodup.2 fun other hother => by
        apply Bool.eq_false_iff.mpr
        intro hcontains
        obtain ⟨v, hv⟩ := SortedMap.contains_iff.mp hcontains
        rcases (hentries _).mp hv with he | hold
        · exact hnodup.1 (List.mem_map.mpr ⟨other, hother, congrArg Prod.fst he⟩)
        · have hnot := hfresh other (List.mem_cons_of_mem _ hother)
          rw [SortedMap.contains_iff.mpr ⟨v, hold⟩] at hnot
          cases hnot
    obtain ⟨q, hrun, hq⟩ := hrest
    refine ⟨q, ?_, fun x => ?_⟩
    · rw [recvCallback_cons hlog, recvCallback_queues hlog hrecovery, ok_bind]
      simp only [hrun, ok_bind, pure_eq_ok, List.append_nil]
    · have hflip : x = (message.seqNum, message.meMarketUpdate) ↔
          (message.seqNum, message.meMarketUpdate) = x := eq_comm
      rw [hq, hentries, hflip]
      simp only [List.mem_cons, exists_eq_or_imp]
      tauto

/-- All of a published snapshot is queued in the end. -/
lemma recvCallback_snapshot {log : Log} (hlog : log.Counts) (s : SnapshotSynthesizer)
    {messages : List MDPMarketUpdate} (hrecovery : c.inRecovery = true)
    (hempty : c.snapshotQueuedMsgs = .empty) (hperm : messages.Perm s.publishSnapshot) :
    ∃ q : QueuedMarketUpdates,
      c.recvCallback log true messages = .ok ({ c with snapshotQueuedMsgs := q }, []) ∧
      q.entries = queued (s.held.snapshot s.lastIncSeqNum) := by
  have hnodup : (messages.map MDPMarketUpdate.seqNum).Nodup := by
    rw [(hperm.map MDPMarketUpdate.seqNum).nodup_iff, s.publishSnapshot_numbers]
    exact List.nodup_range
  obtain ⟨q, hrun, hq⟩ := recvCallback_collects hlog hrecovery hnodup fun _ _ => by
    rw [hempty]
    rfl
  refine ⟨q, hrun, SortedMap.entries_eq_of_mem (queued_sorted _) fun x => ?_⟩
  rw [hq, hempty, mem_queued]
  simp only [SortedMap.entries_empty, List.not_mem_nil, false_or]
  constructor
  · rintro ⟨message, hmessage, rfl⟩
    exact s.mem_publishSnapshot.mp (hperm.mem_iff.mp hmessage)
  · exact fun hx => ⟨⟨x.1, x.2⟩, hperm.mem_iff.mpr (s.mem_publishSnapshot.mpr hx), rfl⟩

/-- The check after it gets as far as its last call of the logger. -/
lemma checkSnapshotSync_snapshot {log : Log} (hlog : log.Counts) {m : OrderMap} (hm : m.Proper) {n : Nat}
    (hqueue : c.snapshotQueuedMsgs.entries = queued (m.snapshot n))
    (hempty : c.incrementalQueuedMsgs = .empty) :
    c.checkSnapshotSync log = (do
      c.logAt log 186 "checkSnapshotSync" "%:% %() % Recovered snapshot and % incremental orders.\n"
        [.number (c.snapshotQueuedMsgs.entries.length - 2), .number 0]
      pure (c.recovered (snapshotEnd n), m.bookUpdates)) := by
  have hcomplete : IsComplete c.snapshotQueuedMsgs.entries := by
    rw [hqueue]
    exact isComplete_queued rfl rfl
  have hlast : c.snapshotQueuedMsgs.entries.getLast? =
      some ((snapshotStart n :: m.bookUpdates).length, snapshotEnd n) := by
    rw [hqueue, OrderMap.snapshot, queued_append, List.getLast?_concat]
  rw [checkSnapshotSync_complete hlog hcomplete hempty hlast, hqueue, queued_snd, OrderMap.filter_snapshot hm]

end MarketDataConsumer

/-- The last call of the logger passes six arguments to five placeholders. -/
lemma recovered_log_fatal (c : MarketDataConsumer) (orders incrementals : Nat) :
    c.logAt Logger.log 186 "checkSnapshotSync" "%:% %() % Recovered snapshot and % incremental orders.\n"
      [.number orders, .number incrementals] = .error (.fatal "Extra args provided to log()") :=
  Logger.log_extra (Nat.lt_succ_self 5)

section Reached
variable {s : SnapshotSynthesizer} {c : MarketDataConsumer} {messages : List MDPMarketUpdate}

/-- With the real logger, the recovery ends the process. -/
theorem recovery_fatal (hs : s.WellFormed) (hrecovery : c.inRecovery = true)
    (hsnapshot : c.snapshotQueuedMsgs = .empty) (hincremental : c.incrementalQueuedMsgs = .empty)
    (hperm : messages.Perm s.publishSnapshot) :
    ∃ c₁, c.recvCallback Logger.log true messages = .ok (c₁, []) ∧
      c₁.checkSnapshotSync Logger.log = .error (.fatal "Extra args provided to log()") := by
  obtain ⟨q, hrun, hq⟩ := recvCallback_snapshot Logger.counts_log s hrecovery hsnapshot hperm
  refine ⟨_, hrun, ?_⟩
  rw [checkSnapshotSync_snapshot (c := { c with snapshotQueuedMsgs := q }) Logger.counts_log hs.proper
    hq hincremental, recovered_log_fatal]
  rfl

lemma not_roundTrip (h : ∃ c₁, c.recvCallback Logger.log true messages = .ok (c₁, []) ∧
      c₁.checkSnapshotSync Logger.log = .error (.fatal "Extra args provided to log()")) :
    ¬RoundTrip s c messages := by
  rintro ⟨c₁, c₂, hrun, hcheck, -⟩
  obtain ⟨c₁', hrun', hfatal⟩ := h
  rw [hrun] at hrun'
  obtain rfl : c₁ = c₁' := congrArg Prod.fst (Except.ok.inj hrun')
  rw [hfatal] at hcheck
  cases hcheck

/-- Whatever the synthesizer went through, its snapshot is sound, and no consumer that
receives it survives the next check. -/
theorem snapshot_round_trip {us : List MDPMarketUpdate}
    (hreached : SnapshotSynthesizer.create.addAllToSnapshot us = .ok s) (hrecovery : c.inRecovery = true)
    (hsnapshot : c.snapshotQueuedMsgs = .empty) (hincremental : c.incrementalQueuedMsgs = .empty)
    (hperm : messages.Perm s.publishSnapshot) : Publishes s ∧
      s.held = OrderMap.empty.applyAll
        ((us.map MDPMarketUpdate.meMarketUpdate).filter fun u => u.type ≠ .clear) ∧
      (∃ c₁, c.recvCallback Logger.log true messages = .ok (c₁, []) ∧
        c₁.checkSnapshotSync Logger.log = .error (.fatal "Extra args provided to log()")) ∧
      ¬RoundTrip s c messages := by
  obtain ⟨hs, hheld⟩ :=
    SnapshotSynthesizer.addAllToSnapshot_cases SnapshotSynthesizer.wellFormed_create hreached
  have hfatal := recovery_fatal hs hrecovery hsnapshot hincremental hperm
  exact ⟨hs.publishes, hheld, hfatal, not_roundTrip hfatal⟩

end Reached

/-- A snapshot without orders is enough. -/
theorem snapshot_round_trip_fails : ¬RoundTrip SnapshotSynthesizer.create { inRecovery := true }
    SnapshotSynthesizer.create.publishSnapshot :=
  not_roundTrip (recovery_fatal SnapshotSynthesizer.wellFormed_create rfl rfl rfl (.refl _))

/-- The snapshot of one order, last message first. -/
theorem snapshot_round_trip_reversed : ∃ s,
    SnapshotSynthesizer.create.addAllToSnapshot [⟨1, shrinkingFeed.update 1⟩, ⟨2, shrinkingFeed.update 2⟩] =
      .ok s ∧ Publishes s ∧ ¬RoundTrip s { inRecovery := true } s.publishSnapshot.reverse := by
  have hreached : ∃ s, SnapshotSynthesizer.create.addAllToSnapshot
      [⟨1, shrinkingFeed.update 1⟩, ⟨2, shrinkingFeed.update 2⟩] = .ok s := ⟨_, rfl⟩
  obtain ⟨s, hs⟩ := hreached
  have hround := snapshot_round_trip (c := { inRecovery := true }) hs rfl rfl rfl
    (List.reverse_perm s.publishSnapshot)
  exact ⟨s, hs, hround.1, hround.2.2.2⟩

end LowLatencyExchange
