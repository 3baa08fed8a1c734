import LowLatencyExchange.MarketData.ConsistentCut
import LowLatencyExchange.Trading.InSync

/-!
# Catching up from a snapshot

A client takes over a snapshot, whenever it was published, and then the updates with higher numbers.
As long as the requests leave the books intact, it has the resting orders of all books.
-/

namespace LowLatencyExchange
open LoggedRun TwinStreams

variable {log : Log} {run : List (FeedAction × List FeedEvent)} {s s' : MarketDataFeed} {es : List FeedEvent}

/-- What a client hands on of a snapshot's messages, in their order. -/
def handedOn (messages : List MDPMarketUpdate) : List MEMarketUpdate :=
  (messages.map MDPMarketUpdate.meMarketUpdate).filter MEMarketUpdate.forwarded

lemma handedOn_snapshotMessages {m : OrderMap} (hm : m.Proper) (n : Nat) :
    handedOn (m.snapshotMessages n) = m.bookUpdates := by
  have hupdates : (m.snapshotMessages n).map MDPMarketUpdate.meMarketUpdate = m.snapshot n := by
    rw [OrderMap.snapshotMessages, List.map_map]
    exact List.zipIdx_map_fst 0 (m.snapshot n)
  rw [handedOn, hupdates, OrderMap.filter_snapshot hm]

/-- A client that takes over a snapshot published after `n` updates, whatever it knew before, and then
the updates from number `n + 1` on, knows the resting orders of all books. -/
theorem snapshot_catches_up (h : OrderlyFeedRun log run s) {past future : List (FeedAction × List FeedEvent)}
    {messages : List MDPMarketUpdate} (hrun : run = past ++ (.publishSnapshot, [.snapshot messages]) :: future)
    {client : OrderMap} (hclient : client.Proper) :
    ∃ n, n ≤ (sentUpdates run).length ∧
      (∀ x, messages.getLast? = some x → x.meMarketUpdate = snapshotEnd (wrap64 n)) ∧
      ∀ t < ME_MAX_TICKERS, Mirrors t (s.matchingEngine.tickerOrderBook t)
        (client.applyAll (handedOn messages ++ (sentUpdates run).drop n)) := by
  obtain ⟨taken, later, hall, -, -, -, hproper, rfl⟩ := h.feedRun.published hrun
  refine ⟨taken.length, ?_, fun x hx => ?_, ?_⟩
  · rw [hall]
    simp
  · rw [OrderMap.snapshotMessages, OrderMap.snapshot, List.zipIdx_append, List.map_append, List.zipIdx_singleton,
      List.map_singleton, List.getLast?_concat] at hx
    obtain rfl := Option.some.inj hx
    rfl
  · have hrebuilt : client.applyAll (handedOn ((OrderMap.empty.applyAll taken).snapshotMessages (wrap64 taken.length)) ++
        (sentUpdates run).drop taken.length) = OrderMap.empty.applyAll (sentUpdates run) := by
      rw [handedOn_snapshotMessages hproper, OrderMap.applyAll_append, OrderMap.applyAll_bookUpdates hproper hclient,
        hall, List.drop_left, OrderMap.applyAll_append]
    rw [hrebuilt]
    exact h.mirrored.books

/-- What a client has left of an earlier time: two orders that rest no longer. -/
def staleOrders : List MEMarketUpdate := [⟨.add, 6, 0, .buy, 98, 3, 1⟩, ⟨.add, 2, 1, .sell, 60, 4, 1⟩]

/-- It takes over the snapshot that tells of the bid only, and then the four updates after it. -/
theorem snapshot_catches_up_traded : ∃ run past future messages s,
    OrderlyFeedRun Logger.log run s ∧ run = past ++ (.publishSnapshot, [.snapshot messages]) :: future ∧
      (addedMessages past).length = 1 ∧ (sentUpdates run).map (fun u => (u.tickerId, u.type)) =
        [(0, .add), (1, .add), (0, .trade), (0, .cancel), (0, .add)] ∧
      ∃ n, n ≤ (sentUpdates run).length ∧
        (∀ x, messages.getLast? = some x → x.meMarketUpdate = snapshotEnd (wrap64 n)) ∧
        ∀ t < ME_MAX_TICKERS, Mirrors t (s.matchingEngine.tickerOrderBook t)
          ((OrderMap.empty.applyAll staleOrders).applyAll (handedOn messages ++ (sentUpdates run).drop n)) := by
  obtain ⟨run, past, future, messages, s, h, hrun, hadded, hsent, -⟩ := feedRun_traded
  have hclient : (OrderMap.empty.applyAll staleOrders).Proper := by
    apply OrderMap.proper_empty.applyAll
    intro u hu _
    revert u
    decide
  exact ⟨run, past, future, messages, s, h.orderly, hrun, hadded, hsent, snapshot_catches_up h.orderly hrun hclient⟩

end LowLatencyExchange
