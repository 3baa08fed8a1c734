import LowLatencyExchange.Common.Types
import LowLatencyExchange.Library.Run

/-!
# Connections of the TCP server

`TCPServer::poll` over any kernel that does what the manuals of `epoll` and `accept` say. Connections arrive at any
time, in the middle of the accept loop as well, and a new connection is reported by one `epoll_wait` only. As long as no
call of the accept loop fails, none is missed or made twice, and every round of `sendAndRecv` serves each of them once.
-/

namespace LowLatencyExchange
open LoggedRun

/-- A `TCPSocket*`: the listener, or the object made for the `n`-th connection. -/
inductive TCPSocketRef
  | listener
  | connection (n : Nat)
  deriving DecidableEq, Repr

/-- `epoll_event`. The last bit stands for `EPOLLERR | EPOLLHUP`. -/
structure EpollEvent where
  socket : TCPSocketRef
  epollIn : Bool
  epollOut : Bool
  epollErr : Bool
  deriving DecidableEq, Repr

/-- The events a descriptor is registered for. Errors are always reported. -/
structure EpollMask where
  epollIn : Bool
  epollOut : Bool
  deriving DecidableEq, Repr

/-- `events_[1024]`. -/
def EventsSize : Nat := 1024

/-- The containers of the server, and the descriptors of the sockets it made. -/
structure TCPServer where
  sockets : List Nat
  epollList : List (TCPSocketRef × EpollMask)
  receiveSockets : List TCPSocketRef
  sendSockets : List TCPSocketRef
  deriving DecidableEq, Repr

namespace TCPServer

/-- `EPOLLET | EPOLLIN`. -/
def pollMask : EpollMask := ⟨true, false⟩

def addToEpollList (s : TCPServer) (socket : TCPSocketRef) : TCPServer :=
  { s with epollList := s.epollList ++ [(socket, pollMask)] }

def listen : TCPServer := addToEpollList ⟨[], [], [], []⟩ .listener

/-- `push_back`, unless `std::find` finds it. -/
def pushNew (sockets : List TCPSocketRef) (socket : TCPSocketRef) : List TCPSocketRef :=
  if socket ∈ sockets then sockets else sockets ++ [socket]

def maxEvents (s : TCPServer) : Nat := 1 + s.sendSockets.length + s.receiveSockets.length

/-- The loop over the events, with `have_new_connection`. -/
def handleEvent (s : TCPServer × Bool) (event : EpollEvent) : TCPServer × Bool :=
  if event.epollIn ∧ event.socket = .listener then (s.1, true)
  else
    let s₁ := if event.epollIn then { s.1 with receiveSockets := pushNew s.1.receiveSockets event.socket } else s.1
    let s₂ := if event.epollOut then { s₁ with sendSockets := pushNew s₁.sendSockets event.socket } else s₁
    let s₃ := if event.epollErr then { s₂ with receiveSockets := pushNew s₂.receiveSockets event.socket } else s₂
    (s₃, s.2)

/-- A descriptor that `accept` gave. -/
def acceptConnection (s : TCPServer) (fd : Nat) : TCPServer :=
  let socket := .connection s.sockets.length
  let s₁ := { s with sockets := s.sockets ++ [fd] }.addToEpollList socket
  { s₁ with receiveSockets := pushNew s₁.receiveSockets socket }

/-- The loop over what `epoll_wait` wrote. Nothing bounds this by the size of `events_`. -/
def handleEvents (s : TCPServer) (events : List EpollEvent) : Except Fault (TCPServer × Bool) :=
  if EventsSize < events.length then .error .outOfRange else pure (events.foldl handleEvent (s, false))

/-- The sockets on which a round of `sendAndRecv` calls `sendAndRecv`, in order. -/
def served (s : TCPServer) : List TCPSocketRef := s.receiveSockets ++ s.sendSockets

end TCPServer

/-- `errno` after an `accept` that gave -1. -/
inductive AcceptError
  | again
  | other (errno : Nat)
  deriving DecidableEq, Repr

/-- The kernel, as the server calls it. The registrations of `epoll_ctl` are passed to `epollWait`. What goes on outside
is that a client connects, or any other `Change`. -/
structure Kernel where
  State : Type
  Change : Type
  connect : State → Nat → State
  change : State → Change → State
  epollWait : State → List (TCPSocketRef × EpollMask) → Nat → State × List EpollEvent
  accept : State → State × Except AcceptError Nat
  configure : State → Nat → Bool
  epollAdd : State → TCPSocketRef → Bool
  strerror : State → String

/-- What the manuals say of the calls. `pending` are the connections that wait to be accepted, and `edge` says that one
has arrived which `epoll_wait` has still to report. -/
structure Kernel.Documented (k : Kernel) (start : k.State) (pending : k.State → List Nat) (edge : k.State → Prop) :
    Prop where
  start : pending start = []
  connect : ∀ s fd, pending (k.connect s fd) = pending s ++ [fd] ∧ edge (k.connect s fd)
  change : ∀ s c, pending (k.change s c) = pending s ∧ (edge s → edge (k.change s c))
  waitPending : ∀ s interest n, pending (k.epollWait s interest n).1 = pending s
  waitLength : ∀ s interest n, (k.epollWait s interest n).2.length ≤ n
  /-- Only what is registered is reported, and on the listener nothing but connections. -/
  waitRegistered : ∀ s interest n, ∀ e ∈ (k.epollWait s interest n).2,
    (∃ mask, (e.socket, mask) ∈ interest ∧ (e.epollOut = true → mask.epollOut = true)) ∧
      (e.socket = .listener → e.epollIn = true)
  /-- Where there is a place for every descriptor, all that are ready are reported. -/
  waitEdge : ∀ s interest n mask, edge s → (TCPSocketRef.listener, mask) ∈ interest → mask.epollIn = true →
    interest.length ≤ n → ∃ e ∈ (k.epollWait s interest n).2, e.socket = .listener
  /-- A descriptor is that of the first connection that waits. -/
  accept : ∀ s fd, (k.accept s).2 = .ok fd → pending s = fd :: pending (k.accept s).1
  /-- `EAGAIN` says that no connection waits. -/
  acceptAgain : ∀ s, (k.accept s).2 = .error .again → pending s = [] ∧ pending (k.accept s).1 = []

/-- The server and the kernel. `accepting` says that `poll` is in its last loop. -/
structure Polling (k : Kernel) where
  server : TCPServer
  accepting : Bool
  kernel : k.State

/-- A client connects, or something else changes, or the server goes through the events of a poll, or takes one round of
the loop over `accept`. -/
inductive PollAction (k : Kernel)
  | connect (fd : Nat)
  | change (c : k.Change)
  | poll
  | accept

/-- The clients that connect in an action. -/
def PollAction.arrivals {k : Kernel} : PollAction k → List Nat
  | .connect fd => [fd]
  | .change _ | .poll | .accept => []

namespace Polling
variable {k : Kernel}

def listening (start : k.State) : Polling k := ⟨.listen, false, start⟩

/-- An action, and the connections accepted in it. -/
def step (s : Polling k) : PollAction k → Except Fault (Polling k × List Nat)
  | .connect fd => pure ({ s with kernel := k.connect s.kernel fd }, [])
  | .change c => pure ({ s with kernel := k.change s.kernel c }, [])
  | .poll =>
    if s.accepting then pure (s, [])
    else do
      let (kernel, events) := k.epollWait s.kernel s.server.epollList s.server.maxEvents
      let (server, haveNewConnection) ← s.server.handleEvents events
      pure (⟨server, haveNewConnection, kernel⟩, [])
  | .accept =>
    if s.accepting then
      match k.accept s.kernel with
      | (kernel, .error _) => pure ({ s with accepting := false, kernel := kernel }, [])
      | (kernel, .ok fd) => do
        assertThat (k.configure kernel fd) ("Failed to set non-blocking or no-delay on socket:" ++ toString fd)
        assertThat (k.epollAdd kernel (.connection s.server.sockets.length))
          ("Unable to add socket. error:" ++ k.strerror kernel)
        pure ({ s with server := s.server.acceptConnection fd, kernel := kernel }, [fd])
    else pure (s, [])

/-- No call of the accept loop fails, but an `accept` when no connection waits. The loop takes every -1 for its end, and
what waits after another error has been reported already. -/
def Unfailing (s : Polling k) : PollAction k → Prop
  | .accept => s.accepting = true →
    match k.accept s.kernel with
    | (_, .error e) => e = .again
    | (kernel, .ok fd) => k.configure kernel fd = true ∧
      k.epollAdd kernel (.connection s.server.sockets.length) = true
  | .connect _ | .change _ | .poll => True

end Polling

/-- An event of a known descriptor, as `EPOLLIN` gives it. On the listener it is a connection. -/
structure EpollEvent.Due (known : List TCPSocketRef) (e : EpollEvent) : Prop where
  socket : e.socket ∈ known
  epollOut : e.epollOut = false
  epollIn : e.socket = .listener → e.epollIn = true

namespace TCPServer
variable {s : TCPServer} {events : List EpollEvent}

/-- Every socket is registered and received from once, in the order of acceptance, and no socket is sent on
separately. -/
structure Listed (s : TCPServer) : Prop where
  epollList : s.epollList =
    (.listener, pollMask) :: (List.range s.sockets.length).map fun n => (.connection n, pollMask)
  receiveSockets : s.receiveSockets = (List.range s.sockets.length).map .connection
  sendSockets : s.sendSockets = []

/-- The registered descriptors. -/
def known (s : TCPServer) : List TCPSocketRef := s.epollList.map Prod.fst

lemma listed_listen : listen.Listed := ⟨rfl, rfl, rfl⟩

lemma Listed.known_eq (h : s.Listed) : s.known = .listener :: s.receiveSockets := by
  rw [known, h.epollList, h.receiveSockets, List.map_cons, List.map_map]
  rfl

/-- `epoll_wait` has a place for every descriptor. -/
lemma Listed.maxEvents_eq (h : s.Listed) : s.maxEvents = s.known.length := by
  rw [maxEvents, h.known_eq, h.sendSockets, List.length_cons, List.length_nil, Nat.add_zero, Nat.add_comm]

lemma Listed.length_receiveSockets (h : s.Listed) : s.receiveSockets.length = s.sockets.length := by
  rw [h.receiveSockets, List.length_map, List.length_range]

lemma Listed.acceptConnection (h : s.Listed) (fd : Nat) : (s.acceptConnection fd).Listed := by
  have hnew : TCPSocketRef.connection s.sockets.length ∉ s.receiveSockets := by
    rw [h.receiveSockets]
    intro hmem
    obtain ⟨n, hn, he⟩ := List.mem_map.mp hmem
    exact absurd (TCPSocketRef.connection.inj he) (Nat.ne_of_lt (List.mem_range.mp hn))
  have hlength : (s.acceptConnection fd).sockets.length = s.sockets.length + 1 := List.length_append
  refine ⟨?_, ?_, h.sendSockets⟩
  · rw [hlength, List.range_succ, List.map_append, List.map_singleton, ← List.cons_append, ← h.epollList]
    rfl
  · rw [hlength, List.range_succ, List.map_append, List.map_singleton, ← h.receiveSockets]
    exact if_neg hnew

/-- An event changes no container. It can only say that there are connections to accept. -/
lemma Listed.handleEvent (h : s.Listed) {event : EpollEvent} (hdue : event.Due s.known) (haveNewConnection : Bool) :
    TCPServer.handleEvent (s, haveNewConnection) event =
      (s, haveNewConnection || decide (event.socket = .listener)) := by
  unfold TCPServer.handleEvent
  by_cases hlistener : event.socket = .listener
  · rw [if_pos ⟨hdue.epollIn hlistener, hlistener⟩, decide_eq_true hlistener, Bool.or_true]
  · have hmem : event.socket ∈ s.receiveSockets := by
      have hknown := hdue.socket
      rw [h.known_eq, List.mem_cons] at hknown
      exact hknown.resolve_left hlistener
    have hpush : { s with receiveSockets := pushNew s.receiveSockets event.socket } = s := by
      rw [pushNew, if_pos hmem]
    rw [if_neg fun hin => hlistener hin.2, decide_eq_false hlistener, Bool.or_false]
    simp only [hdue.epollOut, Bool.false_eq_true, if_false, hpush, ite_self]

lemma Listed.foldl_handleEvent (h : s.Listed) (hdue : ∀ e ∈ events, e.Due s.known) (haveNewConnection : Bool) :
    events.foldl TCPServer.handleEvent (s, haveNewConnection) =
      (s, haveNewConnection || decide (TCPSocketRef.listener ∈ events.map EpollEvent.socket)) := by
  induction events generalizing haveNewConnection with
  | nil => simp
  | cons event events ih =>
    rw [List.foldl_cons, h.handleEvent (hdue event List.mem_cons_self),
      ih fun e he => hdue e (List.mem_cons_of_mem event he)]
    simp only [Bool.or_assoc, List.map_cons, List.mem_cons, Bool.decide_or, eq_comm]

/-- Where they fit into `events_`, the events only say whether there are connections to accept. -/
lemma Listed.handleEvents (h : s.Listed) (hdue : ∀ e ∈ events, e.Due s.known) (hroom : events.length ≤ EventsSize) :
    s.handleEvents events = .ok (s, decide (TCPSocketRef.listener ∈ events.map EpollEvent.socket)) := by
  unfold TCPServer.handleEvents
  rw [if_neg (Nat.not_lt.mpr hroom), h.foldl_handleEvent hdue, Bool.false_or, pure_eq_ok]

end TCPServer

namespace Polling
variable {k : Kernel} {start : k.State} {pending : k.State → List Nat} {edge : k.State → Prop} {s s' : Polling k}
  {connected accepted : List Nat}

/-- The server has the accepted connections, and the kernel the others, in the order in which the clients connected.
A connection that waits is going to be reported, unless the server is accepting anyway. -/
structure Keeps (pending : k.State → List Nat) (edge : k.State → Prop) (connected accepted : List Nat) (s : Polling k) :
    Prop where
  listed : s.server.Listed
  sockets : s.server.sockets = accepted
  connected : accepted ++ pending s.kernel = connected
  waits : s.accepting = false → pending s.kernel ≠ [] → edge s.kernel

/-- What a poll finds. -/
def found (s : Polling k) : List EpollEvent := (k.epollWait s.kernel s.server.epollList s.server.maxEvents).2

lemma Keeps.due (h : Keeps pending edge connected accepted s) (hk : k.Documented start pending edge) :
    ∀ e ∈ s.found, e.Due s.server.known := by
  intro e he
  obtain ⟨⟨mask, hmem, hout⟩, hlistener⟩ := hk.waitRegistered _ _ _ e he
  refine ⟨List.mem_map.mpr ⟨(e.socket, mask), hmem, rfl⟩, ?_, hlistener⟩
  have hmask : mask = TCPServer.pollMask := by
    rw [h.listed.epollList] at hmem
    rcases List.mem_cons.mp hmem with hmem | hmem
    · exact (Prod.mk.inj hmem).2
    · obtain ⟨n, -, hn⟩ := List.mem_map.mp hmem
      exact (Prod.mk.inj hn).2.symm
  by_contra hne
  have hbit := hout ((Bool.not_eq_false _).mp hne)
  rw [hmask] at hbit
  cases hbit

/-- A connection that waits is found. -/
lemma Keeps.finds (h : Keeps pending edge connected accepted s) (hk : k.Documented start pending edge)
    (hidle : s.accepting = false) (hne : pending s.kernel ≠ []) :
    TCPSocketRef.listener ∈ s.found.map EpollEvent.socket := by
  have hmem : (TCPSocketRef.listener, TCPServer.pollMask) ∈ s.server.epollList := by
    rw [h.listed.epollList]
    exact List.mem_cons_self
  have hlength : s.server.epollList.length ≤ s.server.maxEvents := by
    apply Nat.le_of_eq
    rw [h.listed.maxEvents_eq, TCPServer.known, List.length_map]
  obtain ⟨e, he, hsocket⟩ := hk.waitEdge _ _ _ _ (h.waits hidle hne) hmem rfl hlength
  exact List.mem_map.mpr ⟨e, he, hsocket⟩

lemma Keeps.poll_eq (h : Keeps pending edge connected accepted s) (hk : k.Documented start pending edge)
    (hidle : s.accepting = false) (hroom : s.found.length ≤ EventsSize) :
    s.step .poll = .ok (⟨s.server, decide (TCPSocketRef.listener ∈ s.found.map EpollEvent.socket),
      (k.epollWait s.kernel s.server.epollList s.server.maxEvents).1⟩, []) := by
  have hevents := h.listed.handleEvents (h.due hk) hroom
  unfold found at hevents
  simp only [step, hidle, Bool.false_eq_true, if_false, hevents, ok_bind, pure_eq_ok]
  rfl

lemma poll_overruns (hidle : s.accepting = false) (hroom : EventsSize < s.found.length) :
    s.step .poll = .error .outOfRange := by
  unfold found at hroom
  simp only [step, hidle, Bool.false_eq_true, if_false, TCPServer.handleEvents, if_pos hroom]
  rfl

lemma Keeps.poll (h : Keeps pending edge connected accepted s) (hk : k.Documented start pending edge) {fds : List Nat}
    (hrun : s.step .poll = .ok (s', fds)) : fds = [] ∧ Keeps pending edge connected accepted s' := by
  cases hidle : s.accepting with
  | true =>
    simp only [step, hidle, if_true] at hrun
    cases hrun
    exact ⟨rfl, h⟩
  | false =>
    by_cases hroom : s.found.length ≤ EventsSize
    · rw [h.poll_eq hk hidle hroom] at hrun
      cases hrun
      refine ⟨rfl, h.listed, h.sockets, ?_, fun hnone hne => ?_⟩
      · rw [hk.waitPending]
        exact h.connected
      · rw [hk.waitPending] at hne
        exact absurd (h.finds hk hidle hne) (of_decide_eq_false hnone)
    · rw [poll_overruns hidle (Nat.not_le.mp hroom)] at hrun
      cases hrun

/-- A round of the accept loop takes the first connection that waits, and ends the loop when there is none. -/
lemma Keeps.accept (h : Keeps pending edge connected accepted s) (hk : k.Documented start pending edge)
    (haccepting : s.accepting = true) (hunfailing : s.Unfailing .accept) :
    ∃ s' fds, s.step .accept = .ok (s', fds) ∧ Keeps pending edge connected (accepted ++ fds) s' ∧
      fds = (pending s.kernel).take 1 ∧ (s'.accepting = false ↔ pending s.kernel = []) := by
  have hcalls := hunfailing haccepting
  simp only [step, haccepting, if_true]
  cases haccept : k.accept s.kernel with
  | mk kernel result =>
    rw [haccept] at hcalls
    cases result with
    | error e =>
      -- the loop ends
      obtain ⟨hnone, hstill⟩ := hk.acceptAgain s.kernel (by rw [haccept, hcalls])
      rw [haccept] at hstill
      refine ⟨_, _, rfl, ⟨h.listed, ?_, ?_, fun _ hne => absurd hstill hne⟩, ?_, iff_of_true rfl hnone⟩
      · rw [List.append_nil]
        exact h.sockets
      · rw [List.append_nil, ← h.connected, hnone, hstill]
      · rw [hnone]
        rfl
    | ok fd =>
      have hfirst := hk.accept s.kernel fd (by rw [haccept])
      rw [haccept] at hfirst
      simp only [hcalls.1, hcalls.2, assertThat_true, ok_bind, pure_eq_ok]
      refine ⟨_, _, rfl, ⟨h.listed.acceptConnection fd, ?_, ?_, fun hidle => (by cases hidle)⟩, ?_, ?_⟩
      · rw [← h.sockets]
        rfl
      · rw [← h.connected, hfirst, List.append_assoc]
        rfl
      · rw [hfirst]
        rfl
      · rw [hfirst]
        exact iff_of_false (fun hidle => (by cases hidle)) (List.cons_ne_nil _ _)

end Polling

/-- The runs of a server that has just begun to listen, under every schedule, in which the accept loop does not fail. -/
abbrev PollingRun {k : Kernel} (start : k.State) : List (PollAction k × List Nat) → Polling k → Prop :=
  Reached Polling.step (fun _ s action _ => s.Unfailing action) (.listening start)

/-- The clients that connected in a run. -/
def clients {k : Kernel} (log : List (PollAction k × List Nat)) : List Nat := log.flatMap fun x => x.1.arrivals

section Serves
variable {k : Kernel} {start : k.State} {pending : k.State → List Nat} {edge : k.State → Prop} {s : Polling k}
  {log : List (PollAction k × List Nat)}

lemma PollingRun.keeps (h : PollingRun start log s) (hk : k.Documented start pending edge) :
    Polling.Keeps pending edge (clients log) (sent log) s := by
  apply h.invariant fun log s => Polling.Keeps pending edge (clients log) (sent log) s
  · exact ⟨TCPServer.listed_listen, rfl, hk.start, fun _ hne => absurd hk.start hne⟩
  · intro log s action s' fds hkeeps hunfailing hrun
    have hclients : clients (log ++ [(action, fds)]) = clients log ++ action.arrivals := by
      rw [clients, List.flatMap_append, List.flatMap_singleton]
      rfl
    rw [hclients, sent_append, sent_singleton]
    cases action with
    | connect fd =>
      cases hrun
      obtain ⟨hpending, hedge⟩ := hk.connect s.kernel fd
      refine ⟨hkeeps.listed, ?_, ?_, fun _ _ => hedge⟩
      · rw [List.append_nil]
        exact hkeeps.sockets
      · rw [hpending, List.append_nil, ← List.append_assoc, hkeeps.connected]
        rfl
    | change c =>
      cases hrun
      obtain ⟨hpending, hedge⟩ := hk.change s.kernel c
      rw [PollAction.arrivals, List.append_nil, List.append_nil]
      refine ⟨hkeeps.listed, hkeeps.sockets, ?_, fun hidle hne => hedge (hkeeps.waits hidle ?_)⟩
      · rw [hpending]
        exact hkeeps.connected
      · rwa [hpending] at hne
    | poll =>
      obtain ⟨rfl, hkeeps'⟩ := hkeeps.poll hk hrun
      rwa [PollAction.arrivals, List.append_nil, List.append_nil]
    | accept =>
      rw [PollAction.arrivals, List.append_nil]
      cases haccepting : s.accepting with
      | true =>
        obtain ⟨s₁, fds₁, haccept, hkeeps', -⟩ := hkeeps.accept hk haccepting hunfailing
        obtain ⟨rfl, rfl⟩ := Prod.mk.inj (Except.ok.inj (haccept.symm.trans hrun))
        exact hkeeps'
      | false =>
        simp only [Polling.step, haccepting, Bool.false_eq_true, if_false] at hrun
        cases hrun
        rwa [List.append_nil]

/-- However connections, changes and the steps of polls take turns, the clients that connected are the accepted ones and
those that wait, in the order in which they connected; a round of `sendAndRecv` serves the accepted ones once each, in
this order; and one `epoll_wait` has a place for every descriptor. A poll finds the connections that wait, unless there
are more than 1024 events: then it writes behind `events_`. Its accept loop, where it does not fail, takes them one by
one, and ends when none is left. -/
theorem polling_serves (hk : k.Documented start pending edge) (h : PollingRun start log s) :
    sent log ++ pending s.kernel = clients log ∧ s.server.sockets = sent log ∧
    s.server.served = (List.range (sent log).length).map .connection ∧
    s.server.epollList.length = s.server.maxEvents ∧ s.server.maxEvents = (sent log).length + 1 ∧
    (s.accepting = false →
      (s.found.length ≤ EventsSize →
        ∃ s', s.step .poll = .ok (s', []) ∧ (pending s.kernel ≠ [] → s'.accepting = true)) ∧
      (EventsSize < s.found.length → s.step .poll = .error .outOfRange)) ∧
    (s.accepting = true → s.Unfailing .accept → ∃ s' fds, s.step .accept = .ok (s', fds) ∧
      fds = (pending s.kernel).take 1 ∧ (s'.accepting = false ↔ pending s.kernel = [])) := by
  have hkeeps := h.keeps hk
  refine ⟨hkeeps.connected, hkeeps.sockets, ?_, ?_, ?_, fun hidle => ⟨fun hroom => ?_, Polling.poll_overruns hidle⟩,
    fun haccepting hunfailing => ?_⟩
  · rw [TCPServer.served, hkeeps.listed.sendSockets, List.append_nil, hkeeps.listed.receiveSockets, hkeeps.sockets]
  · rw [hkeeps.listed.maxEvents_eq, TCPServer.known, List.length_map]
  · rw [TCPServer.maxEvents, hkeeps.listed.sendSockets, hkeeps.listed.length_receiveSockets, hkeeps.sockets,
      List.length_nil, Nat.add_zero, Nat.add_comm]
  · exact ⟨_, hkeeps.poll_eq hk hidle hroom, fun hne => decide_eq_true (hkeeps.finds hk hidle hne)⟩
  · obtain ⟨s', fds, haccept, -, hfds, hends⟩ := hkeeps.accept hk haccepting hunfailing
    exact ⟨s', fds, haccept, hfds, hends⟩

end Serves

/-- The connections that wait, whether a new one is unreported, and the sockets with unreported input. -/
structure ReadyList where
  backlog : List Nat
  arrived : Bool
  readable : List Nat
  deriving DecidableEq, Repr

namespace ReadyList

/-- Registered for `EPOLLIN`. -/
def awaited (interest : List (TCPSocketRef × EpollMask)) (socket : TCPSocketRef) : Bool :=
  interest.any fun x => x.1 = socket ∧ x.2.epollIn

def ready (r : ReadyList) : List TCPSocketRef :=
  (if r.arrived then [.listener] else []) ++ r.readable.map .connection

/-- What can be reported, the listener first. -/
def events (r : ReadyList) (interest : List (TCPSocketRef × EpollMask)) : List EpollEvent :=
  (r.ready.filter (awaited interest)).map fun socket => ⟨socket, true, false, false⟩

/-- What an `epoll_wait` that wrote `reported` leaves. -/
def report (r : ReadyList) (reported : List EpollEvent) : ReadyList :=
  { r with
    arrived := r.arrived && decide (TCPSocketRef.listener ∉ reported.map EpollEvent.socket)
    readable := r.readable.filter fun n => .connection n ∉ reported.map EpollEvent.socket }

/-- Connections wait in a queue, sockets become readable, and errors do not occur. -/
def kernel : Kernel where
  State := ReadyList
  Change := Nat
  connect r fd := { r with backlog := r.backlog ++ [fd], arrived := true }
  change r n := { r with readable := r.readable ++ [n] }
  epollWait r interest n := (r.report ((r.events interest).take n), (r.events interest).take n)
  accept r :=
    match r.backlog with
    | [] => (r, .error .again)
    | fd :: backlog => ({ r with backlog := backlog }, .ok fd)
  configure _ _ := true
  epollAdd _ _ := true
  strerror _ := "Success"

def idle : ReadyList := ⟨[], false, []⟩

lemma event_awaited {r : ReadyList} {interest : List (TCPSocketRef × EpollMask)} {e : EpollEvent}
    (he : e ∈ r.events interest) :
    (∃ mask, (e.socket, mask) ∈ interest) ∧ e.epollIn = true ∧ e.epollOut = false := by
  unfold events at he
  obtain ⟨socket, hsocket, rfl⟩ := List.mem_map.mp he
  obtain ⟨⟨socket', mask⟩, hmem, hin⟩ := List.any_eq_true.mp (List.mem_filter.mp hsocket).2
  simp only [decide_eq_true_eq] at hin
  exact ⟨⟨mask, hin.1 ▸ hmem⟩, rfl, rfl⟩

lemma events_arrived {r : ReadyList} {interest : List (TCPSocketRef × EpollMask)} (harrived : r.arrived = true)
    (hawaited : awaited interest .listener = true) :
    ∃ others, r.events interest = ⟨.listener, true, false, false⟩ :: others := by
  unfold events ready
  rw [if_pos harrived, List.singleton_append, List.filter_cons_of_pos hawaited, List.map_cons]
  exact ⟨_, rfl⟩

lemma documented : kernel.Documented idle ReadyList.backlog fun r => r.arrived = true where
  start := rfl
  connect _ _ := ⟨rfl, rfl⟩
  change _ _ := ⟨rfl, id⟩
  waitPending _ _ _ := rfl
  waitLength _ _ _ := List.length_take_le _ _
  waitRegistered r interest n e he := by
    obtain ⟨⟨mask, hmem⟩, hin, hout⟩ := event_awaited (List.mem_of_mem_take he)
    exact ⟨⟨mask, hmem, fun hset => absurd (hout.symm.trans hset) Bool.false_ne_true⟩, fun _ => hin⟩
  waitEdge r interest n mask harrived hmem hin hroom := by
    have hawaited : awaited interest .listener = true := by
      apply List.any_eq_true.mpr
      exact ⟨_, hmem, decide_eq_true ⟨rfl, hin⟩⟩
    obtain ⟨others, hevents⟩ := events_arrived harrived hawaited
    have hplace : n = n - 1 + 1 := (Nat.sub_add_cancel (Nat.le_trans (List.length_pos_of_mem hmem) hroom)).symm
    refine ⟨⟨.listener, true, false, false⟩, ?_, rfl⟩
    change _ ∈ (r.events interest).take n
    rw [hevents, hplace, List.take_succ_cons]
    exact List.mem_cons_self
  accept r fd h := by
    obtain ⟨_ | ⟨first, backlog⟩, arrived, readable⟩ := r
    · cases h
    · cases h
      rfl
  acceptAgain r h := by
    obtain ⟨_ | ⟨first, backlog⟩, arrived, readable⟩ := r
    · exact ⟨rfl, rfl⟩
    · cases h

/-- A poll finds a connection, another one arrives while it is accepted, and a third one before the next poll. -/
def arrivals : List (PollAction kernel × List Nat) :=
  [(.connect 7, []), (.poll, []), (.accept, [7]), (.connect 8, []), (.change (0 : Nat), []), (.accept, [8]),
    (.accept, []), (.poll, []), (.accept, []), (.connect 9, [])]

lemma run_arrivals :
    ∃ s, PollingRun (k := kernel) idle arrivals s ∧ s.accepting = false ∧ s.kernel = ⟨[9], true, []⟩ :=
  ⟨_, .next (.next (.next (.next (.next (.next (.next (.next (.next (.next .start trivial rfl) trivial rfl)
    (fun _ => ⟨rfl, rfl⟩) rfl) trivial rfl) trivial rfl) (fun _ => ⟨rfl, rfl⟩) rfl) (fun _ => rfl) rfl) trivial rfl)
    (fun _ => rfl) rfl) trivial rfl, rfl, rfl⟩

end ReadyList

theorem polling_serves_three : ∃ s : Polling ReadyList.kernel,
    s.kernel.backlog = [9] ∧ s.server.served = [.connection 0, .connection 1] ∧
    ∃ s', s.step .poll = .ok (s', []) ∧ s'.accepting = true := by
  obtain ⟨s, hrun, hidle, hkernel⟩ := ReadyList.run_arrivals
  have hserves := polling_serves ReadyList.documented hrun
  obtain ⟨-, -, hserved, -, hmax, hpoll, -⟩ := hserves
  have hwaiting : s.kernel.backlog = [9] := by rw [hkernel]
  have hroom : s.found.length ≤ EventsSize := by
    have hlength : s.found.length ≤ s.server.maxEvents := ReadyList.documented.waitLength _ _ _
    rw [hmax] at hlength
    exact Nat.le_trans hlength (by decide)
  obtain ⟨s', hpolled, haccepting⟩ := (hpoll hidle).1 hroom
  refine ⟨s, hwaiting, hserved, s', hpolled, haccepting ?_⟩
  rw [hwaiting]
  exact List.cons_ne_nil _ _

end LowLatencyExchange
