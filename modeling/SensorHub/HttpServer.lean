import SensorHub.EventRuns
import SensorHub.HttpGrammar
import SensorHub.HttpHandler

/-!
# Connections of the HTTP server

The server accepts connections while its acceptor is open.  A connection reads
until its parser has a result, writes one reply and is stopped when the reply
has been written.  Operations are asynchronous: each one that was started
completes at some later moment with an error code, in whatever order, also after
the socket has been closed.

A connection that is stopped leaves the manager and its socket is closed.  The
handler of an operation that was cancelled does nothing.
-/

namespace SensorHub.Http

open EventRuns Recognizers

/-! ## Connections -/

/-- Error code with which an operation completes. -/
inductive ErrorCode where
  | success
  | operationAborted
  | other
  deriving DecidableEq, Repr

inductive Operation where
  | read
  | write
  deriving DecidableEq, Repr

structure Connection where
  /-- The socket is open. -/
  isOpen : Bool
  /-- State of `request_parser_` -/
  state : State
  request : Request
  reply : Reply
  /-- The operation that has been started and has not completed. -/
  pending : Option Operation
  /-- What has been handed to `async_write`. -/
  written : List (List Char8)

namespace Connection

/-- A new connection after `start`; the numbers of the version and the status of
the reply are not initialised. -/
def start (major minor : ℤ) (status : StatusType) : Connection where
  isOpen := true
  state := .methodStart
  request := Request.fresh major minor
  reply := Reply.fresh status
  pending := some .read
  written := []

def doRead (connection : Connection) : Connection :=
  { connection with pending := some .read }

def doWrite (connection : Connection) (reply : Reply) : Connection :=
  { connection with
    reply := reply
    pending := some .write
    written := connection.written ++ [reply.bytes] }

/-- The handler of `async_read_some`; the flag says that the connection asks the
manager to stop it. -/
def handleRead (site : Site) (ec : ErrorCode) (bytes : List Char8) (connection : Connection) :
    Option (Connection × Bool) :=
  match ec with
  | .success =>
      (parse connection.state connection.request bytes).map fun parsed =>
        let connection :=
          { connection with state := parsed.state, request := parsed.request }
        match parsed.result with
        | .good =>
            (connection.doWrite (handleRequest site connection.request connection.reply), false)
        | .bad => (connection.doWrite (Reply.stockReply .badRequest), false)
        | .indeterminate => (connection.doRead, false)
  | .operationAborted => some ({ connection with pending := none }, false)
  | .other => some ({ connection with pending := none }, true)

/-- The handler of `async_write`; it also shuts the socket down when the reply
was written. -/
def handleWrite (ec : ErrorCode) (connection : Connection) : Connection × Bool :=
  ({ connection with pending := none }, ec ≠ .operationAborted)

def stop (connection : Connection) : Connection :=
  { connection with isOpen := false }

end Connection

/-! ## The server -/

structure Server where
  acceptorOpen : Bool
  /-- Operations `async_accept` that have not completed. -/
  accepts : ℕ
  /-- All connections that were accepted, by their number. -/
  connections : List Connection
  /-- `connections_` of the manager -/
  managed : Finset ℕ

inductive Event where
  | accepted (ec : ErrorCode) (major minor : ℤ) (status : StatusType)
  /-- A read completes; the handler sees the devices and processors as they are
  then. -/
  | readDone (i : ℕ) (ec : ErrorCode) (bytes : List Char8) (site : Site)
  | writeDone (i : ℕ) (ec : ErrorCode)
  | stop

namespace Server

/-- The server after its constructor. -/
def started : Server where
  acceptorOpen := true
  accepts := 1
  connections := []
  managed := ∅

/-- `Connection_manager::start` of a new connection. -/
def startConnection (connection : Connection) (server : Server) : Server :=
  { server with
    connections := server.connections ++ [connection]
    managed := insert server.connections.length server.managed }

/-- `Connection_manager::stop` -/
def stopConnection (i : ℕ) (server : Server) : Server :=
  { server with
    connections := server.connections.modify i Connection.stop
    managed := server.managed.erase i }

/-- The connection as its handler has left it, stopped if it asked for that. -/
def leave (i : ℕ) (left : Connection × Bool) (server : Server) : Server :=
  let server := { server with connections := server.connections.set i left.1 }
  if left.2 then server.stopConnection i else server

/-- `Connection_manager::stop_all` -/
def stopAll (server : Server) : Server :=
  { server with
    connections := server.connections.mapIdx fun i connection =>
      if i ∈ server.managed then connection.stop else connection
    managed := ∅ }

def stop (server : Server) : Server :=
  { server with acceptorOpen := false }.stopAll

def doAccept (server : Server) : Server :=
  { server with accepts := server.accepts + 1 }

/-- The handler of `async_accept` -/
def handleAccept (ec : ErrorCode) (connection : Connection) (server : Server) : Server :=
  if !server.acceptorOpen then
    server
  else
    (if ec = .success then server.startConnection connection else server).doAccept

/-- An operation completes, or the server is stopped. -/
def step (server : Server) : Event → Option Server
  | .accepted ec major minor status =>
      if server.accepts = 0 then none
      else
        some ({ server with accepts := server.accepts - 1 }.handleAccept ec
          (Connection.start major minor status))
  | .readDone i ec bytes site =>
      match server.connections[i]? with
      | none => none
      | some connection =>
          if connection.pending = some .read then
            (connection.handleRead site ec bytes).map fun left => server.leave i left
          else none
  | .writeDone i ec =>
      match server.connections[i]? with
      | none => none
      | some connection =>
          if connection.pending = some .write then
            some (server.leave i (connection.handleWrite ec))
          else none
  | .stop => some server.stop

end Server

/-! ## Lifetime of the connections -/

/-- Operations of a socket are cancelled only by closing it. -/
def Documented (server : Server) : Event → Prop
  | .readDone i .operationAborted _ _ =>
      ∀ connection, server.connections[i]? = some connection → connection.isOpen = false
  | .writeDone i .operationAborted =>
      ∀ connection, server.connections[i]? = some connection → connection.isOpen = false
  | _ => True

structure Server.Kept (server : Server) : Prop where
  accepts_of_open : server.acceptorOpen = true → server.accepts = 1
  accepts_le : server.accepts ≤ 1
  managed_iff : ∀ i, i ∈ server.managed ↔
    ∃ connection, server.connections[i]? = some connection ∧ connection.isOpen = true
  managed_of_closed : server.acceptorOpen = false → server.managed = ∅

/-- Every open connection waits for an operation. -/
def Server.Attended (server : Server) : Prop :=
  ∀ (i : ℕ) (connection : Connection), server.connections[i]? = some connection →
    connection.isOpen = true → connection.pending ≠ none

namespace Server

theorem kept_started : started.Kept := by
  constructor <;> simp [started]

theorem Kept.startConnection {server : Server} (hkept : server.Kept)
    (hopen : server.acceptorOpen = true) {connection : Connection}
    (hconnection : connection.isOpen = true) : (server.startConnection connection).Kept where
  accepts_of_open := hkept.accepts_of_open
  accepts_le := hkept.accepts_le
  managed_iff := by
    intro i
    simp only [Server.startConnection, Finset.mem_insert, hkept.managed_iff i]
    rcases Nat.lt_trichotomy i server.connections.length with hi | rfl | hi
    · rw [List.getElem?_append_left hi]
      simp [Nat.ne_of_lt hi]
    · simp [hconnection]
    · have hnone : (server.connections ++ [connection])[i]? = none := by
        simp; omega
      have hnone' : server.connections[i]? = none := by
        simp; omega
      simp [hnone, hnone', Nat.ne_of_gt hi]
  managed_of_closed := by
    intro hclosed
    simp [Server.startConnection, hopen] at hclosed

/-- A handler changes its own connection. -/
theorem getElem?_leave {server : Server} {i : ℕ} {connection : Connection}
    (hi : server.connections[i]? = some connection) (left : Connection × Bool) (k : ℕ) :
    (server.leave i left).connections[k]? =
      if k = i then some (if left.2 then left.1.stop else left.1)
      else server.connections[k]? := by
  have hlength : i < server.connections.length := (List.getElem?_eq_some_iff.mp hi).1
  unfold leave
  by_cases hstop : left.2 = true
  · simp only [hstop, if_true, stopConnection, List.getElem?_modify, List.getElem?_set]
    by_cases hk : k = i
    · simp [hk, hlength]
    · simp [hk, Ne.symm hk]
  · simp only [hstop]
    by_cases hk : k = i
    · simp [hk, hlength]
    · simp [hk, Ne.symm hk]

theorem managed_leave (server : Server) (i : ℕ) (left : Connection × Bool) :
    (server.leave i left).managed =
      if left.2 then server.managed.erase i else server.managed := by
  unfold leave
  split <;> rfl

theorem accepts_leave (server : Server) (i : ℕ) (left : Connection × Bool) :
    (server.leave i left).accepts = server.accepts ∧
      (server.leave i left).acceptorOpen = server.acceptorOpen := by
  unfold leave
  split <;> exact ⟨rfl, rfl⟩

theorem length_leave (server : Server) (i : ℕ) (left : Connection × Bool) :
    (server.leave i left).connections.length = server.connections.length := by
  unfold leave
  split <;> simp [stopConnection]

theorem Kept.leave {server : Server} (hkept : server.Kept) {i : ℕ} {connection : Connection}
    (hi : server.connections[i]? = some connection) {left : Connection × Bool}
    (hleft : left.1.isOpen = connection.isOpen) : (server.leave i left).Kept := by
  obtain ⟨haccepts, hopen⟩ := accepts_leave server i left
  refine ⟨?_, ?_, ?_, ?_⟩
  · rw [haccepts, hopen]
    exact hkept.accepts_of_open
  · rw [haccepts]
    exact hkept.accepts_le
  · intro k
    rw [getElem?_leave hi, managed_leave]
    by_cases hk : k = i
    · have hmanaged := hkept.managed_iff i
      rw [hi] at hmanaged
      cases hstop : left.2
      · simp [hk, hmanaged, hleft]
      · simp [hk, Connection.stop]
    · rw [if_neg hk, ← hkept.managed_iff k]
      cases left.2
      · rfl
      · simp [hk]
  · rw [hopen, managed_leave]
    intro hclosed
    rw [hkept.managed_of_closed hclosed]
    simp

theorem getElem?_stop (server : Server) (k : ℕ) :
    server.stop.connections[k]? = (server.connections[k]?).map fun connection =>
      if k ∈ server.managed then connection.stop else connection := by
  simp [Server.stop, stopAll, List.getElem?_mapIdx]

theorem Kept.stop {server : Server} (hkept : server.Kept) : server.stop.Kept where
  accepts_of_open := by simp [Server.stop, stopAll]
  accepts_le := hkept.accepts_le
  managed_iff := by
    intro k
    have hmanaged := hkept.managed_iff k
    rw [getElem?_stop]
    cases hk : server.connections[k]? with
    | none => simp [Server.stop, stopAll]
    | some connection =>
        rw [hk] at hmanaged
        by_cases hmem : k ∈ server.managed
        · simp [hmem, Server.stop, stopAll, Connection.stop]
        · simp_all [Server.stop, stopAll]
  managed_of_closed := fun _ => rfl

end Server

namespace Connection

theorem handleRead_isOpen {site : Site} {ec : ErrorCode} {bytes : List Char8}
    {connection : Connection} {left : Connection × Bool}
    (hread : connection.handleRead site ec bytes = some left) :
    left.1.isOpen = connection.isOpen := by
  cases ec with
  | success =>
      obtain ⟨parsed, -, rfl⟩ := Option.map_eq_some_iff.mp hread
      cases hresult : parsed.result <;> simp [doWrite, doRead]
  | operationAborted =>
      cases hread
      rfl
  | other =>
      cases hread
      rfl

/-- A handler that has not been cancelled starts the next operation or asks to
be stopped. -/
theorem handleRead_pending {site : Site} {ec : ErrorCode} {bytes : List Char8}
    {connection : Connection} {left : Connection × Bool}
    (hread : connection.handleRead site ec bytes = some left) (hec : ec ≠ .operationAborted) :
    left.1.pending ≠ none ∨ left.2 = true := by
  cases ec with
  | success =>
      obtain ⟨parsed, -, rfl⟩ := Option.map_eq_some_iff.mp hread
      cases hresult : parsed.result <;> simp [doWrite, doRead]
  | operationAborted => exact absurd rfl hec
  | other =>
      cases hread
      exact Or.inr rfl

end Connection

namespace Server

/-- What a step can be, and what it leaves. -/
theorem step_cases {server next : Server} {event : Event} (hstep : server.step event = some next) :
    (∃ ec major minor status, event = .accepted ec major minor status ∧ server.accepts ≠ 0 ∧
      next = { server with accepts := server.accepts - 1 }.handleAccept ec
        (Connection.start major minor status)) ∨
    (∃ i ec bytes site connection left, event = .readDone i ec bytes site ∧
      server.connections[i]? = some connection ∧ connection.pending = some .read ∧
      connection.handleRead site ec bytes = some left ∧ next = server.leave i left) ∨
    (∃ i ec connection, event = .writeDone i ec ∧
      server.connections[i]? = some connection ∧ connection.pending = some .write ∧
      next = server.leave i (connection.handleWrite ec)) ∨
    (event = .stop ∧ next = server.stop) := by
  cases event with
  | accepted ec major minor status =>
      simp only [step] at hstep
      split at hstep
      · cases hstep
      · rename_i haccepts
        exact Or.inl ⟨ec, major, minor, status, rfl, haccepts, (Option.some.inj hstep).symm⟩
  | readDone i ec bytes site =>
      cases hi : server.connections[i]? with
      | none => simp [step, hi] at hstep
      | some connection =>
          simp only [step, hi] at hstep
          split at hstep
          · rename_i hpending
            obtain ⟨left, hleft, hnext⟩ := Option.map_eq_some_iff.mp hstep
            exact Or.inr (Or.inl ⟨i, ec, bytes, site, connection, left, rfl, hi, hpending,
              hleft, hnext.symm⟩)
          · cases hstep
  | writeDone i ec =>
      cases hi : server.connections[i]? with
      | none => simp [step, hi] at hstep
      | some connection =>
          simp only [step, hi] at hstep
          split at hstep
          · rename_i hpending
            exact Or.inr (Or.inr (Or.inl ⟨i, ec, connection, rfl, hi, hpending,
              (Option.some.inj hstep).symm⟩))
          · cases hstep
  | stop => exact Or.inr (Or.inr (Or.inr ⟨rfl, (Option.some.inj hstep).symm⟩))

theorem handleAccept_of_closed {server : Server} (hclosed : server.acceptorOpen = false)
    (ec : ErrorCode) (connection : Connection) : server.handleAccept ec connection = server := by
  simp [Server.handleAccept, hclosed]

theorem handleAccept_of_success {server : Server} (hopen : server.acceptorOpen = true)
    (connection : Connection) :
    server.handleAccept .success connection = (server.startConnection connection).doAccept := by
  simp [Server.handleAccept, hopen]

theorem handleAccept_of_failure {server : Server} (hopen : server.acceptorOpen = true)
    {ec : ErrorCode} (hec : ec ≠ .success) (connection : Connection) :
    server.handleAccept ec connection = server.doAccept := by
  simp [Server.handleAccept, hopen, hec]

/-- Only the number of accepts is different. -/
theorem Kept.with_accepts {server : Server} (hkept : server.Kept) {accepts : ℕ}
    (hopen : server.acceptorOpen = true → accepts = 1) (hle : accepts ≤ 1) :
    { server with accepts := accepts }.Kept :=
  ⟨hopen, hle, hkept.managed_iff, hkept.managed_of_closed⟩

theorem Kept.handleAccept {server : Server} (hkept : server.Kept) (ec : ErrorCode)
    {connection : Connection} (hconnection : connection.isOpen = true) :
    ({ server with accepts := server.accepts - 1 }.handleAccept ec connection).Kept := by
  have hrest : server.accepts - 1 = 0 := by
    have hle := hkept.accepts_le
    omega
  rw [hrest]
  by_cases hopen : server.acceptorOpen = true
  · have hcompleted : { server with accepts := 0 }.acceptorOpen = true := hopen
    by_cases hec : ec = .success
    · rw [hec, handleAccept_of_success hcompleted]
      exact (hkept.startConnection hopen hconnection).with_accepts (fun _ => rfl) le_rfl
    · rw [handleAccept_of_failure hcompleted hec]
      exact hkept.with_accepts (fun _ => rfl) le_rfl
  · have hcompleted : { server with accepts := 0 }.acceptorOpen = false := by simpa using hopen
    rw [handleAccept_of_closed hcompleted]
    exact hkept.with_accepts (fun h => absurd h hopen) (by omega)

theorem Kept.step {server next : Server} {event : Event} (hkept : server.Kept)
    (hstep : server.step event = some next) : next.Kept := by
  rcases step_cases hstep with ⟨ec, major, minor, status, rfl, haccepts, rfl⟩ |
    ⟨i, ec, bytes, site, connection, left, rfl, hi, -, hread, rfl⟩ |
    ⟨i, ec, connection, rfl, hi, -, rfl⟩ | ⟨rfl, rfl⟩
  · exact hkept.handleAccept ec rfl
  · exact hkept.leave hi (Connection.handleRead_isOpen hread)
  · exact hkept.leave hi rfl
  · exact hkept.stop

theorem attended_started : started.Attended := by
  intro i connection hi
  simp [started] at hi

/-- A handler leaves its connection closed or waiting again. -/
theorem Attended.leave {server : Server} (hattended : server.Attended) {i : ℕ}
    {connection : Connection} (hi : server.connections[i]? = some connection)
    {left : Connection × Bool}
    (hleft : left.1.isOpen = true → left.1.pending ≠ none ∨ left.2 = true) :
    (server.leave i left).Attended := by
  intro k connection' hk hopen
  rw [getElem?_leave hi] at hk
  by_cases hki : k = i
  · rw [if_pos hki, Option.some.injEq] at hk
    cases hstop : left.2 with
    | false =>
        rw [hstop, if_neg (by simp)] at hk
        rw [← hk] at hopen ⊢
        simpa [hstop] using hleft hopen
    | true =>
        rw [hstop, if_pos rfl] at hk
        rw [← hk] at hopen
        cases hopen
  · rw [if_neg hki] at hk
    exact hattended k connection' hk hopen

theorem Attended.stop {server : Server} (hattended : server.Attended) :
    server.stop.Attended := by
  intro k connection hk hopen
  rw [getElem?_stop, Option.map_eq_some_iff] at hk
  obtain ⟨before, hbefore, rfl⟩ := hk
  split at hopen
  · cases hopen
  · rw [if_neg (by assumption)]
    exact hattended k before hbefore hopen

theorem Attended.handleAccept {server : Server} (hattended : server.Attended) (ec : ErrorCode)
    {connection : Connection} (hconnection : connection.pending ≠ none) :
    (server.handleAccept ec connection).Attended := by
  cases hopen : server.acceptorOpen with
  | false =>
      rw [handleAccept_of_closed hopen]
      exact hattended
  | true =>
      by_cases hec : ec = .success
      · rw [hec, handleAccept_of_success hopen]
        intro k connection' hk hk'
        rcases Nat.lt_trichotomy k server.connections.length with hlt | rfl | hgt
        · rw [doAccept, startConnection, List.getElem?_append_left hlt] at hk
          exact hattended k connection' hk hk'
        · simp only [doAccept, startConnection, List.getElem?_concat_length,
            Option.some.injEq] at hk
          exact hk ▸ hconnection
        · have hnone : (server.connections ++ [connection])[k]? = none := by
            simp; omega
          rw [doAccept, startConnection, hnone] at hk
          cases hk
      · rw [handleAccept_of_failure hopen hec]
        exact hattended

/-- A connection that was closed has been closed by its own stop or by that of
the server, so that its cancelled operation leaves it closed. -/
theorem Attended.step {server next : Server} {event : Event} (hattended : server.Attended)
    (hdocumented : Documented server event) (hstep : server.step event = some next) :
    next.Attended := by
  rcases step_cases hstep with ⟨ec, major, minor, status, rfl, haccepts, rfl⟩ |
    ⟨i, ec, bytes, site, connection, left, rfl, hi, -, hread, rfl⟩ |
    ⟨i, ec, connection, rfl, hi, -, rfl⟩ | ⟨rfl, rfl⟩
  · have hcompleted : { server with accepts := server.accepts - 1 }.Attended := hattended
    exact hcompleted.handleAccept ec (by simp [Connection.start])
  · refine hattended.leave hi fun hopen => ?_
    rw [Connection.handleRead_isOpen hread] at hopen
    by_cases hec : ec = .operationAborted
    · subst hec
      rw [hdocumented connection hi] at hopen
      cases hopen
    · exact Connection.handleRead_pending hread hec
  · refine hattended.leave hi fun hopen => ?_
    by_cases hec : ec = .operationAborted
    · subst hec
      rw [Connection.handleWrite, hdocumented connection hi] at hopen
      cases hopen
    · exact Or.inr (by simp [Connection.handleWrite, hec])
  · exact hattended.stop

/-- Whatever the order in which operations complete: the manager holds exactly
the connections whose sockets are open, each of them waits for an operation, one
accept is in flight while the acceptor is open, and there is no connection any
more when it is closed. -/
theorem lifetimes (events : List Event) (hdocumented : AllSteps step started events Documented) :
    Throughout step started events fun server => server.Kept ∧ server.Attended :=
  throughout_of_allSteps ⟨kept_started, attended_started⟩
    (fun _ _ _ hinv hgood hstep => ⟨hinv.1.step hstep, hinv.2.step hgood hstep⟩) hdocumented

/-- Without an acceptor nothing is accepted any more. -/
theorem closed_step {server next : Server} {event : Event} (hclosed : server.acceptorOpen = false)
    (hstep : server.step event = some next) :
    next.acceptorOpen = false ∧ next.connections.length = server.connections.length := by
  rcases step_cases hstep with ⟨ec, major, minor, status, rfl, -, rfl⟩ |
    ⟨i, ec, bytes, site, connection, left, rfl, hi, -, -, rfl⟩ |
    ⟨i, ec, connection, rfl, hi, -, rfl⟩ | ⟨rfl, rfl⟩
  · have hcompleted : { server with accepts := server.accepts - 1 }.acceptorOpen = false :=
      hclosed
    rw [handleAccept_of_closed hcompleted]
    exact ⟨hclosed, rfl⟩
  · exact ⟨(accepts_leave server i left).2.trans hclosed, length_leave server i left⟩
  · exact ⟨(accepts_leave server i _).2.trans hclosed, length_leave server i _⟩
  · exact ⟨rfl, by simp [Server.stop, stopAll]⟩

theorem kept_run {events : List Event} {final : Server}
    (hrun : run step started events = some final) : final.Kept := by
  have hkept : Throughout step started events Server.Kept :=
    throughout_of_steps kept_started fun _ _ _ _ _ _ _ hstep hkept => hkept.step hstep
  exact hkept events (List.prefix_refl events) final hrun

/-- However the operations still in flight complete after a stop of the server,
no connection is added and every socket stays closed. -/
theorem stays_stopped {before after : List Event} {final : Server}
    (hrun : run step started (before ++ .stop :: after) = some final) :
    ∃ stopped, run step started before = some stopped ∧
      final.connections.length = stopped.connections.length ∧ final.managed = ∅ ∧
      ∀ connection ∈ final.connections, connection.isOpen = false := by
  obtain ⟨stopped, hstopped, hafter⟩ := run_of_prefix hrun
  rw [run_cons] at hafter
  have hclosed : final.acceptorOpen = false ∧
      final.connections.length = stopped.connections.length := by
    have hthroughout : Throughout step stopped.stop after fun server =>
        server.acceptorOpen = false ∧
          server.connections.length = stopped.connections.length := by
      refine throughout_of_steps ⟨rfl, by simp [Server.stop, stopAll]⟩ ?_
      intro before' event _ server next _ _ hstep hserver
      obtain ⟨hopen, hlength⟩ := closed_step hserver.1 hstep
      exact ⟨hopen, hlength.trans hserver.2⟩
    exact hthroughout after (List.prefix_refl after) final hafter
  have hkept := kept_run hrun
  have hempty := hkept.managed_of_closed hclosed.1
  refine ⟨stopped, hstopped, hclosed.2, hempty, ?_⟩
  intro connection hconnection
  obtain ⟨i, hi⟩ := List.mem_iff_getElem?.mp hconnection
  by_contra hopen
  have hmanaged := (hkept.managed_iff i).mpr ⟨connection, hi, by simpa using hopen⟩
  rw [hempty] at hmanaged
  cases hmanaged

end Server

/-! ## What a connection is answered -/

/-- What connection `i` has read, with what the handler sees each time. -/
def received (i : ℕ) (events : List Event) : List (List Char8 × Site) :=
  events.filterMap fun event =>
    match event with
    | .readDone k .success bytes site => if k = i then some (bytes, site) else none
    | _ => none

theorem received_append (i : ℕ) (events : List Event) (event : Event) :
    received i (events ++ [event]) = received i events ++ received i [event] := by
  simp [received]

/-- The reply to what was read, when there is one. -/
def replyTo (site : Site) (parsed : Parsed) (reply : Reply) : Option Reply :=
  match parsed.result with
  | .good => some (handleRequest site parsed.request reply)
  | .bad => some (Reply.stockReply .badRequest)
  | .indeterminate => none

/-- The connection after its reads: it goes on reading, or it has written one
reply, to what was read up to the last time. -/
inductive Served (major minor : ℤ) (status : StatusType) (input : List (List Char8 × Site))
    (connection : Connection) : Prop where
  | reading (parsed : Parsed)
      (hparsed : readChunks .methodStart (Request.fresh major minor) (input.map Prod.fst) =
        some parsed)
      (hresult : parsed.result = .indeterminate)
      (hstate : connection.state = parsed.state) (hrequest : connection.request = parsed.request)
      (hreply : connection.reply = Reply.fresh status) (hwritten : connection.written = [])
      (hpending : connection.pending ≠ some .write)
  | answered (parsed : Parsed) (site : Site) (reply : Reply)
      (hparsed : readChunks .methodStart (Request.fresh major minor) (input.map Prod.fst) =
        some parsed)
      (hsite : input.getLast?.map Prod.snd = some site)
      (hreply : replyTo site parsed (Reply.fresh status) = some reply)
      (hwritten : connection.written = [reply.bytes])
      (hpending : connection.pending ≠ some .read)

theorem parse_indeterminate {state : State} {req : Request} {input : List Char8}
    {parsed : Parsed} (hparsed : parse state req input = some parsed)
    (hresult : parsed.result = .indeterminate) :
    parsed = ⟨.indeterminate, [], parsed.state, parsed.request⟩ := by
  induction input generalizing state req with
  | nil =>
      cases hparsed
      rfl
  | cons c rest ih =>
      rw [parse] at hparsed
      cases hconsume : consume state req c with
      | none => simp [hconsume] at hparsed
      | some consumed =>
          rw [hconsume] at hparsed
          simp only at hparsed
          split at hparsed
          · exact ih hparsed
          · rename_i hnext
            cases hparsed
            exact absurd hresult hnext

theorem readChunks_concat {state : State} {req : Request} {chunks : List (List Char8)}
    {parsed : Parsed} (hparsed : readChunks state req chunks = some parsed)
    (hresult : parsed.result = .indeterminate) (chunk : List Char8) :
    readChunks state req (chunks ++ [chunk]) = parse parsed.state parsed.request chunk := by
  induction chunks generalizing state req with
  | nil =>
      cases hparsed
      rw [List.nil_append, readChunks]
      cases hparse : parse state req chunk with
      | none => rfl
      | some parsed' =>
          simp only [readChunks, List.flatten_nil, List.append_nil]
          split
          · rename_i hnext
            exact congrArg some (parse_indeterminate hparse hnext).symm
          · rfl
  | cons first chunks ih =>
      rw [List.cons_append, readChunks]
      rw [readChunks] at hparsed
      cases hparse : parse state req first with
      | none => simp [hparse] at hparsed
      | some parsed' =>
          rw [hparse] at hparsed
          simp only at hparsed ⊢
          split at hparsed
          · rename_i hnext
            rw [if_pos hnext]
            exact ih hparsed
          · rename_i hnext
            cases hparsed
            exact absurd hresult hnext

/-- Nothing of a reply is left from the uninitialised status. -/
theorem handleRequest_fresh (site : Site) (req : Request) (status : StatusType) :
    handleRequest site req (Reply.fresh status) = handleRequest site req (Reply.fresh .ok) :=
  rfl

theorem served_start (major minor : ℤ) (status : StatusType) :
    Served major minor status [] (Connection.start major minor status) :=
  .reading ⟨.indeterminate, [], .methodStart, Request.fresh major minor⟩ rfl rfl rfl rfl rfl rfl
    (by simp [Connection.start])

section Served

variable {major minor : ℤ} {status : StatusType} {input : List (List Char8 × Site)}
  {connection : Connection}

theorem Served.closing (hserved : Served major minor status input connection) (isOpen : Bool) :
    Served major minor status input { connection with isOpen := isOpen } := by
  cases hserved with
  | reading parsed hparsed hresult hstate hrequest hreply hwritten hpending =>
      exact .reading parsed hparsed hresult hstate hrequest hreply hwritten hpending
  | answered parsed site reply hparsed hsite hreply hwritten hpending =>
      exact .answered parsed site reply hparsed hsite hreply hwritten hpending

theorem Served.idle (hserved : Served major minor status input connection) :
    Served major minor status input { connection with pending := none } := by
  cases hserved with
  | reading parsed hparsed hresult hstate hrequest hreply hwritten hpending =>
      exact .reading parsed hparsed hresult hstate hrequest hreply hwritten (by simp)
  | answered parsed site reply hparsed hsite hreply hwritten hpending =>
      exact .answered parsed site reply hparsed hsite hreply hwritten (by simp)

/-- A connection that waits for a read has not answered, and the handler goes on
where the parser was. -/
theorem Served.handleRead (hserved : Served major minor status input connection)
    (hpending : connection.pending = some .read) {site : Site} {ec : ErrorCode}
    {bytes : List Char8} {left : Connection × Bool}
    (hread : connection.handleRead site ec bytes = some left) :
    Served major minor status (if ec = .success then input ++ [(bytes, site)] else input)
      left.1 := by
  cases ec with
  | operationAborted =>
      cases hread
      exact hserved.idle
  | other =>
      cases hread
      exact hserved.idle
  | success =>
      rw [if_pos rfl]
      cases hserved with
      | answered _ _ _ _ _ _ _ hnot => exact absurd hpending hnot
      | reading parsed hparsed hresult hstate hrequest hreply hwritten _ =>
          obtain ⟨parsed', hparse, rfl⟩ := Option.map_eq_some_iff.mp hread
          have hchunks : readChunks .methodStart (Request.fresh major minor)
              ((input ++ [(bytes, site)]).map Prod.fst) = some parsed' := by
            rw [List.map_append, List.map_singleton, readChunks_concat hparsed hresult,
              ← hstate, ← hrequest, hparse]
          have hlast : (input ++ [(bytes, site)]).getLast?.map Prod.snd = some site := by
            simp
          cases hresult' : parsed'.result with
          | good =>
              refine .answered parsed' site (handleRequest site parsed'.request connection.reply)
                hchunks hlast ?_ (by simp [Connection.doWrite, hwritten])
                (by simp [Connection.doWrite])
              simp only [replyTo, hresult', hreply]
          | bad =>
              refine .answered parsed' site (Reply.stockReply .badRequest) hchunks hlast ?_
                (by simp [Connection.doWrite, hwritten]) (by simp [Connection.doWrite])
              simp only [replyTo, hresult']
          | indeterminate =>
              exact .reading parsed' hchunks hresult' rfl rfl hreply hwritten
                (by simp [Connection.doRead])

end Served

/-- Every connection of the server is served from what it has read itself. -/
def AllServed (events : List Event) (server : Server) : Prop :=
  ∀ i, (∀ connection, server.connections[i]? = some connection →
      ∃ major minor status, Served major minor status (received i events) connection) ∧
    (server.connections[i]? = none → received i events = [])

theorem allServed_started : AllServed [] Server.started :=
  fun _ => ⟨by simp [Server.started], fun _ => rfl⟩

/-- A handler of connection `i` serves `i`, and the others are as before. -/
theorem AllServed.leave {events : List Event} {server : Server}
    (hserved : AllServed events server) {event : Event} {i : ℕ} {connection : Connection}
    (hi : server.connections[i]? = some connection) {left : Connection × Bool}
    (hothers : ∀ k, k ≠ i → received k [event] = [])
    (hleft : ∀ major minor status,
      Served major minor status (received i events) connection →
        Served major minor status (received i events ++ received i [event]) left.1) :
    AllServed (events ++ [event]) (server.leave i left) := by
  intro k
  rw [Server.getElem?_leave hi, received_append]
  by_cases hk : k = i
  · subst hk
    rw [if_pos rfl]
    refine ⟨?_, by simp⟩
    intro connection' hconnection'
    obtain ⟨major, minor, status, hbefore⟩ := (hserved k).1 connection hi
    have hafter := hleft major minor status hbefore
    refine ⟨major, minor, status, ?_⟩
    rw [← Option.some.inj hconnection']
    split
    · exact hafter.closing false
    · exact hafter
  · rw [if_neg hk, hothers k hk, List.append_nil]
    exact hserved k

theorem AllServed.stop {events : List Event} {server : Server}
    (hserved : AllServed events server) : AllServed (events ++ [.stop]) server.stop := by
  intro k
  have hnothing : received k [.stop] = [] := rfl
  rw [Server.getElem?_stop, received_append, hnothing, List.append_nil]
  constructor
  · intro connection hconnection
    obtain ⟨before, hbefore, rfl⟩ := Option.map_eq_some_iff.mp hconnection
    obtain ⟨major, minor, status, hserve⟩ := (hserved k).1 before hbefore
    refine ⟨major, minor, status, ?_⟩
    split
    · exact hserve.closing false
    · exact hserve
  · intro hnone
    exact (hserved k).2 (Option.map_eq_none_iff.mp hnone)

theorem AllServed.accepted {events : List Event} {server : Server}
    (hserved : AllServed events server) (ec : ErrorCode) (major minor : ℤ)
    (status : StatusType) :
    AllServed (events ++ [.accepted ec major minor status])
      (server.handleAccept ec (Connection.start major minor status)) := by
  intro k
  have hnothing : received k [.accepted ec major minor status] = [] := rfl
  rw [received_append, hnothing, List.append_nil]
  by_cases hopen : server.acceptorOpen = true
  · by_cases hec : ec = .success
    · rw [hec, Server.handleAccept_of_success hopen]
      simp only [Server.doAccept, Server.startConnection]
      rcases Nat.lt_trichotomy k server.connections.length with hlt | rfl | hgt
      · rw [List.getElem?_append_left hlt]
        exact hserved k
      · have hnone := (hserved server.connections.length).2 (by simp)
        rw [List.getElem?_concat_length, hnone]
        refine ⟨?_, by simp⟩
        intro connection hconnection
        exact ⟨major, minor, status, Option.some.inj hconnection ▸ served_start _ _ _⟩
      · have hbefore : server.connections[k]? = none := by
          simp; omega
        have hnone : (server.connections ++ [Connection.start major minor status])[k]? = none := by
          simp; omega
        rw [hnone]
        exact ⟨by simp, fun _ => (hserved k).2 hbefore⟩
    · rw [Server.handleAccept_of_failure hopen hec]
      exact hserved k
  · rw [Server.handleAccept_of_closed (by simpa using hopen)]
    exact hserved k

theorem AllServed.step {events : List Event} {server next : Server} {event : Event}
    (hserved : AllServed events server) (hstep : server.step event = some next) :
    AllServed (events ++ [event]) next := by
  rcases Server.step_cases hstep with ⟨ec, major, minor, status, rfl, -, rfl⟩ |
    ⟨i, ec, bytes, site, connection, left, rfl, hi, hpending, hread, rfl⟩ |
    ⟨i, ec, connection, rfl, hi, -, rfl⟩ | ⟨rfl, rfl⟩
  · have hcompleted : AllServed events { server with accepts := server.accepts - 1 } := hserved
    exact hcompleted.accepted ec major minor status
  · refine hserved.leave hi ?_ ?_
    · intro k hk
      cases ec <;> simp [received, Ne.symm hk]
    · intro major minor status hbefore
      have hafter := hbefore.handleRead hpending hread
      cases ec <;> simpa [received] using hafter
  · refine hserved.leave hi (fun _ _ => rfl) ?_
    intro major minor status hbefore
    have hnothing : received i [.writeDone i ec] = [] := rfl
    rw [hnothing, List.append_nil]
    exact hbefore.idle
  · exact hserved.stop

theorem allServed_run {events : List Event} {final : Server}
    (hrun : run Server.step Server.started events = some final) : AllServed events final := by
  induction events using List.reverseRecOn generalizing final with
  | nil =>
      cases hrun
      exact allServed_started
  | append_singleton events event ih =>
      obtain ⟨last, hlast, hstep⟩ := run_append_singleton hrun
      exact (ih hlast).step hstep

/-- What each client is sent depends on what it sent itself and on nothing that
others did: nothing while its bytes can still become a request, the reply to
its request once they begin with one, and a bad request once they cannot.  The
reply shows the devices and processors as they were at its last read. -/
theorem answers {events : List Event} {final : Server}
    (hrun : run Server.step Server.started events = some final) {i : ℕ} {connection : Connection}
    (hi : final.connections[i]? = some connection) :
    let input := ((received i events).map Prod.fst).flatten
    (connection.written = [] ↔
      ∃ message : Message, input <+: message.chars ∧ input ≠ message.chars) ∧
    (∀ (message : Message) unread, input = message.chars ++ unread →
      ∃ site, (received i events).getLast?.map Prod.snd = some site ∧
        connection.written =
          [(handleRequest site message.request (Reply.fresh .ok)).bytes]) ∧
    ((¬∃ message : Message, input <+: message.chars ∨ message.chars <+: input) →
      connection.written = [(Reply.stockReply .badRequest).bytes]) := by
  intro input
  obtain ⟨major, minor, status, hserved⟩ := (allServed_run hrun i).1 connection hi
  have hstarted : Started .methodStart (Request.fresh major minor) := by
    simp [Started]
  obtain ⟨parsed, hparsed, hscan⟩ :=
    readChunks_eq_scan hstarted ((received i events).map Prod.fst)
  have hstart : StartedAt (.methodStart, Request.fresh major minor) := hstarted
  have hunfinished : parsed.result = .indeterminate ↔
      ∃ message : Message, input <+: message.chars ∧ input ≠ message.chars := by
    rw [← begins_methodStart_iff major minor,
      ← derives_verdict.scan_unfinished_iff hstart input, hscan, Parsed.toScan]
    cases parsed.result <;> simp
  have haccepted : ∀ (message : Message) unread, input = message.chars ++ unread →
      parsed.result = .good ∧ parsed.request = message.request := by
    intro message unread hinput
    have hform := (formAt_methodStart_iff major minor message.chars message.request).mpr
      ⟨message, rfl, rfl⟩
    have haccept := (derives_verdict.scan_accepted_iff hstart input unread message.request).mpr
      ⟨message.chars, hinput.symm, hform⟩
    rw [hscan, Parsed.toScan] at haccept
    cases hresult : parsed.result <;> simp [hresult] at haccept
    exact ⟨rfl, haccept.1⟩
  have hgood : parsed.result = .good → ∃ message : Message, message.chars <+: input := by
    intro hresult
    have haccept : scan verdict (.methodStart, Request.fresh major minor) input =
        .accepted parsed.request parsed.unread := by
      rw [hscan, Parsed.toScan, hresult]
    obtain ⟨word, hword, hform⟩ :=
      (derives_verdict.scan_accepted_iff hstart input parsed.unread parsed.request).mp haccept
    obtain ⟨message, rfl, -⟩ := (formAt_methodStart_iff major minor word parsed.request).mp hform
    exact ⟨message, parsed.unread, hword⟩
  cases hserved with
  | reading parsed' hparsed' hresult hstate hrequest hreply hwritten hpending =>
      obtain rfl : parsed' = parsed := Option.some.inj (hparsed'.symm.trans hparsed)
      refine ⟨iff_of_true hwritten (hunfinished.mp hresult), ?_, ?_⟩
      · intro message unread hinput
        rw [(haccepted message unread hinput).1] at hresult
        cases hresult
      · intro hnone
        obtain ⟨message, hbegins, -⟩ := hunfinished.mp hresult
        exact absurd ⟨message, Or.inl hbegins⟩ hnone
  | answered parsed' site reply hparsed' hsite hreply hwritten hpending =>
      obtain rfl : parsed' = parsed := Option.some.inj (hparsed'.symm.trans hparsed)
      refine ⟨iff_of_false (by simp [hwritten]) ?_, ?_, ?_⟩
      · intro hmessage
        rw [replyTo, hunfinished.mpr hmessage] at hreply
        cases hreply
      · intro message unread hinput
        obtain ⟨hresult, hrequest⟩ := haccepted message unread hinput
        simp only [replyTo, hresult, hrequest, Option.some.injEq] at hreply
        exact ⟨site, hsite, by rw [hwritten, ← hreply, handleRequest_fresh]⟩
      · intro hnone
        cases hresult : parsed'.result with
        | good =>
            obtain ⟨message, hbegins⟩ := hgood hresult
            exact absurd ⟨message, Or.inr hbegins⟩ hnone
        | bad =>
            simp only [replyTo, hresult, Option.some.injEq] at hreply
            rw [hwritten, ← hreply]
        | indeterminate =>
            rw [replyTo, hresult] at hreply
            cases hreply

/-- A client that asks for the home page of a server without devices. -/
def homeMessage : Message where
  method := text "GET"
  uri := text "/"
  major := text "1"
  minor := text "0"
  fields := []
  method_ne := by decide +kernel
  isToken := by decide +kernel
  isUriChar := by decide +kernel
  major_ne := by decide +kernel
  majorDigits := by decide +kernel
  minor_ne := by decide +kernel
  minorDigits := by decide +kernel

def emptySite : Site :=
  ⟨[], [], [], [], [], []⟩

/-- The request comes in two parts, and another client connects in between. -/
def homeEvents : List Event :=
  [.accepted .success 0 0 .created,
    .readDone 0 .success (homeMessage.chars.take 5) emptySite,
    .accepted .success 0 0 .created,
    .readDone 1 .other [] emptySite,
    .readDone 0 .success (homeMessage.chars.drop 5) emptySite]

theorem homeEvents_possible : ∃ final connection,
    run Server.step Server.started homeEvents = some final ∧
      final.connections[0]? = some connection := by
  have hsome : ((run Server.step Server.started homeEvents).bind
      fun final => final.connections[0]?).isSome = true := by
    decide
  obtain ⟨connection, hconnection⟩ := Option.isSome_iff_exists.mp hsome
  obtain ⟨final, hrun, hconnection⟩ := Option.bind_eq_some_iff.mp hconnection
  exact ⟨final, connection, hrun, hconnection⟩

theorem answers_home : ∃ final connection,
    run Server.step Server.started homeEvents = some final ∧
      final.connections[0]? = some connection ∧
      connection.written =
        [(handleRequest emptySite homeMessage.request (Reply.fresh .ok)).bytes] := by
  obtain ⟨final, connection, hrun, hconnection⟩ := homeEvents_possible
  have hinput : ((received 0 homeEvents).map Prod.fst).flatten = homeMessage.chars ++ [] := by
    decide
  obtain ⟨site, hsite, hwritten⟩ := (answers hrun hconnection).2.1 homeMessage [] hinput
  obtain rfl : emptySite = site := Option.some.inj hsite
  exact ⟨final, connection, hrun, hconnection, hwritten⟩

/-- Whatever happens, a connection is sent one reply at most, and a client reads
it back: its status, its headers and as much content as they announce. -/
theorem written_reads_back {events : List Event} {final : Server}
    (hrun : run Server.step Server.started events = some final) {i : ℕ} {connection : Connection}
    (hi : final.connections[i]? = some connection) :
    connection.written.length ≤ 1 ∧
      ∀ sent ∈ connection.written, ∃ reply : Reply, sent = reply.bytes ∧
        reply.status ∈ [StatusType.ok, .badRequest, .notFound] ∧
        ∀ more, readReply (sent ++ more) =
          some (⟨reply.status.code, reply.headers, reply.content⟩, more) := by
  obtain ⟨major, minor, status, hserved⟩ := (allServed_run hrun i).1 connection hi
  cases hserved with
  | reading parsed hparsed hresult hstate hrequest hreply hwritten hpending =>
      simp [hwritten]
  | answered parsed site reply hparsed hsite hreply hwritten hpending =>
      rw [hwritten]
      refine ⟨le_rfl, ?_⟩
      intro sent hsent
      obtain rfl := List.mem_singleton.mp hsent
      have hframed : reply.Framed ∧ reply.status ∈ [StatusType.ok, .badRequest, .notFound] := by
        cases hresult : parsed.result with
        | good =>
            simp only [replyTo, hresult, Option.some.injEq] at hreply
            rw [← hreply]
            exact ⟨framed_handleRequest _ _ _, status_handleRequest _ _ _⟩
        | bad =>
            simp only [replyTo, hresult, Option.some.injEq] at hreply
            rw [← hreply]
            exact ⟨framed_stockReply _, by simp [Reply.stockReply]⟩
        | indeterminate =>
            rw [replyTo, hresult] at hreply
            cases hreply
      exact ⟨reply, rfl, hframed.2, hframed.1.readReply_bytes⟩

theorem written_reads_back_home : ∃ final connection reply,
    run Server.step Server.started homeEvents = some final ∧
      final.connections[0]? = some connection ∧
      connection.written = [Reply.bytes reply] ∧
      ∀ more, readReply (reply.bytes ++ more) =
        some (⟨reply.status.code, reply.headers, reply.content⟩, more) := by
  obtain ⟨final, connection, hrun, hconnection⟩ := homeEvents_possible
  have hone : ((run Server.step Server.started homeEvents).bind
      fun final => final.connections[0]?).map (fun connection => connection.written.length) =
        some 1 := by
    decide
  rw [hrun, Option.bind_some, hconnection, Option.map_some, Option.some.injEq,
    List.length_eq_one_iff] at hone
  obtain ⟨sent, hsent⟩ := hone
  obtain ⟨reply, rfl, -, hread⟩ := (written_reads_back hrun hconnection).2 sent
    (hsent ▸ List.mem_singleton_self sent)
  exact ⟨final, connection, reply, hrun, hconnection, hsent, hread⟩

theorem documented_home : AllSteps Server.step Server.started homeEvents Documented := by
  intro before event after hsplit server _
  have hmem : event ∈ homeEvents := by
    rw [hsplit]
    simp
  simp only [homeEvents, List.mem_cons, List.not_mem_nil, or_false] at hmem
  rcases hmem with rfl | rfl | rfl | rfl | rfl <;> trivial

theorem lifetimes_home :
    Throughout Server.step Server.started homeEvents
      fun server => server.Kept ∧ server.Attended :=
  Server.lifetimes homeEvents documented_home

/-- The server is stopped while a client is connected. -/
theorem stays_stopped_home : ∃ final,
    run Server.step Server.started
        (homeEvents.take 1 ++ .stop ::
          [.readDone 0 .operationAborted [] emptySite, .accepted .operationAborted 0 0 .ok]) =
      some final ∧
    final.managed = ∅ ∧ ∀ connection ∈ final.connections, connection.isOpen = false := by
  have hsome : (run Server.step Server.started
      (homeEvents.take 1 ++ .stop ::
        [.readDone 0 .operationAborted [] emptySite,
          .accepted .operationAborted 0 0 .ok])).isSome = true := by
    decide
  obtain ⟨final, hrun⟩ := Option.isSome_iff_exists.mp hsome
  obtain ⟨-, -, -, hstopped⟩ := Server.stays_stopped hrun
  exact ⟨final, hrun, hstopped⟩

end SensorHub.Http
