import FProto.Foundation.Bytes
import FProto.Foundation.Mailbox
import Mathlib.Data.List.Induction

/-!
Owns the connections of the Node starter: `WsServerConn` and `WsClientConn`, with the
handlers that their constructors install on the socket.

**Main result.** A connection returns what its peer sent exactly when no `readMessage()`
is outstanding at the moment it closes (`returns_only_messages_iff`): those that are get
an empty buffer that nobody sent.

The code runs on one thread, so a handler or a call is one step. A `resolve` callback in
`waiters` is the number of the `readMessage()` call whose promise it resolves. Does not
own: `writeMessage()` and `close()`, which only pass on to the socket.
-/

namespace FProto.Starters.Node

open FProto.Foundation

/-- The class of a connection, with what its `remoteAddr()` reads. -/
inductive Origin where
  | server (addr : String)
  | client (url : Option String)
deriving DecidableEq

/-- The fields that both classes have, with the promises of `readMessage()` in the order
of the calls. -/
structure Conn where
  origin : Origin
  queue : List Bytes
  waiters : List Nat
  closed : Bool
  reads : List (Promise Bytes)
deriving DecidableEq

namespace Conn

def new (origin : Origin) : Conn where
  origin := origin
  queue := []
  waiters := []
  closed := false
  reads := []

/-- `new WsServerConn(ws, addr)`. -/
def newWsServerConn (addr : String) : Conn := new (.server addr)

/-- `new WsClientConn(ws)`. -/
def newWsClientConn (url : Option String) : Conn := new (.client url)

def remoteAddr (conn : Conn) : String :=
  match conn.origin with
  | .server addr => addr
  | .client url => url.getD "unknown"

/-- The handler of `'message'`, the same in both classes. -/
def onMessage (conn : Conn) (data : Bytes) : Conn :=
  match conn.waiters with
  | waiter :: waiters =>
      { conn with waiters := waiters, reads := Promise.resolve conn.reads waiter data }
  | [] => { conn with queue := conn.queue ++ [data] }

/-- The handler of `'close'`, the same in both classes. -/
def onClose (conn : Conn) : Conn :=
  { conn with
    closed := true
    -- `Buffer.alloc(0)` for every waiter.
    reads := Promise.resolveAll conn.reads conn.waiters []
    waiters := [] }

/-- `readMessage()`, the same in both classes. -/
def readMessage (conn : Conn) : Conn :=
  match conn.queue with
  | data :: queue => { conn with queue := queue, reads := conn.reads ++ [.fulfilled data] }
  | [] =>
      if conn.closed then { conn with reads := conn.reads ++ [.rejected "connection closed"] }
      else
        { conn with
          waiters := conn.waiters ++ [conn.reads.length]
          reads := conn.reads ++ [.pending] }

end Conn

/-! ### Runs -/

inductive Event where
  | message (data : Bytes)
  | close
  | readMessage
deriving DecidableEq

def Event.message? : Event → Option Bytes
  | .message data => some data
  | _ => none

/-- The messages received, in order. -/
def messages (events : List Event) : List Bytes :=
  events.filterMap Event.message?

/-- The number of `readMessage()` calls. -/
def calls (events : List Event) : Nat :=
  events.countP (· = .readMessage)

theorem messages_concat (events : List Event) (event : Event) :
    messages (events ++ [event]) = messages events ++ event.message?.toList :=
  filterMap_concat Event.message? events event

theorem calls_concat (events : List Event) (event : Event) :
    calls (events ++ [event]) = calls events + if event = .readMessage then 1 else 0 := by
  simp [calls, List.countP_append, List.countP_singleton]

def Conn.next (conn : Conn) : Event → Conn
  | .message data => conn.onMessage data
  | .close => conn.onClose
  | .readMessage => conn.readMessage

/-- A connection after some events. -/
def after (origin : Origin) (events : List Event) : Conn :=
  events.foldl Conn.next (Conn.new origin)

theorem after_concat (origin : Origin) (events : List Event) (event : Event) :
    after origin (events ++ [event]) = (after origin events).next event := by
  rw [after, List.foldl_concat]
  rfl

/-! ### Promises -/

section Promises

variable {conn : Conn}

/-- A promise that is settled stays so. -/
theorem Conn.next_settled {index : Nat} {promise : Promise Bytes}
    (there : conn.reads[index]? = some promise) (settled : promise ≠ .pending) (event : Event) :
    (conn.next event).reads[index]? = some promise := by
  have appended : ∀ last, (conn.reads ++ [last])[index]? = some promise := by
    intro last
    rw [List.getElem?_append_left (List.getElem?_eq_some_iff.mp there).1]
    exact there
  cases event with
  | message data =>
      rw [next, onMessage]
      split
      · exact Promise.getElem?_resolve_of_settled there settled _ _
      · exact there
  | close => exact Promise.getElem?_resolveAll_of_settled there settled _ _
  | readMessage =>
      rw [next, readMessage]
      split
      · exact appended _
      · split
        · exact appended _
        · exact appended _

theorem Conn.run_settled {index : Nat} {promise : Promise Bytes} {events : List Event}
    (there : conn.reads[index]? = some promise) (settled : promise ≠ .pending) :
    (events.foldl next conn).reads[index]? = some promise := by
  induction events generalizing conn with
  | nil => exact there
  | cons event events inductionHypothesis =>
      exact inductionHypothesis (next_settled there settled event)

end Promises

/-- What holds of a connection at all times: a call that is pending waits, and nobody
waits once the connection is closed. -/
structure Conn.Consistent (conn : Conn) : Prop where
  pending : ∀ index, conn.reads[index]? = some .pending → index ∈ conn.waiters
  closed : conn.closed = true → conn.waiters = []

section Consistent

variable {conn : Conn}

theorem Conn.Consistent.onMessage (consistent : conn.Consistent) (data : Bytes) :
    (conn.onMessage data).Consistent := by
  rw [Conn.onMessage]
  split
  · next waiter waiters isWaiters =>
    constructor
    · intro index there
      obtain ⟨wasPending, different⟩ := Promise.pending_of_resolve there
      have waited := consistent.pending index wasPending
      rw [isWaiters] at waited
      exact (List.mem_cons.mp waited).resolve_left different
    · intro isClosed
      have nobody := consistent.closed isClosed
      rw [isWaiters] at nobody
      cases nobody
  · exact ⟨consistent.pending, consistent.closed⟩

theorem Conn.Consistent.onClose (consistent : conn.Consistent) : conn.onClose.Consistent := by
  refine ⟨fun index there => ?_, fun _ => rfl⟩
  obtain ⟨wasPending, outside⟩ := Promise.pending_of_resolveAll there
  exact absurd (consistent.pending index wasPending) outside

/-- A call that is answered at once does not wait. -/
theorem Conn.Consistent.answered (consistent : conn.Consistent) {last : Promise Bytes}
    (settled : last ≠ .pending) {index : Nat}
    (there : (conn.reads ++ [last])[index]? = some .pending) : index ∈ conn.waiters := by
  rcases Promise.pending_of_concat there with wasPending | ⟨_, isPending⟩
  · exact consistent.pending index wasPending
  · exact absurd isPending settled

theorem Conn.Consistent.readMessage (consistent : conn.Consistent) :
    conn.readMessage.Consistent := by
  rw [Conn.readMessage]
  split
  · exact ⟨fun index => consistent.answered (by simp), consistent.closed⟩
  · split
    · exact ⟨fun index => consistent.answered (by simp), consistent.closed⟩
    · next notClosed =>
      refine ⟨fun index there => ?_, fun isClosed => absurd isClosed notClosed⟩
      rcases Promise.pending_of_concat there with wasPending | ⟨isLast, _⟩
      · exact List.mem_append_left _ (consistent.pending index wasPending)
      · exact List.mem_append_right _ (List.mem_singleton.mpr isLast)

theorem Conn.Consistent.next (consistent : conn.Consistent) (event : Event) :
    (conn.next event).Consistent := by
  cases event with
  | message data => exact consistent.onMessage data
  | close => exact consistent.onClose
  | readMessage => exact consistent.readMessage

end Consistent

theorem consistent_after (origin : Origin) (events : List Event) :
    (after origin events).Consistent := by
  induction events using List.reverseRecOn with
  | nil => exact ⟨fun index there => by simp [after, Conn.new] at there, fun _ => rfl⟩
  | append_singleton events event inductionHypothesis =>
      rw [after_concat]
      exact inductionHypothesis.next event

/-! ### Before and after closing -/

/-- The part of a connection in which messages and calls wait for each other. -/
def Conn.mailbox (conn : Conn) : Mailbox Bytes :=
  ⟨conn.queue, conn.waiters, conn.reads⟩

theorem Conn.mailbox_onMessage (conn : Conn) (data : Bytes) :
    (conn.onMessage data).mailbox = conn.mailbox.deliver data := by
  cases conn with
  | mk origin queue waiters closed reads => cases waiters <;> rfl

theorem Conn.mailbox_readMessage {conn : Conn} (isOpen : conn.closed = false) :
    conn.readMessage.mailbox = conn.mailbox.read := by
  cases conn with
  | mk origin queue waiters closed reads =>
      obtain rfl : closed = false := isOpen
      cases queue <;> rfl

theorem Conn.closed_next (conn : Conn) (event : Event) :
    (conn.next event).closed = true ↔ conn.closed = true ∨ event = .close := by
  cases event with
  | message data =>
      rw [next, onMessage]
      cases conn.waiters <;> simp
  | close => simp [next, onClose]
  | readMessage =>
      rw [next, readMessage]
      cases conn.queue with
      | cons data queue => simp
      | nil => by_cases isClosed : conn.closed = true <;> simp [isClosed]

theorem closed_after_iff {origin : Origin} {events : List Event} :
    (after origin events).closed = true ↔ Event.close ∈ events := by
  induction events using List.reverseRecOn with
  | nil => simp [after, Conn.new]
  | append_singleton events event inductionHypothesis =>
      rw [after_concat, Conn.closed_next, inductionHypothesis, List.mem_append,
        List.mem_singleton, eq_comm]

/-- Until it is closed, a connection holds what the messages and calls so far leave. -/
theorem holds_after (origin : Origin) {events : List Event} (isOpen : Event.close ∉ events) :
    (after origin events).mailbox.Holds (messages events) (calls events) := by
  induction events using List.reverseRecOn with
  | nil => exact Mailbox.holds_empty
  | append_singleton events event inductionHypothesis =>
      rw [List.mem_append, not_or, List.mem_singleton] at isOpen
      have held := inductionHypothesis isOpen.1
      rw [after_concat, messages_concat, calls_concat]
      cases event with
      | message data =>
          rw [Conn.next, Conn.mailbox_onMessage]
          exact held.deliver data
      | close => exact absurd rfl isOpen.2
      | readMessage =>
          have notClosed : (after origin events).closed = false := by
            rw [← Bool.not_eq_true, closed_after_iff]
            exact isOpen.1
          rw [Conn.next, Conn.mailbox_readMessage notClosed]
          simpa [Event.message?] using held.read

/-- Nobody waits for a message when a connection closes. -/
def ClosesIdle (origin : Origin) (events : List Event) : Prop :=
  ∀ before later, events = before ++ .close :: later → (after origin before).waiters = []

/-- While nobody waits, an event only moves messages from the queue to calls. -/
theorem Conn.values_next_of_idle {conn : Conn} (isClosed : conn.closed = true)
    (idle : conn.waiters = []) (event : Event) :
    Promise.values (conn.next event).reads ++ (conn.next event).queue =
      Promise.values conn.reads ++ conn.queue ++ event.message?.toList := by
  cases event with
  | message data => simp [next, onMessage, idle, Event.message?]
  | close => simp [next, onClose, idle, Event.message?, Promise.resolveAll]
  | readMessage =>
      rw [next, readMessage]
      cases conn.queue <;> simp [isClosed, Event.message?, Promise.values, Promise.value?]

/-- What was given to calls and what is queued are all messages, if nobody waits when
the connection closes. -/
theorem values_append_queue_after {origin : Origin} {events : List Event}
    (closesIdle : ClosesIdle origin events) :
    Promise.values (after origin events).reads ++ (after origin events).queue =
      messages events := by
  induction events using List.reverseRecOn with
  | nil => rfl
  | append_singleton events event inductionHypothesis =>
      have early : ClosesIdle origin events := by
        intro before later isEvents
        apply closesIdle before (later ++ [event])
        rw [isEvents, List.append_assoc, List.cons_append]
      by_cases wasClosed : Event.close ∈ events
      · have isClosed : (after origin events).closed = true := closed_after_iff.mpr wasClosed
        have idle := (consistent_after origin events).closed isClosed
        rw [after_concat, Conn.values_next_of_idle isClosed idle, inductionHypothesis early,
          messages_concat]
      · by_cases closes : event = .close
        · subst closes
          have idle := closesIdle events [] rfl
          rw [after_concat, messages_concat, ← inductionHypothesis early]
          simp [Conn.next, Conn.onClose, idle, Event.message?, Promise.resolveAll]
        · refine (holds_after origin ?_).values_append_queue
          simp [wasClosed, Ne.symm closes]

/-! ### What the calls return -/

/-- A `readMessage()` that gets no message because the connection closed. -/
inductive Orphan (origin : Origin) (events : List Event) : Nat → Prop where
  /-- The call is pending when the connection closes. -/
  | pending {before later : List Event} {index : Nat}
      (closes : events = before ++ .close :: later)
      (waits : (after origin before).reads[index]? = some .pending) : Orphan origin events index
  /-- The call is made when the connection is closed and nothing is queued. -/
  | late {before later : List Event} (reads : events = before ++ .readMessage :: later)
      (closed : (after origin before).closed = true) (nothing : (after origin before).queue = []) :
      Orphan origin events (after origin before).reads.length

structure ReturnsOnlyMessages (origin : Origin) (events : List Event) : Prop where
  /-- The buffers returned are the first messages, in the order of the calls. -/
  inOrder : Promise.values (after origin events).reads <+: messages events
  rejected : ∀ index, Orphan origin events index →
    ∃ error, (after origin events).reads[index]? = some (.rejected error)

theorem after_append (origin : Origin) (before : List Event) (event : Event)
    (later : List Event) :
    after origin (before ++ event :: later) =
      later.foldl Conn.next ((after origin before).next event) := by
  rw [after, List.foldl_append, List.foldl_cons]
  rfl

/-- The longest wait gets an empty buffer when the connection closes. -/
theorem onClose_fulfils {conn : Conn} {index : Nat} {rest : List Nat}
    (waits : conn.waiters = index :: rest) (pending : conn.reads[index]? = some .pending) :
    conn.onClose.reads[index]? = some (.fulfilled []) := by
  show (Promise.resolveAll conn.reads conn.waiters [])[index]? = _
  rw [waits]
  show (Promise.resolveAll (Promise.resolve conn.reads index []) rest [])[index]? = _
  apply Promise.getElem?_resolveAll_of_settled
  · rw [Promise.resolve, List.getElem?_modify, pending]
    simp [Promise.fulfill]
  · simp

/-- The wait of a call that has no message is pending. -/
theorem pending_of_waits (origin : Origin) {before : List Event}
    (isOpen : Event.close ∉ before) (waits : (messages before).length < calls before) :
    ∃ rest, (after origin before).waiters = (messages before).length :: rest ∧
      (after origin before).reads[(messages before).length]? = some .pending := by
  have held := holds_after origin isOpen
  have isReads : (after origin before).reads = Mailbox.answers (messages before) (calls before) :=
    held.promises
  refine ⟨_, held.waiters_eq_cons waits, ?_⟩
  rw [isReads, Mailbox.getElem?_answers _ waits, Mailbox.answer_of_le _ (Nat.le_refl _)]

/-- When every call that was made has its message at the first `'close'`, nobody waits at
any. -/
theorem closesIdle_of_answered {origin : Origin} {events : List Event}
    (answered : ∀ before later, events = before ++ .close :: later → .close ∉ before →
      calls before ≤ (messages before).length) :
    ClosesIdle origin events := by
  intro before later isEvents
  by_cases wasClosed : Event.close ∈ before
  · exact (consistent_after origin before).closed (closed_after_iff.mpr wasClosed)
  · exact (holds_after origin wasClosed).waiters_eq_nil (answered before later isEvents wasClosed)

/-- For every interleaving, on a connection of either class: the buffers that
`readMessage()` returns are the messages in order, and calls without a message are
rejected, if and only if every call made before the connection closes has its message by
then. -/
theorem returns_only_messages_iff (origin : Origin) (events : List Event) :
    ReturnsOnlyMessages origin events ↔
      ∀ before later, events = before ++ .close :: later → .close ∉ before →
        calls before ≤ (messages before).length := by
  constructor
  · intro returns before later isEvents isOpen
    apply Nat.le_of_not_lt
    intro waits
    obtain ⟨rest, isWaiters, pending⟩ := pending_of_waits origin isOpen waits
    obtain ⟨error, rejected⟩ := returns.rejected _ (.pending isEvents pending)
    have fulfilled : (after origin events).reads[(messages before).length]? =
        some (.fulfilled []) := by
      rw [isEvents, after_append]
      exact Conn.run_settled (onClose_fulfils isWaiters pending) (by simp)
    cases rejected.symm.trans fulfilled
  · intro answered
    have closesIdle : ClosesIdle origin events := closesIdle_of_answered answered
    refine ⟨⟨_, values_append_queue_after closesIdle⟩, fun index orphan => ?_⟩
    cases orphan with
    | pending closes waits =>
        have waiting := (consistent_after origin _).pending index waits
        rw [closesIdle _ _ closes] at waiting
        cases waiting
    | late reads closed nothing =>
        refine ⟨"connection closed", ?_⟩
        rw [reads, after_append]
        apply Conn.run_settled
        · simp [Conn.next, Conn.readMessage, nothing, closed]
        · simp

/-- A call that is pending when the connection closes returns an empty buffer, which the
peer did not send. -/
theorem empty_buffer_returned :
    ¬ReturnsOnlyMessages (.server "127.0.0.1:9400") [.readMessage, .close] := by
  intro returns
  have inOrder := returns.inOrder
  revert inOrder
  decide

end FProto.Starters.Node
