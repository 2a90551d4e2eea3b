import FProto.Foundation.Bytes
import FProto.Foundation.Mailbox
import Mathlib.Data.List.Induction

/-!
Owns the transport of the TypeScript SDK: `WebSocketTransport` with the handlers that
`connect` installs on the socket, and the calls that `FProtoClient` passes on to it.

**Main result.** Messages and `receive()` calls meet in order, whatever their
interleaving and however many calls are outstanding (`receive_fifo`).

The code runs on one thread, so a handler or a call is one step. A `resolve` callback in
`waiters` is the number of the `receive()` call whose promise it resolves. Does not own:
the socket, which is the `ws` library's, and the delays of `connectWithReconnect`.
-/

namespace FProto.Sdk.TypeScript

open FProto.Foundation

/-- `readyState` of a socket. -/
inductive ReadyState where
  | connecting
  | opened
  | closing
  | closed
deriving DecidableEq

/-- A socket of the library, with the messages given to it. -/
structure WebSocket where
  url : String
  readyState : ReadyState
  sent : List Bytes
deriving DecidableEq

/-- `WebSocketTransport`, with the promises of `connect()` and, in the order of the
calls, of `receive()`. -/
structure WebSocketTransport where
  ws : Option WebSocket
  url : String
  messageQueue : List Bytes
  waiters : List Nat
  connected : Promise Unit
  received : List (Promise Bytes)
deriving DecidableEq

namespace WebSocketTransport

/-- `new WebSocketTransport(url)`. -/
def new (url : String) : WebSocketTransport where
  ws := none
  url := url
  messageQueue := []
  waiters := []
  connected := .pending
  received := []

def connect (transport : WebSocketTransport) : WebSocketTransport :=
  { transport with ws := some ⟨transport.url, .connecting, []⟩, connected := .pending }

/-- The socket opens, and the handler of `'open'` runs. -/
def onOpen (transport : WebSocketTransport) : WebSocketTransport :=
  { transport with
    ws := transport.ws.map fun ws => { ws with readyState := .opened }
    connected := transport.connected.fulfill () }

/-- The handler of `'error'`. -/
def onError (transport : WebSocketTransport) (err : String) : WebSocketTransport :=
  { transport with connected := transport.connected.reject err }

/-- The handler of `'message'`. -/
def onMessage (transport : WebSocketTransport) (data : Bytes) : WebSocketTransport :=
  match transport.waiters with
  | waiter :: waiters =>
      { transport with
        waiters := waiters
        received := Promise.resolve transport.received waiter data }
  | [] => { transport with messageQueue := transport.messageQueue ++ [data] }

def send (transport : WebSocketTransport) (data : Bytes) : Except String WebSocketTransport :=
  match transport.ws with
  | none => .error "WebSocket not connected"
  | some ws =>
      if ws.readyState ≠ .opened then .error "WebSocket not connected"
      else .ok { transport with ws := some { ws with sent := ws.sent ++ [data] } }

def receive (transport : WebSocketTransport) : WebSocketTransport :=
  match transport.messageQueue with
  | data :: messageQueue =>
      { transport with
        messageQueue := messageQueue
        received := transport.received ++ [.fulfilled data] }
  | [] =>
      { transport with
        waiters := transport.waiters ++ [transport.received.length]
        received := transport.received ++ [.pending] }

def close (transport : WebSocketTransport) : WebSocketTransport :=
  { transport with ws := none }

end WebSocketTransport

/-! ### Runs -/

/-- What happens to a transport: calls of its methods, and events of its socket. -/
inductive Event where
  | connect
  | opened
  | failed (err : String)
  | message (data : Bytes)
  | send (data : Bytes)
  | receive
  | close
deriving DecidableEq

def Event.message? : Event → Option Bytes
  | .message data => some data
  | _ => none

/-- The incoming messages, in order. -/
def messages (events : List Event) : List Bytes :=
  events.filterMap Event.message?

/-- The number of `receive()` calls. -/
def calls (events : List Event) : Nat :=
  events.countP (· = .receive)

theorem messages_concat (events : List Event) (event : Event) :
    messages (events ++ [event]) = messages events ++ event.message?.toList :=
  filterMap_concat Event.message? events event

theorem calls_concat (events : List Event) (event : Event) :
    calls (events ++ [event]) = calls events + if event = .receive then 1 else 0 := by
  simp [calls, List.countP_append, List.countP_singleton]

namespace WebSocketTransport

def next (transport : WebSocketTransport) : Event → WebSocketTransport
  | .connect => transport.connect
  | .opened => transport.onOpen
  | .failed err => transport.onError err
  | .message data => transport.onMessage data
  -- A `send` that throws changes nothing.
  | .send data => (transport.send data).toOption.getD transport
  | .receive => transport.receive
  | .close => transport.close

/-- The part of a transport in which messages and calls wait for each other. -/
def mailbox (transport : WebSocketTransport) : Mailbox Bytes :=
  ⟨transport.messageQueue, transport.waiters, transport.received⟩

variable (transport : WebSocketTransport)

theorem mailbox_onMessage (data : Bytes) :
    (transport.onMessage data).mailbox = transport.mailbox.deliver data := by
  cases transport with
  | mk ws url messageQueue waiters connected received => cases waiters <;> rfl

theorem mailbox_receive : transport.receive.mailbox = transport.mailbox.read := by
  cases transport with
  | mk ws url messageQueue waiters connected received => cases messageQueue <;> rfl

theorem mailbox_send {data : Bytes} {after : WebSocketTransport}
    (sent : transport.send data = .ok after) : after.mailbox = transport.mailbox := by
  rw [send] at sent
  split at sent
  · cases sent
  · split at sent
    · cases sent
    · obtain rfl := Except.ok.inj sent
      rfl

/-- The mailbox after an event. -/
theorem mailbox_next (event : Event) :
    (transport.next event).mailbox =
      match event with
      | .message data => transport.mailbox.deliver data
      | .receive => transport.mailbox.read
      | _ => transport.mailbox := by
  cases event with
  | message data => exact mailbox_onMessage transport data
  | receive => exact mailbox_receive transport
  | send data =>
      show ((transport.send data).toOption.getD transport).mailbox = transport.mailbox
      cases outcome : transport.send data with
      | error err => rfl
      | ok after => exact mailbox_send transport outcome
  | connect | opened | failed _ | close => rfl

/-- A transport holds what the messages and calls so far leave. -/
theorem holds_run (url : String) (events : List Event) :
    (events.foldl next (new url)).mailbox.Holds (messages events) (calls events) := by
  induction events using List.reverseRecOn with
  | nil => exact Mailbox.holds_empty
  | append_singleton events event inductionHypothesis =>
      rw [List.foldl_concat, mailbox_next, messages_concat, calls_concat]
      cases event with
      | message data => exact inductionHypothesis.deliver data
      | receive => simpa [Event.message?] using inductionHypothesis.read
      | connect | opened | failed _ | send _ | close =>
          simpa [Event.message?] using inductionHypothesis

end WebSocketTransport

/-! ### The client -/

/-- `FProtoClient`, as far as `connect`, `send`, `receive` and `close` use it. -/
structure FProtoClient where
  transport : Option WebSocketTransport
  serverUrl : String
  closed : Bool
deriving DecidableEq

namespace FProtoClient

/-- `new FProtoClient(config)`. -/
def new (serverUrl : String) : FProtoClient where
  transport := none
  serverUrl := serverUrl
  closed := false

/-- `connect()` until it awaits the transport. -/
def connect (client : FProtoClient) : FProtoClient :=
  { client with transport := some (WebSocketTransport.new client.serverUrl).connect }

/-- `connect()` after the transport's promise is resolved. -/
def afterConnect (client : FProtoClient) : FProtoClient :=
  { client with closed := false }

/-- The transport that `send` and `receive` use. -/
def openTransport (client : FProtoClient) : Except String WebSocketTransport :=
  match client.transport with
  | none => .error "Not connected"
  | some transport => if client.closed then .error "Not connected" else .ok transport

def send (client : FProtoClient) (data : Bytes) : Except String FProtoClient := do
  let transport ← client.openTransport
  let transport ← transport.send data
  return { client with transport := some transport }

def receive (client : FProtoClient) : Except String FProtoClient := do
  let transport ← client.openTransport
  return { client with transport := some transport.receive }

def close (client : FProtoClient) : FProtoClient :=
  { client with closed := true, transport := none }

/-- Calls of the client, and events of its transport's socket. -/
def next (client : FProtoClient) : Event → FProtoClient
  | .connect => client.connect
  | .opened =>
      afterConnect { client with transport := client.transport.map WebSocketTransport.onOpen }
  | .failed err => { client with transport := client.transport.map (·.onError err) }
  | .message data => { client with transport := client.transport.map (·.onMessage data) }
  | .send data => (client.send data).toOption.getD client
  | .receive => client.receive.toOption.getD client
  | .close => client.close

end FProtoClient

/-- What happens on a connection that is open. -/
inductive Traffic where
  | message (data : Bytes)
  | send (data : Bytes)
  | receive

def Traffic.event : Traffic → Event
  | .message data => .message data
  | .send data => .send data
  | .receive => .receive

/-- A client passes all traffic of an open connection on to its transport. -/
theorem FProtoClient.next_traffic (url : String) (transport : WebSocketTransport)
    (item : Traffic) :
    FProtoClient.next ⟨some transport, url, false⟩ item.event =
      ⟨some (transport.next item.event), url, false⟩ := by
  cases item with
  | message data => rfl
  | receive => rfl
  | send data =>
      show (Except.toOption (transport.send data >>= fun sent =>
          pure (FProtoClient.mk (some sent) url false))).getD _ =
        FProtoClient.mk (some ((transport.send data).toOption.getD transport)) url false
      cases transport.send data <;> rfl

theorem FProtoClient.run_traffic (url : String) (transport : WebSocketTransport)
    (traffic : List Traffic) :
    (traffic.map Traffic.event).foldl FProtoClient.next ⟨some transport, url, false⟩ =
      ⟨some ((traffic.map Traffic.event).foldl WebSocketTransport.next transport), url, false⟩ := by
  induction traffic generalizing transport with
  | nil => rfl
  | cons item traffic inductionHypothesis =>
      rw [List.map_cons, List.foldl_cons, next_traffic, inductionHypothesis]
      rfl

/-! ### First in, first out -/

/-- A transport is a FIFO between messages and `receive()` calls. -/
structure Fifo (transport : WebSocketTransport) (messages : List Bytes) (calls : Nat) : Prop where
  /-- Every call has a promise. -/
  made : transport.received.length = calls
  /-- A call whose message is there is resolved with it. -/
  resolved : ∀ index message, index < calls → messages[index]? = some message →
    transport.received[index]? = some (.fulfilled message)
  /-- Every other call waits. -/
  waiting : ∀ index, index < calls → messages.length ≤ index →
    transport.received[index]? = some .pending
  /-- Every message was given to one call or is queued. -/
  conserved : Promise.values transport.received ++ transport.messageQueue = messages
  exclusive : transport.messageQueue = [] ∨ transport.waiters = []

theorem fifo_of_holds {transport : WebSocketTransport} {messages : List Bytes} {calls : Nat}
    (holds : transport.mailbox.Holds messages calls) : Fifo transport messages calls := by
  have received : transport.received = Mailbox.answers messages calls := holds.promises
  refine ⟨?_, ?_, ?_, holds.values_append_queue, holds.exclusive⟩
  · rw [received, Mailbox.length_answers]
  · intro index message called there
    rw [received, Mailbox.getElem?_answers messages called, Mailbox.answer, there]
  · intro index called missing
    rw [received, Mailbox.getElem?_answers messages called, Mailbox.answer_of_le messages missing]

/-- For every interleaving of messages and calls, on a transport by itself and on that of
a client whose connection is open, the i-th `receive()` has the i-th message as soon as
both are there. -/
theorem receive_fifo (url : String) :
    (∀ events : List Event,
      Fifo (events.foldl WebSocketTransport.next (WebSocketTransport.new url))
        (messages events) (calls events)) ∧
    ∀ traffic : List Traffic, ∃ transport,
      ((traffic.map Traffic.event).foldl FProtoClient.next
        (((FProtoClient.new url).next .connect).next .opened)).transport = some transport ∧
      Fifo transport (messages (traffic.map Traffic.event)) (calls (traffic.map Traffic.event)) := by
  constructor
  · intro events
    exact fifo_of_holds (WebSocketTransport.holds_run url events)
  · intro traffic
    have ran := WebSocketTransport.holds_run url
      (.connect :: .opened :: traffic.map Traffic.event)
    refine ⟨_, ?_, fifo_of_holds ran⟩
    show ((traffic.map Traffic.event).foldl FProtoClient.next
      ⟨some (WebSocketTransport.new url).connect.onOpen, url, false⟩).transport = _
    rw [FProtoClient.run_traffic]
    rfl

end FProto.Sdk.TypeScript
