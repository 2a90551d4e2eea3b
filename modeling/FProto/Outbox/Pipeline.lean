import FProto.Foundation.Execution
import FProto.Kafka.Topics
import FProto.Outbox.Store
import FProto.Protocol.AppMessage

/-!
Owns the commands that the gateway, the dispatcher and the outbox relay issue
on the way of a message to Kafka, and their effect on the shared state: the
outbox table, the topic logs, the RPC messages in flight between gateway and
dispatcher, and what the gateway wrote to its clients.

Every command may fail. A failed database call has no effect. A failed send may
or may not have appended its record. An RPC may fail at either end after the
dispatcher has acted.
-/

namespace FProto.Outbox

open FProto.Foundation
open FProto.Protocol
open FProto.Kafka

structure DispatchRequest where
  sessionId : Slice
  senderId : Slice
  message : Option AppMessage
deriving DecidableEq

structure DispatchResponse where
  success : Bool
  ackMessageId : Slice
deriving DecidableEq

/-- The gRPC codes the dispatcher answers with, and the one for a lost call. -/
inductive RpcCode where
  | invalidArgument
  | internal
  | unavailable
deriving DecidableEq

structure RpcError where
  code : RpcCode
  message : String
deriving DecidableEq

/-- What the gateway writes to a client, before encryption. -/
inductive ClientMessage where
  | ack (message : AppMessage)
  | echo (text : Bytes)
deriving DecidableEq

inductive Command where
  | insert (entry : NewEntry)
  | fetchPending (limit : Nat)
  | markPublished (id : Nat)
  | markFailed (id : Nat)
  | incrementRetry (id : Nat)
  | send (topic : Bytes) (key : Slice) (value : Bytes)
  | request (request : DispatchRequest)
  | respond (rpc : Nat) (answer : Except RpcError DispatchResponse)
  | await (rpc : Nat)
  | writeMessage (message : ClientMessage)

abbrev Reply : Command → Type
  | .insert _ => Except String Unit
  | .fetchPending _ => Except String (List Entry)
  | .markPublished _ => Except String Unit
  | .markFailed _ => Except String Unit
  | .incrementRetry _ => Except String Unit
  | .send _ _ _ => Except String Unit
  | .request _ => Except RpcError Nat
  | .respond _ _ => Unit
  | .await _ => Except RpcError DispatchResponse
  | .writeMessage _ => Except String Unit

/-- The shared state. Requests and responses are never taken back, so a reply
may be late, be read more than once, or never be read. -/
structure State where
  outbox : Table
  log : Bytes → List Record
  requests : List DispatchRequest
  responses : List (Nat × Except RpcError DispatchResponse)
  written : List ClientMessage

def State.initial : State where
  outbox := SerialTable.empty
  log := fun _ => []
  requests := []
  responses := []
  written := []

/-- What the environment decides about one command. -/
inductive Choice where
  | ok (now : Nat)
  | fail (error : String)
  | failAppended (error : String)
  | fetched (order : List Entry)
  | received (position : Nat)
deriving DecidableEq

/-- Append a record to the log of a topic. -/
def appendRecord (log : Bytes → List Record) (topic : Bytes) (record : Record) :
    Bytes → List Record :=
  fun other => if other = topic then log topic ++ [record] else log other

def exec : (command : Command) → Choice → State → Option (Reply command × State)
  | .insert entry, .ok now, state =>
      match insert state.outbox now entry with
      | .error error => some (.error error, state)
      | .ok outbox => some (.ok (), { state with outbox })
  | .insert _, .fail error, state => some (.error error, state)
  | .fetchPending limit, .fetched order, state =>
      if IsPendingOrder state.outbox order then some (.ok (order.take limit), state) else none
  | .fetchPending _, .fail error, state => some (.error error, state)
  | .markPublished id, .ok now, state =>
      some (.ok (), { state with outbox := markPublished state.outbox now id })
  | .markPublished _, .fail error, state => some (.error error, state)
  | .markFailed id, .ok _, state =>
      some (.ok (), { state with outbox := markFailed state.outbox id })
  | .markFailed _, .fail error, state => some (.error error, state)
  | .incrementRetry id, .ok _, state =>
      some (.ok (), { state with outbox := incrementRetry state.outbox id })
  | .incrementRetry _, .fail error, state => some (.error error, state)
  | .send topic key value, .ok _, state =>
      some (.ok (), { state with log := appendRecord state.log topic ⟨key, value⟩ })
  | .send topic key value, .failAppended error, state =>
      some (.error error, { state with log := appendRecord state.log topic ⟨key, value⟩ })
  | .send _ _ _, .fail error, state => some (.error error, state)
  | .request request, .ok _, state =>
      some (.ok state.requests.length, { state with requests := state.requests ++ [request] })
  | .request _, .fail error, state => some (.error ⟨.unavailable, error⟩, state)
  | .respond rpc answer, .ok _, state =>
      some ((), { state with responses := state.responses ++ [(rpc, answer)] })
  | .respond _ _, .fail _, state => some ((), state)
  | .await rpc, .received position, state =>
      match state.responses[position]? with
      | some (answered, answer) => if answered = rpc then some (answer, state) else none
      | none => none
  | .await _, .fail error, state => some (.error ⟨.unavailable, error⟩, state)
  | .writeMessage message, .ok _, state =>
      some (.ok (), { state with written := state.written ++ [message] })
  | .writeMessage _, .fail error, state => some (.error error, state)
  | _, _, _ => none

/-! ### What a command can do -/

theorem mem_appendRecord {log : Bytes → List Record} {topic : Bytes} {record : Record}
    {other : Bytes} {present : Record} (member : present ∈ log other) :
    present ∈ appendRecord log topic record other := by
  unfold appendRecord
  split
  · next same =>
    subst same
    exact List.mem_append_left _ member
  · exact member

theorem mem_appendRecord_self (log : Bytes → List Record) (topic : Bytes) (record : Record) :
    record ∈ appendRecord log topic record topic := by
  simp [appendRecord]

/-- Everything a command can do to the state. -/
inductive Effect (state : State) : Command → State → Prop where
  | unchanged (command : Command) : Effect state command state
  | inserted {entry : NewEntry} {now : Nat} {outbox : Table}
      (accepted : insert state.outbox now entry = .ok outbox) :
      Effect state (.insert entry) { state with outbox }
  | published (id now : Nat) :
      Effect state (.markPublished id)
        { state with outbox := markPublished state.outbox now id }
  | failed (id : Nat) :
      Effect state (.markFailed id) { state with outbox := markFailed state.outbox id }
  | retried (id : Nat) :
      Effect state (.incrementRetry id)
        { state with outbox := incrementRetry state.outbox id }
  | appended (topic : Bytes) (key : Slice) (value : Bytes) :
      Effect state (.send topic key value)
        { state with log := appendRecord state.log topic ⟨key, value⟩ }
  | requested (request : DispatchRequest) :
      Effect state (.request request) { state with requests := state.requests ++ [request] }
  | responded (rpc : Nat) (answer : Except RpcError DispatchResponse) :
      Effect state (.respond rpc answer)
        { state with responses := state.responses ++ [(rpc, answer)] }
  | written (message : ClientMessage) :
      Effect state (.writeMessage message) { state with written := state.written ++ [message] }

theorem exec_effect {command : Command} {choice : Choice} {state after : State}
    {reply : Reply command} (executed : exec command choice state = some (reply, after)) :
    Effect state command after := by
  cases command with
  | insert entry =>
      cases choice with
      | ok now =>
          simp only [exec] at executed
          split at executed
          · cases executed; exact .unchanged _
          · next accepted => cases executed; exact .inserted accepted
      | fail error => cases executed; exact .unchanged _
      | _ => cases executed
  | fetchPending limit =>
      cases choice with
      | fetched order =>
          simp only [exec] at executed
          split at executed
          · cases executed; exact .unchanged _
          · cases executed
      | fail error => cases executed; exact .unchanged _
      | _ => cases executed
  | markPublished id =>
      cases choice with
      | ok now => cases executed; exact .published id now
      | fail error => cases executed; exact .unchanged _
      | _ => cases executed
  | markFailed id =>
      cases choice with
      | ok now => cases executed; exact .failed id
      | fail error => cases executed; exact .unchanged _
      | _ => cases executed
  | incrementRetry id =>
      cases choice with
      | ok now => cases executed; exact .retried id
      | fail error => cases executed; exact .unchanged _
      | _ => cases executed
  | send topic key value =>
      cases choice with
      | ok now => cases executed; exact .appended topic key value
      | failAppended error => cases executed; exact .appended topic key value
      | fail error => cases executed; exact .unchanged _
      | _ => cases executed
  | request request =>
      cases choice with
      | ok now => cases executed; exact .requested request
      | fail error => cases executed; exact .unchanged _
      | _ => cases executed
  | respond rpc answer =>
      cases choice with
      | ok now => cases executed; exact .responded rpc answer
      | fail error => cases executed; exact .unchanged _
      | _ => cases executed
  | await rpc =>
      cases choice with
      | received position =>
          simp only [exec] at executed
          split at executed
          · split at executed
            · cases executed; exact .unchanged _
            · cases executed
          · cases executed
      | fail error => cases executed; exact .unchanged _
      | _ => cases executed
  | writeMessage message =>
      cases choice with
      | ok now => cases executed; exact .written message
      | fail error => cases executed; exact .unchanged _
      | _ => cases executed

/-- A send that succeeds has appended its record. -/
theorem exec_send_ok {topic : Bytes} {key : Slice} {value : Bytes} {choice : Choice}
    {state after : State}
    (executed : exec (.send topic key value) choice state = some (.ok (), after)) :
    ⟨key, value⟩ ∈ after.log topic := by
  cases choice with
  | ok now =>
      cases executed
      exact mem_appendRecord_self _ _ _
  | _ => cases executed

/-- An insert that succeeds was accepted by the table. -/
theorem exec_insert_ok {entry : NewEntry} {choice : Choice} {state after : State}
    (executed : exec (.insert entry) choice state = some (.ok (), after)) :
    ∃ now, insert state.outbox now entry = .ok after.outbox := by
  cases choice with
  | ok now =>
      simp only [exec] at executed
      split at executed
      · cases executed
      · next accepted =>
        cases executed
        exact ⟨now, accepted⟩
  | _ => cases executed

/-- Fetched entries are rows of the table. -/
theorem exec_fetchPending_ok {limit : Nat} {choice : Choice} {state after : State}
    {entries : List Entry}
    (executed : exec (.fetchPending limit) choice state = some (.ok entries, after)) :
    after = state ∧ ∃ order, IsPendingOrder state.outbox order ∧ entries = order.take limit := by
  cases choice with
  | fetched order =>
      simp only [exec] at executed
      split at executed
      · next isOrder =>
        cases executed
        exact ⟨rfl, order, isOrder, rfl⟩
      · cases executed
  | _ => cases executed

/-- An answer that arrives was sent. -/
theorem exec_await_ok {rpc : Nat} {choice : Choice} {state after : State}
    {response : DispatchResponse}
    (executed : exec (.await rpc) choice state = some (.ok response, after)) :
    after = state ∧ (rpc, .ok response) ∈ state.responses := by
  cases choice with
  | received position =>
      simp only [exec] at executed
      split at executed
      · next answered answer located =>
        split at executed
        · next same =>
          cases executed
          exact ⟨rfl, same ▸ List.mem_of_getElem? located⟩
        · cases executed
      · cases executed
  | _ => cases executed

/-- The programs of the pipeline. -/
abbrev Code (Result : Type) := Program Command Reply Result

/-- What a program executed. -/
abbrev Log := List (Executed Command Reply)

/-! ### The calls of the Go stores, clients and connections -/

namespace Store

def insert (entry : NewEntry) : Code (Except String Unit) :=
  Program.issue (Command.insert entry)

def fetchPending (limit : Nat) : Code (Except String (List Entry)) :=
  Program.issue (Command.fetchPending limit)

def markPublished (id : Nat) : Code (Except String Unit) :=
  Program.issue (Command.markPublished id)

def markFailed (id : Nat) : Code (Except String Unit) :=
  Program.issue (Command.markFailed id)

def incrementRetry (id : Nat) : Code (Except String Unit) :=
  Program.issue (Command.incrementRetry id)

end Store

/-- `Producer.Send`; partition and offset are not used by any caller. -/
def Producer.send (topic : Bytes) (key : Slice) (value : Bytes) : Code (Except String Unit) :=
  Program.issue (Command.send topic key value)

/-- `DispatcherServiceClient.Dispatch`: send the request and wait for the answer. -/
def DispatcherServiceClient.dispatch (request : DispatchRequest) :
    Code (Except RpcError DispatchResponse) := do
  match ← (Program.issue (Command.request request) : Code (Except RpcError Nat)) with
  | .error error => return .error error
  | .ok rpc => Program.issue (Command.await rpc)

/-- `Conn.WriteMessage` of the encrypted message. -/
def Conn.writeMessage (message : ClientMessage) : Code (Except String Unit) :=
  Program.issue (Command.writeMessage message)

end FProto.Outbox
