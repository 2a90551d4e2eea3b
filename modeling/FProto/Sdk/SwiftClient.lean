import FProto.Foundation.Bytes
import FProto.Foundation.Mailbox
import FProto.Foundation.Run

/-!
Owns the client of the Swift SDK: the critical sections of `receive` and
`handleMessage`, and the event handler that `connect` installs on the socket.

**Main results.** `receive` looks at the queue in one critical section and registers its
continuation in another. Messages are returned in order exactly when none is handled
between the two (`delivers_in_order_iff`). The handler resumes the continuation of
`connect` on every event that tells an outcome, for the whole life of the socket. It is
resumed once, and by the event that decides the attempt, exactly when that event tells an
outcome and no later one does (`resumed_once_iff`).

A registered continuation is the number of the `receive()` call that waits for it. Does
not own: the request and the socket, which is Starscream's, and `send` and `close`, which
touch neither the queue nor a continuation.
-/

namespace FProto.Sdk.Swift

open FProto.Foundation

/-- The fields that the handler and `receive` use. -/
structure FProtoClient where
  isConnected : Bool
  messageQueue : List Bytes
  continuations : List Nat
deriving DecidableEq

namespace FProtoClient

def new : FProtoClient := ⟨false, [], []⟩

/-- `handleMessage`: the client after it, and the continuation that it resumes with the
data. -/
def handleMessage (client : FProtoClient) (data : Bytes) : FProtoClient × Option Nat :=
  match client.continuations with
  | cont :: continuations => ({ client with continuations := continuations }, some cont)
  | [] => ({ client with messageQueue := client.messageQueue ++ [data] }, none)

/-- The first critical section of `receive`: take a message from the queue. -/
def takeMessage (client : FProtoClient) : FProtoClient × Option Bytes :=
  match client.messageQueue with
  | data :: messageQueue => ({ client with messageQueue := messageQueue }, some data)
  | [] => (client, none)

/-- The second critical section of `receive`: register a continuation. -/
def register (client : FProtoClient) (continuation : Nat) : FProtoClient :=
  { client with continuations := client.continuations ++ [continuation] }

end FProtoClient

/-! ### One caller that receives again and again -/

/-- Where the caller is. -/
inductive Caller where
  /-- At the start of `receive()`. -/
  | starting
  /-- Between the section that found no message and the one that registers. -/
  | between
  /-- Suspended until its continuation is resumed. -/
  | waiting
deriving DecidableEq

/-- A client, its caller, and what the calls of `receive()` have returned. -/
structure System where
  client : FProtoClient
  caller : Caller
  returned : List Bytes
deriving DecidableEq

inductive Event where
  /-- `handleMessage` runs. -/
  | message (data : Bytes)
  /-- The caller runs its next critical section. -/
  | caller
deriving DecidableEq

namespace System

def new : System := ⟨FProtoClient.new, .starting, []⟩

/-- The current call returns, and the caller makes the next one. -/
def finish (system : System) (client : FProtoClient) (data : Bytes) : System :=
  ⟨client, .starting, system.returned ++ [data]⟩

def next (system : System) : Event → System
  | .message data =>
      match system.client.handleMessage data with
      | (client, some _) => system.finish client data
      | (client, none) => { system with client := client }
  | .caller =>
      match system.caller with
      | .starting =>
          match system.client.takeMessage with
          | (client, some data) => system.finish client data
          | (client, none) => { system with client := client, caller := .between }
      | .between =>
          { system with
            client := system.client.register system.returned.length
            caller := .waiting }
      | .waiting => system

end System

def Event.message? : Event → Option Bytes
  | .message data => some data
  | .caller => none

/-- The messages handled, in order. -/
def messages (schedule : List Event) : List Bytes :=
  schedule.filterMap Event.message?

/-- The system after a schedule. -/
def after (schedule : List Event) : System :=
  schedule.foldl System.next System.new

theorem after_concat (schedule : List Event) (event : Event) :
    after (schedule ++ [event]) = (after schedule).next event := by
  rw [after, List.foldl_concat]
  rfl

theorem messages_concat (schedule : List Event) (event : Event) :
    messages (schedule ++ [event]) = messages schedule ++ event.message?.toList :=
  filterMap_concat Event.message? schedule event

/-! ### Invariants -/

namespace System

/-- Only a caller that waits has a continuation registered. -/
def Registered (system : System) : Prop :=
  system.client.continuations =
    match system.caller with
    | .waiting => [system.returned.length]
    | _ => []

/-- The messages were returned in order, and nobody waits while one is queued. -/
structure InOrder (system : System) (messages : List Bytes) : Prop where
  returned : system.returned <+: messages
  noneQueued : system.caller = .waiting → system.client.messageQueue = []

/-- Every message was returned or is queued, and nobody waits while one is. -/
structure Conserves (system : System) (messages : List Bytes) : Prop where
  all : system.returned ++ system.client.messageQueue = messages
  noneQueued : system.caller = .waiting → system.client.messageQueue = []

theorem Conserves.inOrder {system : System} {messages : List Bytes}
    (conserves : system.Conserves messages) : system.InOrder messages :=
  ⟨⟨_, conserves.all⟩, conserves.noneQueued⟩

theorem Registered.next {system : System} (registered : system.Registered) (event : Event) :
    (system.next event).Registered := by
  rcases system with ⟨⟨isConnected, messageQueue, continuations⟩, caller, returned⟩
  cases event with
  | message data =>
      cases caller with
      | starting | between =>
          obtain rfl : continuations = [] := registered
          rfl
      | waiting =>
          obtain rfl : continuations = [returned.length] := registered
          rfl
  | caller =>
      cases caller with
      | starting => cases messageQueue <;> exact registered
      | between =>
          obtain rfl : continuations = [] := registered
          rfl
      | waiting => exact registered

/-- A step keeps all messages, unless it registers the caller while one is queued. -/
theorem Conserves.next {system : System} {messages : List Bytes} {event : Event}
    (registered : system.Registered) (conserves : system.Conserves messages)
    (noWindow : event = .caller → system.caller = .between → system.client.messageQueue = []) :
    (system.next event).Conserves (messages ++ event.message?.toList) := by
  obtain ⟨all, noneQueued⟩ := conserves
  rcases system with ⟨⟨isConnected, messageQueue, continuations⟩, caller, returned⟩
  subst all
  cases event with
  | message data =>
      cases caller with
      | starting | between =>
          obtain rfl : continuations = [] := registered
          refine ⟨?_, fun waiting => by cases waiting⟩
          simp [System.next, FProtoClient.handleMessage, Event.message?]
      | waiting =>
          obtain rfl : continuations = [returned.length] := registered
          obtain rfl : messageQueue = [] := noneQueued rfl
          exact ⟨by simp [System.next, FProtoClient.handleMessage, finish, Event.message?],
            fun waiting => by cases waiting⟩
  | caller =>
      simp only [Event.message?, Option.toList_none, List.append_nil]
      cases caller with
      | starting =>
          cases messageQueue with
          | nil => exact ⟨rfl, fun waiting => by cases waiting⟩
          | cons data messageQueue =>
              refine ⟨?_, fun waiting => by cases waiting⟩
              simp [System.next, FProtoClient.takeMessage, finish]
      | between => exact ⟨rfl, fun _ => noWindow rfl rfl⟩
      | waiting => exact ⟨rfl, noneQueued⟩

/-- The caller is between its sections because it has just found the queue empty, or
because it was there when a message was handled. -/
theorem between_next {system : System} {event : Event}
    (isBetween : (system.next event).caller = .between) :
    (system.next event).client.messageQueue = [] ∨
      ∃ data, event = .message data ∧ system.caller = .between := by
  rcases system with ⟨⟨isConnected, messageQueue, continuations⟩, caller, returned⟩
  cases event with
  | message data =>
      cases continuations with
      | nil => exact .inr ⟨data, rfl, isBetween⟩
      | cons cont continuations => cases isBetween
  | caller =>
      cases caller with
      | starting =>
          cases messageQueue with
          | nil => exact .inl rfl
          | cons data messageQueue => cases isBetween
      | between => cases isBetween
      | waiting => cases isBetween

/-- A message that is handled between the sections is still queued when the caller
waits. -/
theorem next_window {system : System} (registered : system.Registered)
    (isBetween : system.caller = .between) (data : Bytes) :
    ((system.next (.message data)).next .caller).caller = .waiting ∧
      ((system.next (.message data)).next .caller).client.messageQueue =
        system.client.messageQueue ++ [data] := by
  rcases system with ⟨⟨isConnected, messageQueue, continuations⟩, caller, returned⟩
  obtain rfl : caller = .between := isBetween
  obtain rfl : continuations = [] := registered
  exact ⟨rfl, rfl⟩

end System

theorem registered_after (schedule : List Event) : (after schedule).Registered := by
  induction schedule using List.reverseRecOn with
  | nil => rfl
  | append_singleton schedule event inductionHypothesis =>
      rw [after_concat]
      exact inductionHypothesis.next event

/-! ### Order -/

/-- No message is handled between the two sections of a `receive()`. -/
def NoWindow (schedule : List Event) : Prop :=
  ∀ before data, before ++ [.message data, .caller] <+: schedule →
    (after before).caller ≠ .between

/-- The caller registers only while nothing is queued. -/
theorem noneQueued_of_noWindow {schedule : List Event}
    (noWindow : NoWindow (schedule ++ [.caller]))
    (isBetween : (after schedule).caller = .between) :
    (after schedule).client.messageQueue = [] := by
  rcases List.eq_nil_or_concat schedule with rfl | ⟨before, event, rfl⟩
  · rfl
  · rw [List.concat_eq_append] at *
    rw [after_concat] at isBetween ⊢
    rcases System.between_next isBetween with nothing | ⟨data, rfl, wasBetween⟩
    · exact nothing
    · refine absurd wasBetween (noWindow before data ?_)
      rw [List.append_assoc]
      exact List.prefix_rfl

theorem conserves_after {schedule : List Event} (noWindow : NoWindow schedule) :
    (after schedule).Conserves (messages schedule) := by
  induction schedule using List.reverseRecOn with
  | nil => exact ⟨rfl, fun _ => rfl⟩
  | append_singleton schedule event inductionHypothesis =>
      have early : NoWindow schedule := by
        intro before data isPast
        exact noWindow before data (isPast.trans (List.prefix_append _ _))
      rw [after_concat, messages_concat]
      refine (inductionHypothesis early).next (registered_after schedule) ?_
      rintro rfl
      exact noneQueued_of_noWindow noWindow

/-- For every interleaving of messages with the critical sections of a caller: at all
times the messages were returned in order and nobody waits while one is queued, if and
only if no message is handled between the two sections of a `receive()`. -/
theorem delivers_in_order_iff (schedule : List Event) :
    (∀ past, past <+: schedule → (after past).InOrder (messages past)) ↔
      ∀ before data, before ++ [.message data, .caller] <+: schedule →
        (after before).caller ≠ .between := by
  constructor
  · intro inOrder before data isPast isBetween
    have noneQueued := (inOrder _ isPast).noneQueued
    rw [List.append_cons, after_concat, after_concat] at noneQueued
    obtain ⟨waiting, queued⟩ := System.next_window (registered_after before) isBetween data
    rw [noneQueued waiting] at queued
    simp at queued
  · intro noWindow past isPast
    have early : NoWindow past := by
      intro before data isEarlier
      exact noWindow before data (isEarlier.trans isPast)
    exact (conserves_after early).inOrder

/-- The first message comes between the sections. The caller then waits with the message
queued, and its first `receive()` returns the second message. -/
theorem second_message_first :
    ¬∀ past, past <+: [.caller, .message [1], .caller, .message [2]] →
      (after past).InOrder (messages past) := by
  intro inOrder
  have returned := (inOrder _ List.prefix_rfl).returned
  revert returned
  decide

/-! ### The handler of `connect` -/

/-- The events of the socket. -/
inductive WebSocketEvent where
  | connected
  | disconnected (reason : String) (code : Nat)
  | text (string : String)
  | binary (data : Bytes)
  | error (cause : Option String)
  /-- An event that the handler has no case for. -/
  | unhandled
deriving DecidableEq

/-- The continuation of `connect()` is resumed. A second time is a fatal error. -/
def resume (result : Promise Unit) : Promise Unit → Option (Promise Unit)
  | .pending => some result
  | _ => none

/-- What the handler captures: the client, unless it has been released, and the
continuation of `connect()`. -/
structure Attempt where
  self : Option FProtoClient
  continuation : Promise Unit
deriving DecidableEq

/-- The handler; `none` after a fatal error. -/
def onEvent (attempt : Attempt) (event : WebSocketEvent) : Option Attempt :=
  match attempt.self with
  | none => some attempt
  | some self =>
      match event with
      | .connected =>
          (resume (.fulfilled ()) attempt.continuation).map fun continuation =>
            ⟨some { self with isConnected := true }, continuation⟩
      | .binary data => some { attempt with self := some (self.handleMessage data).1 }
      | .text text => some { attempt with self := some (self.handleMessage (utf8 text)).1 }
      | .disconnected _ _ => some { attempt with self := some { self with isConnected := false } }
      | .error none => some { attempt with self := some { self with isConnected := false } }
      | .error (some cause) =>
          (resume (.rejected cause) attempt.continuation).map fun continuation =>
            ⟨some { self with isConnected := false }, continuation⟩
      | .unhandled => some attempt

/-- The events that decide the attempt. -/
def WebSocketEvent.decides : WebSocketEvent → Bool
  | .connected | .disconnected _ _ | .error _ => true
  | _ => false

/-- The events that tell an outcome: the connection is made, or an error value. -/
def WebSocketEvent.outcome : WebSocketEvent → Option (Promise Unit)
  | .connected => some (.fulfilled ())
  | .error (some cause) => some (.rejected cause)
  | _ => none

theorem WebSocketEvent.decides_of_outcome {event : WebSocketEvent} (told : event.outcome ≠ none) :
    event.decides = true := by
  cases event with
  | connected | error _ => rfl
  | disconnected _ _ | text _ | binary _ | unhandled => exact absurd rfl told

theorem WebSocketEvent.outcome_ne_pending (event : WebSocketEvent) :
    event.outcome ≠ some .pending := by
  cases event with
  | error cause => cases cause <;> simp [outcome]
  | connected | disconnected _ _ | text _ | binary _ | unhandled => simp [outcome]

/-- An event with an outcome resumes the continuation; any other leaves it alone. -/
theorem onEvent_eq (self : FProtoClient) (continuation : Promise Unit) (event : WebSocketEvent) :
    ∃ client, onEvent ⟨some self, continuation⟩ event =
      match event.outcome with
      | some result => (resume result continuation).map (⟨some client, ·⟩)
      | none => some ⟨some client, continuation⟩ := by
  cases event with
  | error cause => cases cause <;> exact ⟨_, rfl⟩
  | connected | disconnected _ _ | text _ | binary _ | unhandled => exact ⟨_, rfl⟩

theorem onEvent_of_quiet (self : FProtoClient) (continuation : Promise Unit)
    {event : WebSocketEvent} (quiet : event.outcome = none) :
    ∃ client, onEvent ⟨some self, continuation⟩ event = some ⟨some client, continuation⟩ := by
  obtain ⟨client, stepped⟩ := onEvent_eq self continuation event
  rw [quiet] at stepped
  exact ⟨client, stepped⟩

/-- The first outcome resumes the continuation. -/
theorem onEvent_of_pending (self : FProtoClient) {event : WebSocketEvent}
    (told : event.outcome ≠ none) :
    ∃ client result, onEvent ⟨some self, .pending⟩ event = some ⟨some client, result⟩ ∧
      result ≠ .pending := by
  obtain ⟨client, stepped⟩ := onEvent_eq self .pending event
  obtain ⟨result, outcome⟩ := Option.ne_none_iff_exists'.mp told
  rw [outcome] at stepped
  refine ⟨client, result, stepped, ?_⟩
  rintro rfl
  exact event.outcome_ne_pending outcome

/-- Another outcome is fatal. -/
theorem onEvent_of_resumed (self : FProtoClient) {continuation : Promise Unit}
    (resumed : continuation ≠ .pending) {event : WebSocketEvent} (told : event.outcome ≠ none) :
    onEvent ⟨some self, continuation⟩ event = none := by
  obtain ⟨client, stepped⟩ := onEvent_eq self continuation event
  obtain ⟨result, outcome⟩ := Option.ne_none_iff_exists'.mp told
  rw [outcome] at stepped
  rw [stepped]
  cases continuation with
  | pending => exact absurd rfl resumed
  | fulfilled _ | rejected _ => rfl

theorem run_of_quiet {events : List WebSocketEvent}
    (quiet : ∀ event ∈ events, event.outcome = none) (self : FProtoClient)
    (continuation : Promise Unit) :
    ∃ client, run onEvent ⟨some self, continuation⟩ events =
      some ⟨some client, continuation⟩ := by
  induction events generalizing self with
  | nil => exact ⟨self, rfl⟩
  | cons event events inductionHypothesis =>
      obtain ⟨client, stepped⟩ :=
        onEvent_of_quiet self continuation (quiet event List.mem_cons_self)
      rw [run_cons_of_next stepped]
      exact inductionHypothesis (fun other member => quiet other (List.mem_cons_of_mem _ member))
        client

/-- Once the continuation is resumed, an event with an outcome is fatal. -/
theorem quiet_of_run {events : List WebSocketEvent} {self : FProtoClient}
    {continuation : Promise Unit} (resumed : continuation ≠ .pending) {final : Attempt}
    (ran : run onEvent ⟨some self, continuation⟩ events = some final) :
    ∀ event ∈ events, event.outcome = none := by
  induction events generalizing self with
  | nil => simp
  | cons event events inductionHypothesis =>
      obtain ⟨middle, stepped, rest⟩ := run_cons ran
      have quiet : event.outcome = none := by
        by_contra told
        rw [onEvent_of_resumed self resumed told] at stepped
        cases stepped
      obtain ⟨client, kept⟩ := onEvent_of_quiet self continuation quiet
      obtain rfl := Option.some.inj (kept.symm.trans stepped)
      exact List.forall_mem_cons.mpr ⟨quiet, inductionHypothesis rest⟩

/-- The continuation is never resumed twice, and the first event that decides the attempt
resumes it. -/
structure ResumedOnce (client : FProtoClient) (events : List WebSocketEvent) : Prop where
  notTwice : run onEvent ⟨some client, .pending⟩ events ≠ none
  byDeciding : ∀ before event later, events = before ++ event :: later →
    (∀ other ∈ before, other.decides = false) → event.decides = true →
    ∃ early late, run onEvent ⟨some client, .pending⟩ before = some early ∧
      early.continuation = .pending ∧ onEvent early event = some late ∧
      late.continuation ≠ .pending

/-- Before an event decides the attempt, the continuation is pending. -/
theorem run_undecided {before : List WebSocketEvent}
    (undecided : ∀ other ∈ before, other.decides = false) (client : FProtoClient) :
    ∃ early, run onEvent ⟨some client, .pending⟩ before = some ⟨some early, .pending⟩ := by
  apply run_of_quiet
  intro event member
  by_contra told
  have decides := WebSocketEvent.decides_of_outcome told
  rw [undecided event member] at decides
  cases decides

/-- The first deciding event resumes the continuation if it tells an outcome. -/
theorem run_decided {before : List WebSocketEvent} {event : WebSocketEvent}
    (undecided : ∀ other ∈ before, other.decides = false) (told : event.outcome ≠ none)
    (client : FProtoClient) :
    ∃ early late result, run onEvent ⟨some client, .pending⟩ before = some ⟨some early, .pending⟩ ∧
      onEvent ⟨some early, .pending⟩ event = some ⟨some late, result⟩ ∧ result ≠ .pending ∧
      ∀ later, run onEvent ⟨some client, .pending⟩ (before ++ event :: later) =
        run onEvent ⟨some late, result⟩ later := by
  obtain ⟨early, ran⟩ := run_undecided undecided client
  obtain ⟨late, result, stepped, settled⟩ := onEvent_of_pending early told
  refine ⟨early, late, result, ran, stepped, settled, fun later => ?_⟩
  rw [run_append, ran, Option.bind_some, run_cons_of_next stepped]

/-- The events are decided by an outcome, and no other outcome follows. -/
def ToldOnce (events : List WebSocketEvent) : Prop :=
  ∀ before event later, events = before ++ event :: later →
    (∀ other ∈ before, other.decides = false) → event.decides = true →
    event.outcome ≠ none ∧ ∀ other ∈ later, other.outcome = none

theorem notTwice_of_toldOnce {events : List WebSocketEvent} (told : ToldOnce events)
    (client : FProtoClient) : run onEvent ⟨some client, .pending⟩ events ≠ none := by
  cases first : events.find? WebSocketEvent.decides with
  | none =>
      -- Nothing decides the attempt, so nothing resumes the continuation.
      have undecided : ∀ other ∈ events, other.decides = false := by
        simpa using first
      obtain ⟨early, ran⟩ := run_undecided undecided client
      rw [ran]
      simp
  | some event =>
      obtain ⟨decides, before, later, isEvents, notYet⟩ :=
        List.find?_eq_some_iff_append.mp first
      have undecided : ∀ other ∈ before, other.decides = false := by
        simpa using notYet
      obtain ⟨outcome, quiet⟩ := told before event later isEvents undecided decides
      obtain ⟨_, late, result, _, _, _, runs⟩ := run_decided undecided outcome client
      obtain ⟨final, rest⟩ := run_of_quiet quiet late result
      rw [isEvents, runs, rest]
      simp

/-- For every sequence of events: the continuation of `connect()` is resumed at most once,
and by the first event that decides the attempt, if and only if that event tells an
outcome and no later event does. -/
theorem resumed_once_iff (client : FProtoClient) (events : List WebSocketEvent) :
    ResumedOnce client events ↔
      ∀ before event later, events = before ++ event :: later →
        (∀ other ∈ before, other.decides = false) → event.decides = true →
        event.outcome ≠ none ∧ ∀ other ∈ later, other.outcome = none := by
  constructor
  · intro once before event later isEvents undecided decides
    have outcome : event.outcome ≠ none := by
      intro quiet
      obtain ⟨early, late, ran, _, stepped, resumed⟩ :=
        once.byDeciding before event later isEvents undecided decides
      obtain ⟨middle, isMiddle⟩ := run_undecided undecided client
      obtain rfl := Option.some.inj (isMiddle.symm.trans ran)
      obtain ⟨kept, isKept⟩ := onEvent_of_quiet middle .pending quiet
      obtain rfl := Option.some.inj (isKept.symm.trans stepped)
      exact resumed rfl
    obtain ⟨_, late, result, _, _, settled, runs⟩ := run_decided undecided outcome client
    obtain ⟨final, ran⟩ := Option.ne_none_iff_exists'.mp once.notTwice
    rw [isEvents, runs] at ran
    exact ⟨outcome, quiet_of_run settled ran⟩
  · intro told
    refine ⟨notTwice_of_toldOnce told client, ?_⟩
    intro before event later isEvents undecided decides
    obtain ⟨outcome, _⟩ := told before event later isEvents undecided decides
    obtain ⟨early, late, result, ran, stepped, settled, _⟩ :=
      run_decided undecided outcome client
    exact ⟨_, _, ran, rfl, stepped, settled⟩

/-- An error after the connection is made resumes the continuation a second time. -/
theorem error_after_connected_fatal :
    ¬ResumedOnce FProtoClient.new [.connected, .error (some "connection reset by peer")] := by
  intro once
  exact once.notTwice rfl

end FProto.Sdk.Swift
