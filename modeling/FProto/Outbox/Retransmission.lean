import FProto.Outbox.NoLoss

/-!
Owns what happens to a message that is dispatched again after it was accepted, for
example because the acknowledgement was lost.

`message_id` is unique in the outbox and `Insert` has no conflict clause, so the
second insert is refused and the refusal is passed on as an error of the call. The
row of an accepted message stays for good, so no later `Dispatch` of the same message
succeeds and no gateway acknowledges it, however the calls interleave.
-/

namespace FProto.Outbox

open FProto.Foundation
open FProto.Protocol
open FProto.Dispatcher

/-! ### One dispatch -/

/-- The outbox has a row with the message id. -/
def State.Holds (state : State) (id : Bytes) : Prop :=
  ∃ row ∈ state.outbox.rows, row.messageId = id

theorem State.Holds.evolve {before after : State} {id : Bytes} (holds : before.Holds id)
    (evolves : before.Evolves after) : after.Holds id := by
  obtain ⟨row, member, isId⟩ := holds
  obtain ⟨kept, keptMember, same⟩ := evolves.rows row member
  exact ⟨kept, keptMember, same.messageId ▸ isId⟩

/-- `UNIQUE` refuses a second row. -/
theorem insert_of_holds {state : State} {id key : Bytes} (holds : state.Holds id)
    {entry : NewEntry} (isId : entry.messageId = some id) (hasKey : entry.partitionKey = some key)
    (now : Nat) :
    insert state.outbox now entry =
      .error "duplicate key value violates unique constraint \"outbox_message_id_key\"" := by
  obtain ⟨row, member, rowId⟩ := holds
  have present : id ∈ state.outbox.rows.map Entry.messageId := List.mem_map.mpr ⟨row, member, rowId⟩
  rw [insert, isId, hasKey]
  exact dif_pos present

/-- An insert that succeeds is of an id the outbox did not have. -/
theorem messageId_ne_of_insert_ok {state after : State} {id : Bytes} (holds : state.Holds id)
    {entry : NewEntry} {choice : Choice}
    (executed : exec (.insert entry) choice state = some (.ok (), after)) :
    entry.messageId ≠ some id := by
  intro isId
  obtain ⟨now, inserted⟩ := exec_insert_ok executed
  obtain ⟨_, -, -, -, -, hasKey, -⟩ := insert_ok inserted
  rw [insert_of_holds holds isId hasKey] at inserted
  cases inserted

theorem exec_insert_error {entry : NewEntry} {choice : Choice} {state after : State}
    {error : String} (executed : exec (.insert entry) choice state = some (.error error, after)) :
    after = state := by
  cases choice with
  | ok now =>
      simp only [exec] at executed
      split at executed
      · cases executed
        rfl
      · cases executed
  | fail error =>
      cases executed
      rfl
  | _ => cases executed

/-- The handler of a message for which an entry is built inserts it and passes the
outcome on. -/
theorem grpcDispatch_eq {codec : ProtoCodec} {request : DispatchRequest} {message : AppMessage}
    {entry : NewEntry} (isMessage : request.message = some message)
    (built : newEntry codec (some message) = .ok entry) :
    GRPCServer.dispatch codec request =
      .call (.insert entry) fun
        | .error error => .done (.error ⟨.internal, "dispatch: " ++ ("outbox insert: " ++ error)⟩)
        | .ok _ => .done (.ok { success := true, ackMessageId := message.messageId }) := by
  rw [GRPCServer.dispatch, isMessage]
  simp only [Dispatcher.dispatch, built, Store.insert, Program.issue_bind, Program.call_bind,
    Program.pure_eq_done]
  congr 1
  funext reply
  cases reply <;> rfl

/-- What an accepted message has: an entry with its id and a partition key, and from
then on a row. -/
theorem grpcDispatch_accepted {codec : ProtoCodec} {request : DispatchRequest}
    {response : DispatchResponse} {before stored : State} {log : Log}
    (accepted : Executes exec (GRPCServer.dispatch codec request) before log (.ok response)
      stored) :
    ∃ message entry id key, request.message = some message ∧
      newEntry codec (some message) = .ok entry ∧ message.messageId = some id ∧
      entry.messageId = some id ∧ entry.partitionKey = some key ∧
      response = { success := true, ackMessageId := some id } ∧ stored.Holds id := by
  cases isMessage : request.message with
  | none =>
      rw [GRPCServer.dispatch, isMessage] at accepted
      cases accepted
  | some message =>
      cases built : newEntry codec (some message) with
      | error error =>
          rw [GRPCServer.dispatch, isMessage] at accepted
          simp only [Dispatcher.dispatch, built, Program.pure_eq_done, Program.done_bind] at accepted
          cases accepted
      | ok entry =>
          rw [grpcDispatch_eq isMessage built] at accepted
          cases accepted with
          | @call _ _ _ _ middle _ reply _ _ executed rest =>
              cases reply with
              | error error => cases rest
              | ok _ =>
                  cases rest
                  obtain ⟨now, inserted⟩ := exec_insert_ok executed
                  obtain ⟨row, members, -, isId, -, hasKey, -⟩ := insert_ok inserted
                  obtain ⟨_, -, -, sameId, -, -⟩ := newEntry_ok built
                  have messageId := sameId.symm.trans isId
                  refine ⟨message, entry, row.messageId, row.partitionKey, rfl, built, messageId,
                    isId, hasKey, by rw [messageId], row, ?_, rfl⟩
                  exact (members row).mpr (.inr rfl)

/-! ### Every schedule -/

/-- The outbox holds the id; from RPC `base` on no answer accepts it; and the
acknowledgements for it are the ones there were. -/
structure State.Closed (id : Bytes) (base acks : Nat) (state : State) : Prop where
  holds : state.Holds id
  requested : base ≤ state.requests.length
  answered : ∀ rpc response, (rpc, .ok response) ∈ state.responses →
    response.ackMessageId = some id → rpc < base
  acknowledged : state.written.count (.ack (Gateway.receivedAck (some id))) = acks

/-- The commands that answer or acknowledge nothing for the id. -/
def Command.Withholds (id : Bytes) : Command → Prop
  | .respond _ (.ok response) => response.ackMessageId ≠ some id
  | .writeMessage message => message ≠ .ack (Gateway.receivedAck (some id))
  | _ => True

/-- **The step lemma.** -/
theorem Effect.closed {id : Bytes} {base acks : Nat} {state after : State} {command : Command}
    (closed : state.Closed id base acks) (withholds : command.Withholds id)
    (effect : Effect state command after) : after.Closed id base acks := by
  have holds := closed.holds.evolve effect.evolves
  cases effect with
  | unchanged => exact closed
  | requested request =>
      refine ⟨holds, ?_, closed.answered, closed.acknowledged⟩
      show base ≤ (state.requests ++ [request]).length
      rw [List.length_append]
      exact Nat.le_add_right_of_le closed.requested
  | responded rpc answer =>
      refine ⟨holds, closed.requested, ?_, closed.acknowledged⟩
      intro other response member isId
      rcases List.mem_append.mp member with old | new
      · exact closed.answered other response old isId
      · obtain ⟨rfl, rfl⟩ := Prod.mk.inj (List.mem_singleton.mp new)
        exact absurd isId withholds
  | written message =>
      have different : message ≠ .ack (Gateway.receivedAck (some id)) := withholds
      refine ⟨holds, closed.requested, closed.answered, ?_⟩
      show (state.written ++ [message]).count _ = acks
      rw [List.count_append, closed.acknowledged, List.count_singleton,
        if_neg (by simpa using different), Nat.add_zero]
  | _ => exact ⟨holds, closed.requested, closed.answered, closed.acknowledged⟩

/-- The discipline of a pipeline whose outbox holds the id. -/
def closedDiscipline (id : Bytes) (base acks : Nat) : Discipline Command Reply State where
  Invariant world := world.state.Closed id base acks
  Evolves _ _ := True
  evolves_refl _ := trivial
  evolves_trans _ _ := trivial

section Programs

variable {codec : ProtoCodec} {id : Bytes} {base acks thread : Nat} {Value : Type}
  {post : Value → World Command Reply State → Prop} {world : World Command Reply State}

/-- A command that withholds, followed by programs that are sound after every reply
it can have in a closed state. -/
theorem closed_call {command : Command} {next : Reply command → Code Value}
    (withholds : command.Withholds id)
    (following : ∀ choice reply (before : State) (after : World Command Reply State),
      before.Closed id base acks → exec command choice before = some (reply, after.state) →
      (closedDiscipline id base acks).Sound exec thread post (next reply) after) :
    (closedDiscipline id base acks).Sound exec thread post (.call command next) world := by
  intro before later closed choice reply state executed
  exact ⟨(exec_effect executed).closed closed withholds, trivial,
    following choice reply before.state _ closed executed⟩

theorem closed_done {result : Value} (always : ∀ after, post result after) :
    (closedDiscipline id base acks).Sound exec thread post (.done result) world :=
  fun after _ _ => always after

theorem publish_closed (entry : Entry) :
    (closedDiscipline id base acks).Sound exec thread (fun _ _ => True) (Relay.publish entry)
      world := by
  refine closed_call trivial fun _ reply _ _ _ _ => ?_
  cases reply with
  | error error => exact closed_done fun _ => trivial
  | ok _ => exact closed_call trivial fun _ _ _ _ _ _ => closed_done fun _ => trivial

theorem sendToDeadLetter_closed (entry : Entry) :
    (closedDiscipline id base acks).Sound exec thread (fun _ _ => True)
      (Relay.sendToDeadLetter entry) world := by
  refine closed_call trivial fun _ reply _ _ _ _ => ?_
  cases reply with
  | error error => exact closed_done fun _ => trivial
  | ok _ => exact closed_call trivial fun _ _ _ _ _ _ => closed_done fun _ => trivial

theorem publishEntries_closed (entries : List Entry) :
    (closedDiscipline id base acks).Sound exec thread (fun _ _ => True)
      (Relay.publishEntries entries) world := by
  induction entries generalizing world with
  | nil => exact closed_done fun _ => trivial
  | cons entry entries inductionHypothesis =>
      unfold Relay.publishEntries
      refine (publish_closed entry).bind fun result after _ _ _ => ?_
      cases result with
      | ok _ => exact inductionHypothesis
      | error error =>
          refine closed_call trivial fun _ _ _ _ _ _ => ?_
          split
          · exact (sendToDeadLetter_closed entry).bind fun _ _ _ _ _ => inductionHypothesis
          · exact inductionHypothesis

theorem poll_closed (batch : Nat) :
    (closedDiscipline id base acks).Sound exec thread (fun _ _ => True) (Relay.poll batch)
      world := by
  refine closed_call trivial fun _ reply _ _ _ _ => ?_
  cases reply with
  | error error => exact closed_done fun _ => trivial
  | ok entries => exact publishEntries_closed entries

/-- A `Dispatch` that returns `nil` is of another id. -/
theorem dispatch_closed (senderId : Slice) (message : Option AppMessage) :
    (closedDiscipline id base acks).Sound exec thread
      (fun result _ => ∀ accepted, message = some accepted → result = .ok () →
        accepted.messageId ≠ some id)
      (Dispatcher.dispatch codec senderId message) world := by
  unfold Dispatcher.dispatch
  split
  · exact closed_done fun _ _ _ impossible => by cases impossible
  · next entry built =>
    refine closed_call trivial fun choice reply before after closed executed => ?_
    cases reply with
    | error error => exact closed_done fun _ _ _ impossible => by cases impossible
    | ok _ =>
        refine closed_done fun _ accepted isMessage _ => ?_
        subst isMessage
        obtain ⟨_, -, -, sameId, -, -⟩ := newEntry_ok built
        rw [← sameId]
        exact messageId_ne_of_insert_ok closed.holds executed

theorem grpcDispatch_closed (request : DispatchRequest) :
    (closedDiscipline id base acks).Sound exec thread
      (fun answer _ => ∀ response, answer = .ok response →
        response.ackMessageId ≠ some id ∧ ∀ message, request.message = some message →
          message.messageId ≠ some id)
      (GRPCServer.dispatch codec request) world := by
  unfold GRPCServer.dispatch
  split
  · exact closed_done fun _ _ impossible => by cases impossible
  · next message requested =>
    refine (dispatch_closed request.senderId (some message)).bind fun result _ _ _ other => ?_
    cases result with
    | error error => exact closed_done fun _ _ impossible => by cases impossible
    | ok _ =>
        refine closed_done fun _ response answered => ?_
        obtain rfl := Except.ok.inj answered
        refine ⟨other message rfl rfl, fun same isMessage => ?_⟩
        rw [← Option.some.inj (requested.symm.trans isMessage)]
        exact other message rfl rfl

theorem serve_closed (rpc : Nat) (request : DispatchRequest) :
    (closedDiscipline id base acks).Sound exec thread
      (fun answer _ => ∀ response, answer = .ok response →
        ∀ message, request.message = some message → message.messageId ≠ some id)
      (GRPCServer.serve codec rpc request) world := by
  unfold GRPCServer.serve
  refine (grpcDispatch_closed request).bind fun answer _ _ _ other => ?_
  have withholds : (Command.respond rpc answer).Withholds id := by
    cases answer with
    | error error => trivial
    | ok response => exact (other response rfl).1
  refine closed_call withholds fun _ _ _ _ _ _ => ?_
  exact closed_done fun _ response answered => (other response answered).2

/-- The gateway echoes the message: whatever it is answered for a request of its own is
not an acceptance of the id. -/
theorem handleMessage_closed (dispatcher : Bool) (remoteAddr plaintext : Bytes)
    {post : Except String Unit → World Command Reply State → Prop}
    (always : ∀ result after, post result after) :
    (closedDiscipline id base acks).Sound exec thread post
      (Gateway.handleMessage codec dispatcher remoteAddr plaintext) world := by
  have echoClosed : ∀ world : World Command Reply State,
      (closedDiscipline id base acks).Sound exec thread post (Gateway.echo plaintext) world := by
    intro world
    refine closed_call (fun same => by cases same) fun _ _ _ _ _ _ => ?_
    exact closed_done (always _)
  unfold Gateway.handleMessage
  split
  · exact echoClosed world
  · refine closed_call trivial fun choice reply before requested closed executed => ?_
    cases reply with
    | error error => exact echoClosed requested
    | ok rpc =>
        -- The number of a new request is not below `base`.
        have isNew : base ≤ rpc := by
          cases choice with
          | ok now =>
              obtain ⟨isLength, -⟩ := Prod.mk.inj (Option.some.inj executed)
              rw [← Except.ok.inj isLength]
              exact closed.requested
          | _ => cases executed
        refine closed_call trivial fun choice answer before received closed executed => ?_
        cases answer with
        | error error => exact echoClosed _
        | ok response =>
            have answered := (exec_await_ok executed).2
            have withholds : (Command.writeMessage
                (.ack (Gateway.receivedAck response.ackMessageId))).Withholds id := by
              intro same
              have isId : response.ackMessageId = some id :=
                congrArg AppMessage.messageId (ClientMessage.ack.inj same)
              exact Nat.not_lt.mpr isNew (closed.answered rpc response answered isId)
            exact closed_call withholds fun _ _ _ _ _ _ => closed_done (always _)

end Programs

/-- A finished call that dispatched a message with the id has failed. -/
def Call.PostClosed (id : Bytes) (call : Call) (result : Except String Unit)
    (_world : World Command Reply State) : Prop :=
  ∀ message, call.dispatched = some message → result = .ok () → message.messageId ≠ some id

theorem code_closed (codec : ProtoCodec) {id : Bytes} {base acks : Nat} (call : Call)
    (thread : Nat) (world : World Command Reply State) :
    (closedDiscipline id base acks).Sound exec thread (call.PostClosed id) (code codec call)
      world := by
  cases call with
  | dispatch senderId message => exact dispatch_closed senderId message
  | serve rpc request =>
      refine (serve_closed rpc request).bind fun answer _ _ _ other => ?_
      cases answer with
      | error error => exact closed_done fun _ _ _ impossible => by cases impossible
      | ok response =>
          exact closed_done fun _ message requested _ => other response rfl message requested
  | poll batch =>
      refine (poll_closed batch).bind fun _ _ _ _ _ => ?_
      exact closed_done fun _ _ impossible => by cases impossible
  | client dispatcher remoteAddr plaintext =>
      exact handleMessage_closed dispatcher remoteAddr plaintext
        fun _ _ _ impossible => by cases impossible

/-! ### Retransmission -/

/-- From a state that holds the id, no schedule accepts or acknowledges it again. -/
theorem never_accepted_again {codec : ProtoCodec} {id : Bytes} {stored : State}
    (holds : stored.Holds id) (answers : ∀ entry ∈ stored.responses,
      entry.1 < stored.requests.length)
    {events : List (Event Call Choice)} {pool : Pool Command Reply (Except String Unit) State Call}
    (ran : (Pool.start stored).run (pipeline codec) events = some pool) :
    (∀ message, message.messageId = some id → ¬Accepted pool message) ∧
      pool.world.state.written.count (.ack (Gateway.receivedAck (some id))) =
        stored.written.count (.ack (Gateway.receivedAck (some id))) := by
  have closed : stored.Closed id stored.requests.length
      (stored.written.count (.ack (Gateway.receivedAck (some id)))) :=
    ⟨holds, Nat.le_refl _, fun rpc response member _ => answers _ member, rfl⟩
  have disciplined : pool.Disciplined (closedDiscipline id stored.requests.length _)
      (pipeline codec) (Call.PostClosed id) :=
    Pool.run_sound (fun call index world _ _ _ => code_closed codec call index world) events
      (Pool.start_disciplined closed) ran
  refine ⟨?_, disciplined.invariant.acknowledged⟩
  intro message isId ⟨thread, member, dispatched, finished⟩
  exact disciplined.result member finished message dispatched rfl isId

/-- Dispatching a message whose id is held fails and changes nothing. -/
theorem grpcDispatch_of_holds {codec : ProtoCodec} {request : DispatchRequest}
    {message : AppMessage} {entry : NewEntry} {id : Bytes} {later after : State} {log : Log}
    {answer : Except RpcError DispatchResponse} (isMessage : request.message = some message)
    (built : newEntry codec (some message) = .ok entry) (isId : entry.messageId = some id)
    (holds : later.Holds id)
    (retried : Executes exec (GRPCServer.dispatch codec request) later log answer after) :
    after = later ∧ ∃ error, answer = .error ⟨.internal, error⟩ := by
  rw [grpcDispatch_eq isMessage built] at retried
  cases retried with
  | @call _ _ _ _ middle _ reply _ _ executed rest =>
      cases reply with
      | error error =>
          cases rest
          exact ⟨exec_insert_error executed, _, rfl⟩
      | ok _ => exact absurd isId (messageId_ne_of_insert_ok holds executed)

/-- **A retransmission is never accepted.** Once the dispatcher has accepted a message,
every further `Dispatch` of it, in every later state, leaves the state alone but
returns an error: with a working database, that of the violated `UNIQUE` constraint.
In every schedule of gateways, dispatchers and relays that follows, no `Dispatch` of
the message returns `nil` and no gateway acknowledges it. -/
theorem retransmission_never_accepted {codec : ProtoCodec} {request : DispatchRequest}
    {response : DispatchResponse} {before stored : State} {choices : List Choice}
    (accepted : (GRPCServer.dispatch codec request).run exec choices before =
      some (.ok response, stored)) :
    (∀ retry later choices answer after, retry.message = request.message →
      stored.Evolves later →
      (GRPCServer.dispatch codec retry).run exec choices later = some (answer, after) →
      after = later ∧ ∃ error, answer = .error ⟨.internal, error⟩) ∧
    (∀ retry later now, retry.message = request.message → stored.Evolves later →
      (GRPCServer.dispatch codec retry).run exec [.ok now] later =
        some (.error ⟨.internal, "dispatch: outbox insert: duplicate key value violates " ++
          "unique constraint \"outbox_message_id_key\""⟩, later)) ∧
    ∀ events pool, (∀ entry ∈ stored.responses, entry.1 < stored.requests.length) →
      (Pool.start stored).run (pipeline codec) events = some pool →
      (∀ message, request.message = some message → ¬Accepted pool message) ∧
        pool.world.state.written.count (.ack (Gateway.receivedAck response.ackMessageId)) =
          stored.written.count (.ack (Gateway.receivedAck response.ackMessageId)) := by
  obtain ⟨message, entry, id, key, isMessage, built, messageId, isId, hasKey, rfl, holds⟩ :=
    grpcDispatch_accepted (executes_of_run accepted)
  refine ⟨?_, ?_, ?_⟩
  · intro retry later choices answer after same evolves retried
    exact grpcDispatch_of_holds (same.trans isMessage) built isId (holds.evolve evolves)
      (executes_of_run retried)
  · intro retry later now same evolves
    have refused : exec (.insert entry) (.ok now) later = some
        (.error "duplicate key value violates unique constraint \"outbox_message_id_key\"",
          later) := by
      rw [exec, insert_of_holds (holds.evolve evolves) isId hasKey]
    rw [grpcDispatch_eq (same.trans isMessage) built, Program.run_call refused]
    rfl
  · intro events pool answers ran
    obtain ⟨never, acks⟩ := never_accepted_again holds answers ran
    refine ⟨?_, acks⟩
    intro other isOther
    obtain rfl := Option.some.inj (isMessage.symm.trans isOther)
    exact never message messageId

def sampleRequest : DispatchRequest :=
  { sessionId := some (utf8 "10.0.0.1:5222"), senderId := some [9], message := some sampleChat }

theorem retransmission_never_accepted_sample :
    ∃ response stored,
      (GRPCServer.dispatch sampleCodec sampleRequest).run exec [.ok 3] State.initial =
        some (.ok response, stored) ∧
      ∀ events pool, (Pool.start stored).run (pipeline sampleCodec) events = some pool →
        ¬Accepted pool sampleChat := by
  obtain ⟨response, stored, accepted⟩ : ∃ response stored,
      (GRPCServer.dispatch sampleCodec sampleRequest).run exec [.ok 3] State.initial =
        some (.ok response, stored) := ⟨_, _, rfl⟩
  have nothingAnswered : stored.responses = [] := by
    obtain ⟨-, rfl⟩ := Prod.mk.inj (Option.some.inj accepted)
    rfl
  refine ⟨response, stored, accepted, fun events pool ran => ?_⟩
  have answers : ∀ entry ∈ stored.responses, entry.1 < stored.requests.length := by
    rw [nothingAnswered]
    exact fun entry none => by cases none
  exact ((retransmission_never_accepted accepted).2.2 events pool answers ran).1 sampleChat rfl

/-- A client sends a message, the answer of the dispatcher is lost, and the client sends
the message again. -/
def lostAnswer : List (Event Call Choice) :=
  [.spawn (.client true (utf8 "10.0.0.1:5222") sampleFrame), .step 0 (.ok 2),
    .spawn (.serve 0 sampleRequest), .step 1 (.ok 3), .step 1 (.ok 3),
    .step 0 (.fail "deadline exceeded"), .step 0 (.ok 4),
    .spawn (.client true (utf8 "10.0.0.1:5222") sampleFrame), .step 2 (.ok 5),
    .spawn (.serve 1 sampleRequest), .step 3 (.ok 6), .step 3 (.ok 6),
    .step 2 (.received 1), .step 2 (.ok 7)]

/-- The message was accepted, the retransmission is refused, and the client gets two
echoes and no acknowledgement. -/
theorem retransmission_is_echoed :
    ∃ pool, (Pool.start State.initial).run (pipeline sampleCodec) lostAnswer = some pool ∧
      pool.world.state.responses =
        [(0, .ok { success := true, ackMessageId := some [7] }),
          (1, .error ⟨.internal, "dispatch: outbox insert: duplicate key value violates " ++
            "unique constraint \"outbox_message_id_key\""⟩)] ∧
      pool.world.state.written =
        [.echo (utf8 "echo: " ++ sampleFrame), .echo (utf8 "echo: " ++ sampleFrame)] := by
  obtain ⟨pool, ran⟩ : ∃ pool, (Pool.start State.initial).run (pipeline sampleCodec)
      lostAnswer = some pool := ⟨_, rfl⟩
  refine ⟨pool, ran, ?_, ?_⟩
  · obtain rfl := Option.some.inj ran
    rfl
  · obtain rfl := Option.some.inj ran
    rfl

end FProto.Outbox
