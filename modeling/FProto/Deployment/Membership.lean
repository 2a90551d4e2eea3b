import FProto.Commands.Membership
import FProto.Commands.Redelivery
import FProto.Deployment.EndToEnd

/-!
Owns the whole way of a command through the deployment: gateways, dispatchers
and relays write the commands topic, and the command service of
`server/internal/commands/service.go` handles its records against the group
tables. Kafka delivers each record as often and in whatever order it likes, and
the database may fail at every delivery.

Three results. Nothing is made up: every row of the group tables rests on
commands that somebody submitted. Nothing is dropped without a fault: when every
row of the outbox is published and every record of the commands topic has had
its effect, an accepted creation has created its group, and whoever is added to
a group after it is there, and is never removed, is a member.
-/

namespace FProto.Deployment.Membership

open FProto.Foundation
open FProto.Protocol
open FProto.Kafka
open FProto.Commands
open FProto.Groups

/-! ### The system -/

/-- `Handle` is called with a record. Unless the service or the database fails
first, the statement of the handler is committed. -/
structure Delivery where
  record : ConsumerMessage
  committed : Bool

abbrev Deployed := Outbox.Servers × Database

abbrev Happening := Event Outbox.Call Outbox.Choice ⊕ Delivery

def deliver (codec : ProtoCodec) (runtime : Runtime) (db : Database) (delivery : Delivery) :
    Option Database :=
  some (if delivery.committed then (handle codec runtime db delivery.record).2 else db)

/-- `Service.Run` subscribes to the commands topic alone. -/
def guard (servers : Outbox.Servers) (_ : Database) : Happening → Bool
  | .inl _ => true
  | .inr delivery =>
      delivery.record.topic == topicCommands && inLog servers.world.state delivery.record

def next (codec : ProtoCodec) (runtime : Runtime) : Deployed → Happening → Option Deployed :=
  coupled (fun servers event => servers.next (Outbox.pipeline codec) event)
    (deliver codec runtime) guard

def start : Deployed := (Pool.start Outbox.State.initial, .empty)

/-- The deliveries of a run. -/
def deliveries (events : List Happening) : List Delivery :=
  events.filterMap Sum.getRight?

section Runs

variable {codec : ProtoCodec} {runtime : Runtime} {before deployed : Deployed}
  {events : List Happening}

theorem servers_ran (ran : run (next codec runtime) start events = some deployed) :
    (Pool.start Outbox.State.initial).run (Outbox.pipeline codec)
      (events.filterMap Sum.getLeft?) = some deployed.1 :=
  run_coupled_left ran

/-! ### The tables are what the deliveries leave -/

/-- The action of a delivery on the tables. -/
def Delivery.action (codec : ProtoCodec) (runtime : Runtime) (delivery : Delivery) : Action :=
  if delivery.committed then messageAction codec runtime delivery.record else .nothing

theorem deliver_eq (db : Database) (delivery : Delivery) :
    deliver codec runtime db delivery = some (apply db (delivery.action codec runtime)) := by
  unfold deliver Delivery.action
  cases delivery.committed with
  | false => rfl
  | true => rw [if_pos rfl, if_pos rfl, handle_database]

theorem run_deliver (db : Database) (delivered : List Delivery) :
    run (deliver codec runtime) db delivered =
      some (applyAll db (delivered.map (Delivery.action codec runtime))) := by
  induction delivered generalizing db with
  | nil => rfl
  | cons delivery delivered inductionHypothesis =>
      rw [run_cons_of_next (deliver_eq db delivery), inductionHypothesis]
      rfl

theorem tables_eq (ran : run (next codec runtime) before events = some deployed) :
    deployed.2 = applyAll before.2 ((deliveries events).map (Delivery.action codec runtime)) := by
  have right := run_coupled_right ran
  rw [run_deliver] at right
  exact (Option.some.inj right).symm

/-! ### Records come from the log -/

theorem evolves_of_run (ran : run (next codec runtime) before events = some deployed) :
    before.1.world.state.Evolves deployed.1.world.state := by
  have step : ∀ (state : Deployed) event after,
      before.1.world.state.Evolves state.1.world.state →
      next codec runtime state event = some after →
      before.1.world.state.Evolves after.1.world.state := by
    intro state event after evolved stepped
    rcases coupled_cases stepped with
      ⟨own, servers, rfl, -, moved, rfl⟩ | ⟨own, db, rfl, -, -, rfl⟩
    · exact evolved.trans (evolves_of_next moved)
    · exact evolved
  exact run_invariant step (Outbox.State.Evolves.refl _) ran

theorem delivered_logged (ran : run (next codec runtime) before events = some deployed)
    {delivery : Delivery} (delivered : delivery ∈ deliveries events) :
    inLog deployed.1.world.state delivery.record = true := by
  induction events generalizing before with
  | nil => cases delivered
  | cons event events inductionHypothesis =>
      obtain ⟨middle, stepped, rest⟩ := run_cons ran
      rcases coupled_cases stepped with
        ⟨own, servers, rfl, -, -, rfl⟩ | ⟨own, db, rfl, admitted, -, rfl⟩
      · exact inductionHypothesis rest delivered
      · rcases List.mem_cons.mp delivered with rfl | later
        · obtain ⟨-, logged⟩ := Bool.and_eq_true_iff.mp admitted
          exact inLog_evolve (evolves_of_run rest) logged
        · exact inductionHypothesis rest later

/-- A record that was delivered carries a message that was submitted. -/
theorem delivered_origin (ran : run (next codec runtime) start events = some deployed)
    {delivery : Delivery} (delivered : delivery ∈ deliveries events) :
    ∃ message row, Outbox.Submitted codec deployed.1 message ∧
      Outbox.IsRowOf codec message row ∧ delivery.record.value = some row.payload := by
  obtain ⟨logged, isLogged, value⟩ := inLog_iff.mp (delivered_logged ran delivered)
  obtain ⟨row, stored, same, -⟩ := Outbox.record_copied (servers_ran ran) isLogged
  obtain ⟨message, submitted, isRow⟩ := Outbox.row_submitted (servers_ran ran) stored
  exact ⟨message, row, submitted, isRow, by rw [value, same]⟩

/-! ### What a command asks for -/

/-- The columns that an action takes from its command. -/
def Asks (runtime : Runtime) (command : Command) : Action → Prop
  | .create groupId name settings => command.targetId = some groupId ∧
      command.payload.isSome ∧ ∃ given stored, settingsName runtime command.payload = .ok given ∧
        runtime.text (newGroup command given).name = .ok name ∧
        runtime.jsonb (newGroup command given).settings = .ok stored ∧ settings = some stored
  | .add groupId userId _ => command.targetId = some groupId ∧ command.payload = some userId
  | .remove groupId userId _ => command.targetId = some groupId ∧ command.payload = some userId
  | .update groupId settings => command.targetId = some groupId ∧
      ((command.payload = none ∧ settings = none) ∨ ∃ payload stored,
        command.payload = some payload ∧ runtime.jsonb payload = .ok stored ∧
          settings = some stored)
  | .nothing => True

theorem eq_some_bytes {slice : Slice} (long : slice.len ≠ 0) : slice = some slice.bytes := by
  obtain ⟨bytes, rfl, -⟩ := Slice.len_pos_iff.mp (Nat.pos_of_ne_zero long)
  rfl

theorem createAction_asks (runtime : Runtime) (command : Command) :
    Asks runtime command (createAction runtime command) := by
  unfold createAction
  split
  · trivial
  · next checked =>
    rw [not_or] at checked
    have target := eq_some_bytes checked.1
    have payload : command.payload.isSome := Option.isSome_iff_ne_none.mpr checked.2
    cases named : settingsName runtime command.payload with
    | error error => trivial
    | ok given =>
        dsimp only
        split
        · next name settings columnName columnSettings =>
          exact ⟨target, payload, given, settings, named, columnName, columnSettings, rfl⟩
        · trivial

theorem memberAction_asks {runtime : Runtime} {command : Command}
    {act : Bytes → (userId : Bytes) → userId ≠ [] → Action}
    (isMember : ∀ groupId userId named, command.targetId = some groupId →
      command.payload = some userId → Asks runtime command (act groupId userId named)) :
    Asks runtime command (memberAction command act) := by
  unfold memberAction
  split
  · trivial
  · next target =>
    split
    · trivial
    · next named =>
      have long : command.payload.len ≠ 0 := fun empty => named (Slice.len_eq_zero_iff.mp empty)
      exact isMember _ _ named (eq_some_bytes target) (eq_some_bytes long)

theorem updateAction_asks (runtime : Runtime) (command : Command) :
    Asks runtime command (updateAction runtime command) := by
  unfold updateAction
  split
  · trivial
  · next target =>
    cases payload : command.payload with
    | none => exact ⟨eq_some_bytes target, .inl ⟨payload, rfl⟩⟩
    | some settings =>
        dsimp only
        split
        · trivial
        · next stored column =>
          exact ⟨eq_some_bytes target, .inr ⟨settings, stored, payload, column, rfl⟩⟩

theorem action_asks (runtime : Runtime) (command : Command) :
    Asks runtime command (action runtime command) := by
  unfold action
  split
  · exact createAction_asks runtime command
  · exact memberAction_asks fun _ _ _ target payload => ⟨target, payload⟩
  · exact memberAction_asks fun _ _ _ target payload => ⟨target, payload⟩
  · exact updateAction_asks runtime command
  · exact memberAction_asks fun _ _ _ target payload => ⟨target, payload⟩
  · trivial

/-! ### Actions come from submitted commands -/

/-- Somebody submitted a command of the type, for the group and with the payload. -/
def Commanded (codec : ProtoCodec) (servers : Outbox.Servers) (type : CommandType)
    (groupId payload : Bytes) : Prop :=
  ∃ message command, Outbox.Submitted codec servers message ∧
    message.body = some (.command (some command)) ∧ command.type = type ∧
    command.targetId = some groupId ∧ command.payload.bytes = payload

/-- The action is that of a submitted command, in the form in which it is read
back. -/
def Asked (codec : ProtoCodec) (runtime : Runtime) (servers : Outbox.Servers) (asked : Action) :
    Prop :=
  asked ≠ .nothing → ∃ message command, Outbox.Submitted codec servers message ∧
    message.body = some (.command (some command)) ∧ action runtime command.wire = asked

section Records

variable {message : AppMessage} {row : Outbox.Entry} {record : ConsumerMessage}

theorem unmarshal_record (roundTrips : codec.RoundTrips message)
    (isRow : Outbox.IsRowOf codec message row) (value : record.value = some row.payload) :
    codec.unmarshal record.value.bytes = .ok message.wire := by
  rw [value]
  exact roundTrips row.payload isRow.payload

/-- A record of a command has the action of the command. -/
theorem messageAction_command (roundTrips : codec.RoundTrips message)
    (isRow : Outbox.IsRowOf codec message row) (value : record.value = some row.payload)
    {command : Command} (body : message.body = some (.command (some command))) :
    messageAction codec runtime record = action runtime command.wire := by
  unfold messageAction
  rw [unmarshal_record roundTrips isRow value]
  simp [AppMessage.wire, body, Body.wire]

/-- Records of other messages do nothing. A missing command is read back as one
without a type. -/
theorem messageAction_cases (roundTrips : codec.RoundTrips message)
    (isRow : Outbox.IsRowOf codec message row) (value : record.value = some row.payload) :
    messageAction codec runtime record = .nothing ∨
      ∃ command, message.body = some (.command (some command)) ∧
        messageAction codec runtime record = action runtime command.wire := by
  rcases body : message.body with _ | body'
  · left
    unfold messageAction
    rw [unmarshal_record roundTrips isRow value]
    simp [AppMessage.wire, body]
  · rcases isBody : body' with _ | found | _ | _ | _ | _ | _ | _
    case command =>
      cases found with
      | none =>
          left
          unfold messageAction
          rw [unmarshal_record roundTrips isRow value]
          simp [AppMessage.wire, body, isBody, Body.wire, Command.wire, action]
      | some command =>
          subst isBody
          exact .inr ⟨command, rfl, messageAction_command roundTrips isRow value body⟩
    all_goals
      left
      unfold messageAction
      rw [unmarshal_record roundTrips isRow value]
      simp [AppMessage.wire, body, isBody, Body.wire]

end Records

/-- **What a delivery does to the tables was asked for.** -/
theorem delivery_asked (roundTrips : ∀ message, codec.RoundTrips message)
    (ran : run (next codec runtime) start events = some deployed) {delivery : Delivery}
    (delivered : delivery ∈ deliveries events) :
    Asked codec runtime deployed.1 (delivery.action codec runtime) := by
  intro acts
  unfold Delivery.action at acts ⊢
  split at acts
  · next committed =>
    obtain ⟨message, row, submitted, isRow, value⟩ := delivered_origin ran delivered
    rw [if_pos committed]
    rcases messageAction_cases (roundTrips message) isRow value with nothing | ⟨command, body, same⟩
    · exact absurd nothing acts
    · exact ⟨message, command, submitted, body, same.symm⟩
  · exact absurd rfl acts

/-! ### Nothing is made up -/

section Asked

variable {servers : Outbox.Servers} {groupId userId : Bytes}

theorem Asked.command {act : Action} (asked : Asked codec runtime servers act)
    (acts : act ≠ .nothing) :
    ∃ message command, Outbox.Submitted codec servers message ∧
      message.body = some (.command (some command)) ∧ AskedBy act command.type ∧
      Asks runtime command.wire act := by
  obtain ⟨message, command, submitted, body, rfl⟩ := asked acts
  exact ⟨message, command, submitted, body, action_askedBy runtime command.wire,
    action_asks runtime command.wire⟩

theorem Asked.add {named : userId ≠ []}
    (asked : Asked codec runtime servers (.add groupId userId named)) :
    Commanded codec servers .addMember groupId userId := by
  obtain ⟨message, command, submitted, body, isType, target, payload⟩ :=
    asked.command (by simp)
  refine ⟨message, command, submitted, body, isType, eq_some_of_wireSlice target, ?_⟩
  rw [eq_some_of_wireSlice payload]
  rfl

theorem Asked.remove {named : userId ≠ []}
    (asked : Asked codec runtime servers (.remove groupId userId named)) :
    Commanded codec servers .removeMember groupId userId ∨
      Commanded codec servers .banMember groupId userId := by
  obtain ⟨message, command, submitted, body, isType, target, payload⟩ :=
    asked.command (by simp)
  have isTarget := eq_some_of_wireSlice target
  have isPayload : command.payload.bytes = userId := by
    rw [eq_some_of_wireSlice payload]
    rfl
  rcases isType with isRemove | isBan
  · exact .inl ⟨message, command, submitted, body, isRemove, isTarget, isPayload⟩
  · exact .inr ⟨message, command, submitted, body, isBan, isTarget, isPayload⟩

/-- The settings column that a payload gives. -/
def StoresSettings (runtime : Runtime) (payload : Bytes) (settings : Option Bytes) : Prop :=
  (payload = [] ∧ settings = none) ∨
    ∃ stored, runtime.jsonb payload = .ok stored ∧ settings = some stored

/-- A creation has a payload, and takes the name and the settings from it. -/
theorem Asked.create {name : Bytes} {settings : Option Bytes}
    (asked : Asked codec runtime servers (.create groupId name settings)) :
    ∃ payload given, Commanded codec servers .createGroup groupId payload ∧ payload ≠ [] ∧
      runtime.groupName payload = .ok given ∧
      runtime.text (if given = [] then utf8 "New Group" else given) = .ok name ∧
      StoresSettings runtime payload settings := by
  obtain ⟨message, command, submitted, body, isType, target, present, given, stored, isGiven,
    isName, isSettings, rfl⟩ := asked.command (by simp)
  have long : 0 < command.payload.len := wireSlice_isSome_iff.mp present
  have wireLong : 0 < command.wire.payload.len := by
    rw [Command.wire, wireSlice_len]
    exact long
  have wireBytes : command.wire.payload.bytes = command.payload.bytes := wireSlice_bytes _
  rw [settingsName, if_pos wireLong, wireBytes] at isGiven
  rw [newGroup, if_pos wireLong, wireBytes] at isSettings
  refine ⟨command.payload.bytes, given,
    ⟨message, command, submitted, body, isType, eq_some_of_wireSlice target, rfl⟩, ?_, isGiven,
    isName, .inr ⟨stored, isSettings, rfl⟩⟩
  intro empty
  exact absurd (Slice.len_eq_zero_iff.mpr empty) (Nat.ne_of_gt long)

theorem Asked.update {settings : Option Bytes}
    (asked : Asked codec runtime servers (.update groupId settings)) :
    ∃ payload, Commanded codec servers .updateGroupSettings groupId payload ∧
      StoresSettings runtime payload settings := by
  obtain ⟨message, command, submitted, body, isType, target, columns⟩ := asked.command (by simp)
  refine ⟨command.payload.bytes,
    ⟨message, command, submitted, body, isType, eq_some_of_wireSlice target, rfl⟩, ?_⟩
  rcases columns with ⟨missing, rfl⟩ | ⟨payload, stored, present, isStored, rfl⟩
  · refine .inl ⟨?_, rfl⟩
    have empty : (wireSlice command.payload).bytes = [] := by
      rw [show wireSlice command.payload = none from missing]
      rfl
    rwa [wireSlice_bytes] at empty
  · rw [eq_some_of_wireSlice present]
    exact .inr ⟨stored, isStored, rfl⟩

end Asked

theorem tables_founded (roundTrips : ∀ message, codec.RoundTrips message)
    (ran : run (next codec runtime) start events = some deployed) :
    Founded (Asked codec runtime deployed.1) deployed.2 := by
  rw [tables_eq ran]
  apply Founded.empty.applyAll
  intro act member
  obtain ⟨delivery, delivered, rfl⟩ := List.mem_map.mp member
  exact delivery_asked roundTrips ran delivered

end Runs

/-- **No row is made up.** In every state of every schedule, with whatever
redelivery and failure, a group was created by a submitted command with a
payload, has its name from there and its settings from such a command or from a
submitted update, and has no creator; every member with a name was added by a
submitted command, as a plain member. -/
theorem group_rows_were_commanded {codec : ProtoCodec} {runtime : Runtime}
    {events : List Happening} {deployed : Deployed}
    (roundTrips : ∀ message, codec.RoundTrips message)
    (ran : run (next codec runtime) start events = some deployed) :
    (∀ groupId group, deployed.2.groups groupId = some group → group.creatorId = [] ∧
      (∃ payload name, Commanded codec deployed.1 .createGroup groupId payload ∧ payload ≠ [] ∧
        runtime.groupName payload = .ok name ∧
        runtime.text (if name = [] then utf8 "New Group" else name) = .ok group.name) ∧
      ∃ type payload, (type = .createGroup ∨ type = .updateGroupSettings) ∧
        Commanded codec deployed.1 type groupId payload ∧
        StoresSettings runtime payload group.settings) ∧
    (∀ groupId userId role, deployed.2.members groupId userId = some role →
      (userId = [] ∧ role = .admin) ∨
        (role = .member ∧ Commanded codec deployed.1 .addMember groupId userId)) := by
  have founded := tables_founded roundTrips ran
  refine ⟨fun groupId group present => ?_, fun groupId userId role member => ?_⟩
  · obtain ⟨creator, ⟨settings, created⟩, source⟩ := founded.created groupId group present
    obtain ⟨payload, name, commanded, nonempty, isName, column, -⟩ := created.create
    refine ⟨creator, ⟨payload, name, commanded, nonempty, isName, column⟩, ?_⟩
    rcases source with ⟨otherName, created⟩ | updated
    · obtain ⟨payload, given, commanded, -, -, -, stores⟩ := created.create
      exact ⟨.createGroup, payload, .inl rfl, commanded, stores⟩
    · obtain ⟨payload, commanded, stores⟩ := updated.update
      exact ⟨.updateGroupSettings, payload, .inr rfl, commanded, stores⟩
  · rcases founded.joined groupId userId role member with creator | ⟨isRole, named, added⟩
    · exact .inl creator
    · exact .inr ⟨isRole, added.add⟩

/-! The sample: a group is created, and then a user is added to it. -/

def sampleCreate : AppMessage := sampleMessage 1 .createGroup sampleSettings

def sampleAdd : AppMessage := sampleMessage 2 .addMember [9]

/-- A command is dispatched and its row published, as calls `first` and
`first + 1`. -/
def sampleDispatch (first : Nat) (message : AppMessage) (entry : Outbox.NewEntry) :
    List Happening :=
  let row : Outbox.Entry :=
    { id := first / 2 + 1, messageId := entry.messageId.bytes, topic := entry.topic
      partitionKey := entry.partitionKey.bytes, payload := entry.payload, status := .pending
      retryCount := 0, createdAt := 1, publishedAt := none }
  [.inl (.spawn (.dispatch (some [3]) (some message))), .inl (.step first (.ok 1)),
    .inl (.spawn (.poll 100)), .inl (.step (first + 1) (.fetched [row])),
    .inl (.step (first + 1) (.ok 2)), .inl (.step (first + 1) (.ok 2))]

def sampleDelivery (entry : Outbox.NewEntry) (committed : Bool) : Happening :=
  .inr ⟨{ topic := entry.topic, value := some entry.payload }, committed⟩

/-- The first delivery of the creation fails. -/
def samplePast : List Happening :=
  sampleDispatch 0 sampleCreate createRecord ++
    [sampleDelivery createRecord false, sampleDelivery createRecord true]

/-- The creation comes again between the two deliveries of the addition. -/
def sampleLater : List Happening :=
  sampleDispatch 2 sampleAdd addRecord ++
    [sampleDelivery addRecord true, sampleDelivery createRecord true,
      sampleDelivery addRecord true]

theorem sampleCodec_roundTrips (message : AppMessage) : Commands.sampleCodec.RoundTrips message :=
  Outbox.ofList_roundTrips _ (by decide +kernel) message

theorem group_rows_were_commanded_sample :
    ∃ deployed, run (next Commands.sampleCodec sampleRuntime) start (samplePast ++ sampleLater) =
        some deployed ∧
      deployed.2.members [7] [9] = some .member ∧
      Commanded Commands.sampleCodec deployed.1 .addMember [7] [9] := by
  have evaluated : (run (next Commands.sampleCodec sampleRuntime) start
      (samplePast ++ sampleLater)).any (fun deployed =>
        deployed.2.members [7] [9] == some .member) = true := by
    decide +kernel
  obtain ⟨deployed, ran, isMember⟩ := (Option.any_eq_true _ _).mp evaluated
  rw [beq_iff_eq] at isMember
  refine ⟨deployed, ran, isMember, ?_⟩
  rcases (group_rows_were_commanded sampleCodec_roundTrips ran).2 [7] [9] _ isMember with
    ⟨unnamed, -⟩ | ⟨-, commanded⟩
  · cases unnamed
  · exact commanded

/-! ### Nothing is dropped without a fault -/

/-- All work is done: the outbox is published, and every record of the commands
topic was delivered once without a fault. -/
structure Settled (deployed : Deployed) (events : List Happening) : Prop where
  published : ∀ row ∈ deployed.1.world.state.outbox.rows, row.status = .published
  handled : ∀ record ∈ deployed.1.world.state.log topicCommands, ∃ delivery ∈ deliveries events,
    delivery.record.value = some record.value ∧ delivery.committed = true

section Settled

variable {codec : ProtoCodec} {runtime : Runtime} {deployed : Deployed} {events : List Happening}
  {message : AppMessage} {command : Command}

/-- An accepted command was delivered without a fault. -/
theorem Settled.delivered (settled : Settled deployed events)
    (ran : run (next codec runtime) start events = some deployed)
    (accepted : Outbox.Accepted deployed.1 message)
    (body : message.body = some (.command (some command))) :
    ∃ row, Outbox.IsRowOf codec message row ∧ ∃ delivery ∈ deliveries events,
      delivery.record.value = some row.payload ∧ delivery.committed = true := by
  obtain ⟨row, -, isRow, logged⟩ :=
    Outbox.accepted_logged (servers_ran ran) settled.published accepted
  obtain ⟨route, routed, topic, -⟩ := isRow.route
  have isCommand : row.topic = topicCommands := by
    simp only [Dispatcher.routeMessage, body, Dispatcher.routeCommand, Except.ok.injEq] at routed
    rw [topic, ← routed]
  rw [isCommand] at logged
  obtain ⟨delivery, delivered, value, committed⟩ := settled.handled _ logged
  exact ⟨row, isRow, delivery, delivered, value, committed⟩

end Settled

section Effects

variable {codec : ProtoCodec} {runtime : Runtime} {message : AppMessage} {command : Command}
  {groupId userId payload : Bytes}

/-- The action of a creation with a name and a payload whose columns are accepted. -/
theorem action_create {name column settings : Bytes} (isCreate : command.type = .createGroup)
    (target : command.targetId = some groupId) (hasTarget : groupId ≠ [])
    (isPayload : command.payload = some payload) (hasPayload : payload ≠ [])
    (isName : runtime.groupName payload = .ok name)
    (isColumn : runtime.text (if name = [] then utf8 "New Group" else name) = .ok column)
    (isSettings : runtime.jsonb payload = .ok settings) :
    action runtime command.wire = .create groupId column (some settings) := by
  have longTarget : 0 < command.targetId.len := Slice.len_pos_iff.mpr ⟨groupId, target, hasTarget⟩
  have longPayload : 0 < command.payload.len :=
    Slice.len_pos_iff.mpr ⟨payload, isPayload, hasPayload⟩
  have wireTarget : command.wire.targetId = some groupId :=
    (wireSlice_of_len_pos longTarget).trans target
  have wirePayload : command.wire.payload = some payload :=
    (wireSlice_of_len_pos longPayload).trans isPayload
  rw [isPayload] at longPayload
  rw [target] at longTarget
  have isType : command.wire.type = .createGroup := isCreate
  have given : settingsName runtime (some payload) = .ok name := by
    rw [settingsName, if_pos longPayload]
    exact isName
  rw [action, isType]
  simp [createAction, wireTarget, wirePayload, newGroup, given, isColumn, longPayload, isSettings,
    Nat.ne_of_gt longTarget]

/-- The action of an addition that names a group and a user. -/
theorem action_add (isAdd : command.type = .addMember) (target : command.targetId = some groupId)
    (hasTarget : groupId ≠ []) (isPayload : command.payload = some userId) (named : userId ≠ []) :
    action runtime command.wire = .add groupId userId named := by
  refine (action_add_iff runtime hasTarget named).mpr ⟨isAdd, ?_, ?_⟩
  · rw [Command.wire, wireSlice_bytes, target]
    rfl
  · rw [Command.wire, wireSlice_bytes, isPayload]
    rfl

theorem Delivery.action_of_record {delivery : Delivery} {row : Outbox.Entry}
    (roundTrips : codec.RoundTrips message) (isRow : Outbox.IsRowOf codec message row)
    (body : message.body = some (.command (some command)))
    (value : delivery.record.value = some row.payload) (committed : delivery.committed = true) :
    delivery.action codec runtime = Commands.action runtime command.wire := by
  rw [Delivery.action, if_pos committed]
  exact messageAction_command roundTrips isRow value body

end Effects

/-- **An accepted creation takes effect.** When all work is done, a group exists if a
`CREATE_GROUP` command for it was accepted whose name and settings PostgreSQL
takes. -/
theorem accepted_creation_takes_effect {codec : ProtoCodec} {runtime : Runtime}
    {events : List Happening} {deployed : Deployed}
    (roundTrips : ∀ message, codec.RoundTrips message)
    (ran : run (next codec runtime) start events = some deployed)
    (settled : Settled deployed events) {message : AppMessage} {command : Command}
    {groupId payload name column settings : Bytes}
    (accepted : Outbox.Accepted deployed.1 message)
    (body : message.body = some (.command (some command)))
    (isCreate : command.type = .createGroup) (target : command.targetId = some groupId)
    (hasTarget : groupId ≠ []) (isPayload : command.payload = some payload)
    (hasPayload : payload ≠ []) (isName : runtime.groupName payload = .ok name)
    (isColumn : runtime.text (if name = [] then utf8 "New Group" else name) = .ok column)
    (isSettings : runtime.jsonb payload = .ok settings) :
    (deployed.2.groups groupId).isSome := by
  obtain ⟨row, isRow, delivery, delivered, value, committed⟩ :=
    settled.delivered ran accepted body
  have creates : delivery.action codec runtime = .create groupId column (some settings) := by
    rw [Delivery.action_of_record (roundTrips message) isRow body value committed]
    exact action_create isCreate target hasTarget isPayload hasPayload isName isColumn isSettings
  rw [tables_eq ran]
  apply groups_applyAll_isSome
  apply firstCreate_isSome
  rw [← creates]
  exact List.mem_map_of_mem delivered

/-- What the sample run rests on, as a check that can be run: every row is published,
every record was delivered, and the message was accepted. -/
def sampleCheck (message : AppMessage) (events : List Happening) (deployed : Deployed) : Bool :=
  deployed.1.world.state.outbox.rows.all (fun row => row.status == .published) &&
  (deployed.1.world.state.log topicCommands).all (fun record =>
    (deliveries events).any fun delivery =>
      delivery.record.value == some record.value && delivery.committed) &&
  Outbox.accepts deployed.1 message

theorem sample_settled {message : AppMessage} {events : List Happening} {deployed : Deployed}
    (checked : sampleCheck message events deployed = true) :
    Settled deployed events ∧ Outbox.Accepted deployed.1 message := by
  simp only [sampleCheck, Outbox.accepts_iff, Bool.and_eq_true, List.any_eq_true,
    List.all_eq_true, beq_iff_eq] at checked
  exact ⟨⟨checked.1.1, checked.1.2⟩, checked.2⟩

theorem accepted_creation_takes_effect_sample :
    ∃ deployed, run (next Commands.sampleCodec sampleRuntime) start samplePast = some deployed ∧
      Outbox.Accepted deployed.1 sampleCreate ∧ (deployed.2.groups [7]).isSome := by
  have evaluated : (run (next Commands.sampleCodec sampleRuntime) start samplePast).any
      (sampleCheck sampleCreate samplePast) = true := by
    decide +kernel
  obtain ⟨deployed, ran, checked⟩ := (Option.any_eq_true _ _).mp evaluated
  obtain ⟨settled, accepted⟩ := sample_settled checked
  refine ⟨deployed, ran, accepted, ?_⟩
  have isName : sampleRuntime.groupName sampleSettings = .ok (utf8 "g") := rfl
  have isColumn : sampleRuntime.text (if utf8 "g" = [] then utf8 "New Group" else utf8 "g") =
      .ok (utf8 "g") := rfl
  have isSettings : sampleRuntime.jsonb sampleSettings =
      .ok (utf8 "\x7b\"name\": \"g\"\x7d") := rfl
  exact accepted_creation_takes_effect sampleCodec_roundTrips ran settled accepted rfl rfl rfl
    (by decide) rfl (by decide) isName isColumn isSettings

/-- **Who is added to a group that is there is a member.** The group exists at some
point of the schedule, and an `ADD_MEMBER` command with a new message id is
accepted later. When all work is done, the user is a member, unless somebody
submitted a removal or a ban of this user: redelivery and the order in which
records of other partitions are handled do not matter any more. -/
theorem accepted_addition_takes_effect {codec : ProtoCodec} {runtime : Runtime}
    {past later : List Happening} {middle deployed : Deployed}
    (roundTrips : ∀ message, codec.RoundTrips message)
    (began : run (next codec runtime) start past = some middle)
    (ran : run (next codec runtime) middle later = some deployed)
    (settled : Settled deployed (past ++ later)) {message : AppMessage} {command : Command}
    {groupId userId : Bytes} (present : (middle.2.groups groupId).isSome)
    (fresh : ∀ other, Outbox.Submitted codec middle.1 other → other.messageId ≠ message.messageId)
    (accepted : Outbox.Accepted deployed.1 message)
    (body : message.body = some (.command (some command)))
    (isAdd : command.type = .addMember) (target : command.targetId = some groupId)
    (hasTarget : groupId ≠ []) (isPayload : command.payload = some userId) (named : userId ≠ [])
    (notRemoved : ¬Commanded codec deployed.1 .removeMember groupId userId)
    (notBanned : ¬Commanded codec deployed.1 .banMember groupId userId) :
    deployed.2.members groupId userId = some .member := by
  have whole := run_trans began ran
  obtain ⟨row, isRow, delivery, delivered, value, committed⟩ :=
    settled.delivered whole accepted body
  -- The message was not there before, so its record was delivered afterwards.
  have isLater : delivery ∈ deliveries later := by
    rw [deliveries, List.filterMap_append] at delivered
    refine (List.mem_append.mp delivered).resolve_left fun early => ?_
    obtain ⟨other, otherRow, submitted, isOther, otherValue⟩ := delivered_origin began early
    refine fresh other submitted ?_
    have same : other.wire = message.wire :=
      Except.ok.inj ((unmarshal_record (roundTrips other) isOther otherValue).symm.trans
        (unmarshal_record (roundTrips message) isRow value))
    have sameId : otherRow.messageId = row.messageId := by
      rw [← Outbox.wire_messageId_bytes isOther, same, Outbox.wire_messageId_bytes isRow]
    rw [isOther.messageId, isRow.messageId, sameId]
  have adds : .add groupId userId named ∈
      (deliveries later).map (Delivery.action codec runtime) := by
    have isAction : delivery.action codec runtime = .add groupId userId named := by
      rw [Delivery.action_of_record (roundTrips message) isRow body value committed]
      exact action_add isAdd target hasTarget isPayload named
    rw [← isAction]
    exact List.mem_map_of_mem isLater
  have kept : .remove groupId userId named ∉
      (deliveries later).map (Delivery.action codec runtime) := by
    intro removes
    obtain ⟨removal, isRemoval, isAction⟩ := List.mem_map.mp removes
    have among : removal ∈ deliveries (past ++ later) := by
      rw [deliveries, List.filterMap_append]
      exact List.mem_append_right _ isRemoval
    have asked := delivery_asked roundTrips whole among
    rw [isAction] at asked
    exact asked.remove.elim notRemoved notBanned
  have plain : PlainMembers middle.2 := by
    rw [tables_eq began]
    exact PlainMembers.applyAll (fun _ _ _ _ member => by cases member) _
  rw [tables_eq ran, members_applyAll_of_added named adds kept present]
  cases old : middle.2.members groupId userId with
  | none => rfl
  | some role => rw [plain groupId userId role named old]; rfl

/-- Neither sample command takes somebody out. -/
theorem sample_keeps {codec : ProtoCodec} {servers : Outbox.Servers}
    (only : Outbox.onlyDispatches [sampleCreate, sampleAdd] servers = true) {type : CommandType}
    (notCreate : type ≠ .createGroup) (notAdd : type ≠ .addMember) (groupId userId : Bytes) :
    ¬Commanded codec servers type groupId userId := by
  rintro ⟨message, command, submitted, body, rfl, -⟩
  have isSample := Outbox.mem_of_onlyDispatches only submitted
  rcases List.mem_cons.mp isSample with rfl | isAdd
  · cases body
    exact notCreate rfl
  · obtain rfl := List.mem_singleton.mp isAdd
    cases body
    exact notAdd rfl

theorem accepted_addition_takes_effect_sample :
    ∃ middle deployed,
      run (next Commands.sampleCodec sampleRuntime) start samplePast = some middle ∧
      run (next Commands.sampleCodec sampleRuntime) middle sampleLater = some deployed ∧
      Outbox.Accepted deployed.1 sampleAdd ∧ deployed.2.members [7] [9] = some .member := by
  have evaluatedPast : (run (next Commands.sampleCodec sampleRuntime) start samplePast).any
      (fun middle => (middle.2.groups [7]).isSome &&
        Outbox.onlyDispatches [sampleCreate] middle.1) = true := by
    decide +kernel
  obtain ⟨middle, began, checkedPast⟩ := (Option.any_eq_true _ _).mp evaluatedPast
  obtain ⟨present, onlyCreate⟩ := Bool.and_eq_true_iff.mp checkedPast
  have evaluated : (run (next Commands.sampleCodec sampleRuntime) start
      (samplePast ++ sampleLater)).any (fun deployed =>
        sampleCheck sampleAdd (samplePast ++ sampleLater) deployed &&
          Outbox.onlyDispatches [sampleCreate, sampleAdd] deployed.1) = true := by
    decide +kernel
  obtain ⟨deployed, whole, checkedWhole⟩ := (Option.any_eq_true _ _).mp evaluated
  obtain ⟨checked, only⟩ := Bool.and_eq_true_iff.mp checkedWhole
  obtain ⟨settled, accepted⟩ := sample_settled checked
  have ran : run (next Commands.sampleCodec sampleRuntime) middle sampleLater =
      some deployed := by
    rw [run_append, began] at whole
    exact whole
  have fresh : ∀ other, Outbox.Submitted Commands.sampleCodec middle.1 other →
      other.messageId ≠ sampleAdd.messageId := by
    intro other submitted
    rw [List.mem_singleton.mp (Outbox.mem_of_onlyDispatches onlyCreate submitted)]
    decide
  refine ⟨middle, deployed, began, ran, accepted, ?_⟩
  exact accepted_addition_takes_effect sampleCodec_roundTrips began ran settled present fresh
    accepted rfl rfl rfl (by decide) rfl (by decide)
    (sample_keeps only (by decide) (by decide) _ _) (sample_keeps only (by decide) (by decide) _ _)

end FProto.Deployment.Membership
