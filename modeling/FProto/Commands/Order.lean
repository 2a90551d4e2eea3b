import FProto.Commands.Handler
import FProto.Dispatcher.Dispatch
import FProto.Foundation.KeyedOrder

/-!
Owns the order in which group commands take effect. Commands are routed to one
topic with their type as the partition key, so Kafka keeps the order of
commands of one type and no other.

**Main result.** Every processing order of a sequence of command records leaves
the rows of the dispatch order exactly when the sequence is free of conflicts:
`processing_order_irrelevant_iff`.
-/

namespace FProto.Commands

open FProto.Foundation
open FProto.Protocol
open FProto.Kafka
open FProto.Dispatcher
open FProto.Groups

/-- What decides the partition of a record. -/
def recordKey (record : Outbox.NewEntry) : Bytes × Slice :=
  (record.topic, record.partitionKey)

/-- The record is the outbox entry of a dispatched command. -/
def CommandRecord (codec : ProtoCodec) (record : Outbox.NewEntry) : Prop :=
  ∃ message command, message.body = some (.command (some command)) ∧
    newEntry codec (some message) = .ok record ∧ codec.RoundTrips message

/-- The handler consumes one record. -/
def consume (codec : ProtoCodec) (runtime : Runtime) (db : Database) (record : Outbox.NewEntry) :
    Database :=
  (handle codec runtime db { topic := record.topic, value := some record.payload }).2

def consumeAll (codec : ProtoCodec) (runtime : Runtime) (db : Database)
    (records : List Outbox.NewEntry) : Database :=
  records.foldl (consume codec runtime) db

/-! ### The actions of records -/

/-- The action of the command a record carries. -/
def recordAction (codec : ProtoCodec) (runtime : Runtime) (record : Outbox.NewEntry) : Action :=
  match codec.unmarshal record.payload with
  | .error _ => .nothing
  | .ok message =>
      match message.body with
      | some (.command (some command)) => action runtime command
      | _ => .nothing

theorem consume_eq_apply (codec : ProtoCodec) (runtime : Runtime) (db : Database)
    (record : Outbox.NewEntry) :
    consume codec runtime db record = apply db (recordAction codec runtime record) :=
  handle_database codec runtime db { topic := record.topic, value := some record.payload }

theorem consumeAll_eq_applyAll (codec : ProtoCodec) (runtime : Runtime) (db : Database)
    (records : List Outbox.NewEntry) :
    consumeAll codec runtime db records =
      applyAll db (records.map (recordAction codec runtime)) := by
  have steps : consume codec runtime = fun db record =>
      apply db (recordAction codec runtime record) :=
    funext fun db => funext (consume_eq_apply codec runtime db)
  rw [consumeAll, applyAll, List.foldl_map, steps]

/-- The key under which the commands of one type are produced. -/
def commandKey (type : CommandType) : Bytes × Slice :=
  (topicCommands, some (commandTypeString type))

/-- A command record carries the action of a command, under the key of its
type. -/
theorem CommandRecord.action_key {codec : ProtoCodec} {record : Outbox.NewEntry}
    (command : CommandRecord codec record) (runtime : Runtime) :
    ∃ command, recordAction codec runtime record = action runtime command ∧
      recordKey record = commandKey command.type := by
  obtain ⟨message, command, body, built, roundTrips⟩ := command
  obtain ⟨route, routed, marshalled, -, topic, key⟩ := newEntry_ok built
  have read := roundTrips record.payload marshalled
  have wireBody : message.wire.body = some (.command (some command.wire)) := by
    simp [AppMessage.wire, body, Body.wire]
  have route_eq : route = ⟨topicCommands, some (commandTypeString command.type)⟩ := by
    simp only [routeMessage, body, routeCommand, Except.ok.injEq] at routed
    exact routed.symm
  refine ⟨command.wire, ?_, ?_⟩
  · simp only [recordAction, read, wireBody]
  · rw [recordKey, topic, key, route_eq]
    rfl

/-! ### Which type an action comes from -/

theorem createAction_cases (runtime : Runtime) (command : Command) :
    createAction runtime command = .nothing ∨
      ∃ groupId name settings, createAction runtime command = .create groupId name settings := by
  unfold createAction
  split
  · exact .inl rfl
  · split
    · exact .inl rfl
    · split
      · exact .inr ⟨_, _, _, rfl⟩
      · exact .inl rfl

theorem memberAction_cases (command : Command)
    (act : Bytes → (userId : Bytes) → userId ≠ [] → Action) :
    memberAction command act = .nothing ∨
      ∃ groupId userId named, memberAction command act = act groupId userId named := by
  unfold memberAction
  split
  · exact .inl rfl
  · split
    · exact .inl rfl
    · next named => exact .inr ⟨_, _, named, rfl⟩

theorem updateAction_cases (runtime : Runtime) (command : Command) :
    updateAction runtime command = .nothing ∨
      ∃ groupId settings, updateAction runtime command = .update groupId settings := by
  unfold updateAction
  split
  · exact .inl rfl
  · split
    · exact .inr ⟨_, _, rfl⟩
    · split
      · exact .inl rfl
      · exact .inr ⟨_, _, rfl⟩

/-- The command types that ask for an action. -/
def AskedBy : Action → CommandType → Prop
  | .create .., type => type = .createGroup
  | .add .., type => type = .addMember
  | .remove .., type => type = .removeMember ∨ type = .banMember
  | .update .., type => type = .updateGroupSettings
  | .nothing, _ => True

theorem action_askedBy (runtime : Runtime) (command : Command) :
    AskedBy (action runtime command) command.type := by
  unfold action
  cases type : command.type with
  | createGroup =>
      rcases createAction_cases runtime command with nothing | ⟨groupId, name, settings, found⟩
      · rw [nothing]; trivial
      · rw [found]; rfl
  | addMember =>
      rcases memberAction_cases command .add with nothing | ⟨groupId, userId, named, found⟩
      · rw [nothing]; trivial
      · rw [found]; rfl
  | removeMember =>
      rcases memberAction_cases command .remove with nothing | ⟨groupId, userId, named, found⟩
      · rw [nothing]; trivial
      · rw [found]; exact .inl rfl
  | updateGroupSettings =>
      rcases updateAction_cases runtime command with nothing | ⟨groupId, settings, found⟩
      · rw [nothing]; trivial
      · rw [found]; rfl
  | banMember =>
      rcases memberAction_cases command .remove with nothing | ⟨groupId, userId, named, found⟩
      · rw [nothing]; trivial
      · rw [found]; exact .inr rfl
  | deleteMessage => trivial
  | unspecified => trivial
  | unrecognized number unnamed => trivial

section Records

variable {codec : ProtoCodec} {runtime : Runtime} {records : List Outbox.NewEntry}

/-- A record with an action is produced under the key of a type that asks for
it. -/
theorem CommandRecord.askedBy {record : Outbox.NewEntry} (command : CommandRecord codec record)
    (runtime : Runtime) :
    ∃ type, AskedBy (recordAction codec runtime record) type ∧
      recordKey record = commandKey type := by
  obtain ⟨command, asks, key⟩ := command.action_key runtime
  exact ⟨command.type, asks ▸ action_askedBy runtime command, key⟩

theorem recordKey_of_create {record : Outbox.NewEntry} (command : CommandRecord codec record)
    {groupId : Bytes} (creates : (createOf groupId (recordAction codec runtime record)).isSome) :
    recordKey record = commandKey .createGroup := by
  obtain ⟨type, asks, key⟩ := command.askedBy runtime
  obtain ⟨⟨name, settings⟩, found⟩ := Option.isSome_iff_exists.mp creates
  rw [createOf_eq_some_iff.mp found] at asks
  rw [key, (asks : type = .createGroup)]

theorem recordKey_of_update {record : Outbox.NewEntry} (command : CommandRecord codec record)
    {groupId : Bytes} (updates : (updateOf groupId (recordAction codec runtime record)).isSome) :
    recordKey record = commandKey .updateGroupSettings := by
  obtain ⟨type, asks, key⟩ := command.askedBy runtime
  obtain ⟨settings, found⟩ := Option.isSome_iff_exists.mp updates
  rw [updateOf_eq_some_iff.mp found] at asks
  rw [key, (asks : type = .updateGroupSettings)]

theorem recordKey_of_add {record : Outbox.NewEntry} (command : CommandRecord codec record)
    {groupId userId : Bytes} {named : userId ≠ []}
    (adds : recordAction codec runtime record = .add groupId userId named) :
    recordKey record = commandKey .addMember := by
  obtain ⟨type, asks, key⟩ := command.askedBy runtime
  rw [adds] at asks
  rw [key, (asks : type = .addMember)]

theorem recordKey_of_remove {record : Outbox.NewEntry} (command : CommandRecord codec record)
    {groupId userId : Bytes} {named : userId ≠ []}
    (removes : recordAction codec runtime record = .remove groupId userId named) :
    ¬recordKey record = commandKey .addMember := by
  obtain ⟨type, asks, key⟩ := command.askedBy runtime
  rw [removes] at asks
  rcases (asks : type = .removeMember ∨ type = .banMember) with rfl | rfl
  · rw [key]; decide
  · rw [key]; decide

/-! ### Reading actions off the records -/

theorem firstCreate_map (groupId : Bytes) (records : List Outbox.NewEntry) :
    firstCreate groupId (records.map (recordAction codec runtime)) =
      (records.filterMap fun record => createOf groupId (recordAction codec runtime record)).head? := by
  rw [firstCreate, List.filterMap_map]
  rfl

theorem lastUpdate_map (groupId : Bytes) (records : List Outbox.NewEntry) :
    lastUpdate groupId (records.map (recordAction codec runtime)) =
      (records.filterMap fun record =>
        updateOf groupId (recordAction codec runtime record)).getLast? := by
  rw [lastUpdate, List.filterMap_map]
  rfl

/-- Commands without conflicts: creations and updates each have one key, so all
orders agree on the first and the last of them. -/
theorem consumeAll_eq_of_conflictFree (commands : ∀ record ∈ records, CommandRecord codec record)
    (free : ConflictFree (records.map (recordAction codec runtime)))
    {processed : List Outbox.NewEntry} (order : KeyedOrder recordKey records processed)
    (db : Database) :
    consumeAll codec runtime db processed = consumeAll codec runtime db records := by
  rw [consumeAll_eq_applyAll, consumeAll_eq_applyAll]
  refine applyAll_eq_of_agree free (fun groupId => ?_) (fun groupId => ?_) (fun action => ?_) db
  · rw [firstCreate_map, firstCreate_map,
      order.filterMap_eq fun record member => recordKey_of_create (commands record member)]
  · rw [lastUpdate_map, lastUpdate_map,
      order.filterMap_eq fun record member => recordKey_of_update (commands record member)]
  · exact (order.permuted.map _).mem_iff

/-- Creations are not among the records of another key, and all of them are among
the rest. -/
theorem firstCreate_split (commands : ∀ record ∈ records, CommandRecord codec record)
    (runtime : Runtime) (key : Bytes × Slice) (other : commandKey .createGroup ≠ key)
    (groupId : Bytes) :
    firstCreate groupId ((records.filter fun record => recordKey record = key).map
        (recordAction codec runtime)) = none ∧
      firstCreate groupId ((records.filter fun record => ¬recordKey record = key).map
          (recordAction codec runtime)) =
        firstCreate groupId (records.map (recordAction codec runtime)) := by
  have elsewhere : ∀ record ∈ records,
      (createOf groupId (recordAction codec runtime record)).isSome → ¬recordKey record = key := by
    intro record member creates
    rw [recordKey_of_create (commands record member) creates]
    exact other
  rw [firstCreate_map, firstCreate_map, firstCreate_map]
  constructor
  · rw [filterMap_filter_eq_nil (by simpa using elsewhere)]
    rfl
  · rw [filterMap_filter_of_imp (by simpa using elsewhere)]

/-- Updates are all among the records of their key. -/
theorem lastUpdate_split (commands : ∀ record ∈ records, CommandRecord codec record)
    (runtime : Runtime) (groupId : Bytes) :
    lastUpdate groupId ((records.filter fun record =>
        recordKey record = commandKey .updateGroupSettings).map (recordAction codec runtime)) =
        lastUpdate groupId (records.map (recordAction codec runtime)) ∧
      lastUpdate groupId ((records.filter fun record =>
        ¬recordKey record = commandKey .updateGroupSettings).map
          (recordAction codec runtime)) = none := by
  have here : ∀ record ∈ records,
      (updateOf groupId (recordAction codec runtime record)).isSome →
        recordKey record = commandKey .updateGroupSettings :=
    fun record member => recordKey_of_update (commands record member)
  rw [lastUpdate_map, lastUpdate_map, lastUpdate_map]
  constructor
  · rw [filterMap_filter_of_imp (by simpa using here)]
  · rw [filterMap_filter_eq_nil (by simpa using here)]
    rfl

/-! ### When no order shows -/

section Irrelevant

variable (irrelevant : ∀ db processed, KeyedOrder recordKey records processed →
  consumeAll codec runtime db processed = consumeAll codec runtime db records)
include irrelevant

/-- Orders that put the records of one key first or last show every conflict of
that key. -/
theorem swap_of_irrelevant (key : Bytes × Slice) (db : Database) :
    let left := records.filter fun record => recordKey record = key
    let right := records.filter fun record => ¬recordKey record = key
    applyAll db (left.map (recordAction codec runtime) ++ right.map (recordAction codec runtime)) =
      applyAll db (right.map (recordAction codec runtime) ++
        left.map (recordAction codec runtime)) := by
  intro left right
  rw [← List.map_append, ← List.map_append, ← consumeAll_eq_applyAll, ← consumeAll_eq_applyAll,
    irrelevant db _ (KeyedOrder.first recordKey key records),
    irrelevant db _ (KeyedOrder.last recordKey key records)]

/-- If no order shows, a user who is added is not removed, and the group is not
created. -/
theorem added_of_irrelevant (commands : ∀ record ∈ records, CommandRecord codec record)
    {groupId userId : Bytes} {named : userId ≠ []}
    (added : .add groupId userId named ∈ records.map (recordAction codec runtime)) :
    .remove groupId userId named ∉ records.map (recordAction codec runtime) ∧
      firstCreate groupId (records.map (recordAction codec runtime)) = none := by
  have same := swap_of_irrelevant irrelevant (commandKey .addMember)
  obtain ⟨uncreated, created⟩ := firstCreate_split commands runtime
    (commandKey .addMember) (by decide) groupId
  have addedFirst : .add groupId userId named ∈
      (records.filter fun record => recordKey record = commandKey .addMember).map
        (recordAction codec runtime) := by
    obtain ⟨record, member, adds⟩ := List.mem_map.mp added
    refine List.mem_map.mpr ⟨record, List.mem_filter.mpr ⟨member, ?_⟩, adds⟩
    exact decide_eq_true (recordKey_of_add (commands record member) adds)
  have keptFirst : .remove groupId userId named ∉
      (records.filter fun record => recordKey record = commandKey .addMember).map
        (recordAction codec runtime) := by
    intro removed
    obtain ⟨record, member, removes⟩ := List.mem_map.mp removed
    obtain ⟨there, key⟩ := List.mem_filter.mp member
    exact recordKey_of_remove (commands record there) removes (of_decide_eq_true key)
  have notAddedLast : .add groupId userId named ∉
      (records.filter fun record => ¬recordKey record = commandKey .addMember).map
        (recordAction codec runtime) := by
    intro addedLast
    obtain ⟨record, member, adds⟩ := List.mem_map.mp addedLast
    obtain ⟨there, key⟩ := List.mem_filter.mp member
    exact of_decide_eq_true key (recordKey_of_add (commands record there) adds)
  constructor
  · intro removed
    obtain ⟨record, member, removes⟩ := List.mem_map.mp removed
    have removedLast : record ∈ records.filter fun record =>
        ¬recordKey record = commandKey .addMember :=
      List.mem_filter.mpr
        ⟨member, decide_eq_true (recordKey_of_remove (commands record member) removes)⟩
    exact not_removed_of_swap same addedFirst keptFirst notAddedLast
      (List.mem_map.mpr ⟨record, removedLast, removes⟩)
  · rw [← created]
    exact not_created_of_swap same addedFirst keptFirst notAddedLast uncreated

theorem conflictFree_of_irrelevant (commands : ∀ record ∈ records, CommandRecord codec record) :
    ConflictFree (records.map (recordAction codec runtime)) := by
  refine ⟨fun groupId userId named added => ?_, fun groupId userId named added => ?_,
    fun groupId name settings updated created last => ?_⟩
  · exact (added_of_irrelevant irrelevant commands added).1
  · exact (added_of_irrelevant irrelevant commands added).2
  · have same := swap_of_irrelevant irrelevant (commandKey .updateGroupSettings)
    obtain ⟨uncreated, createdLast⟩ := firstCreate_split commands runtime
      (commandKey .updateGroupSettings) (by decide) groupId
    obtain ⟨lastFirst, noUpdate⟩ := lastUpdate_split commands runtime groupId
    exact settings_eq_of_swap same uncreated (lastFirst.trans last) (createdLast.trans created)
      noUpdate

end Irrelevant

end Records

/-- **Main result.** Every processing order that Kafka admits leaves the rows of
the dispatch order exactly when the commands are free of conflicts. -/
theorem processing_order_irrelevant_iff (codec : ProtoCodec) (runtime : Runtime)
    (records : List Outbox.NewEntry) (commands : ∀ record ∈ records, CommandRecord codec record) :
    (∀ db processed, KeyedOrder recordKey records processed →
      consumeAll codec runtime db processed = consumeAll codec runtime db records) ↔
      ConflictFree (records.map (recordAction codec runtime)) :=
  ⟨fun irrelevant => conflictFree_of_irrelevant irrelevant commands, fun free _ _ order =>
    consumeAll_eq_of_conflictFree commands free order _⟩

/-! A group is created, one user is added to it and another one banned. -/

def sampleSettings : Bytes := utf8 "\x7b\"name\":\"g\"\x7d"

/-- Reads the sample settings and accepts every name. -/
def sampleRuntime : Runtime where
  groupName payload :=
    if payload = sampleSettings then .ok (utf8 "g") else .error "unexpected end of JSON input"
  jsonb payload :=
    if payload = sampleSettings then .ok (utf8 "\x7b\"name\": \"g\"\x7d")
    else .error "invalid input syntax for type json"
  text := .ok

def sampleMessage (messageId : UInt8) (type : CommandType) (payload : Bytes) : AppMessage where
  messageId := some [messageId]
  body := some (.command (some { type, targetId := some [7], payload := some payload }))

def sampleEncoding (messageId number : UInt8) (payload : Bytes) : Bytes :=
  [0x0a, 1, messageId, 0x22, UInt8.ofNat (7 + payload.length), 0x08, number, 0x12, 1, 7,
    0x1a, UInt8.ofNat payload.length] ++ payload

def sampleCodec : ProtoCodec :=
  .ofList
    [(sampleMessage 1 .createGroup sampleSettings, sampleEncoding 1 1 sampleSettings),
      (sampleMessage 2 .addMember [9], sampleEncoding 2 2 [9]),
      (sampleMessage 3 .banMember [8], sampleEncoding 3 5 [8])] []

def createRecord : Outbox.NewEntry :=
  ⟨some [1], topicCommands, some (utf8 "CREATE_GROUP"), sampleEncoding 1 1 sampleSettings⟩

def addRecord : Outbox.NewEntry :=
  ⟨some [2], topicCommands, some (utf8 "ADD_MEMBER"), sampleEncoding 2 2 [9]⟩

def banRecord : Outbox.NewEntry :=
  ⟨some [3], topicCommands, some (utf8 "BAN_MEMBER"), sampleEncoding 3 5 [8]⟩

/-- A sample message is accepted with its record. -/
theorem sample_commandRecord (messageId : UInt8) (type : CommandType) (payload : Bytes)
    {record : Outbox.NewEntry}
    (built : newEntry sampleCodec (some (sampleMessage messageId type payload)) = .ok record)
    (read : sampleCodec.unmarshal record.payload =
      .ok (sampleMessage messageId type payload).wire) : CommandRecord sampleCodec record := by
  refine ⟨sampleMessage messageId type payload, _, rfl, built, fun encoded marshalled => ?_⟩
  obtain ⟨_, _, same, _⟩ := newEntry_ok built
  obtain rfl := Except.ok.inj (same.symm.trans marshalled)
  exact read

theorem createRecord_commandRecord : CommandRecord sampleCodec createRecord :=
  sample_commandRecord 1 .createGroup sampleSettings (by decide +kernel) (by decide +kernel)

theorem addRecord_commandRecord : CommandRecord sampleCodec addRecord :=
  sample_commandRecord 2 .addMember [9] (by decide +kernel) (by decide +kernel)

theorem banRecord_commandRecord : CommandRecord sampleCodec banRecord :=
  sample_commandRecord 3 .banMember [8] (by decide +kernel) (by decide +kernel)

/-- The creation and the ban do not meet: every order leaves the same rows. -/
theorem processing_order_irrelevant_create_ban :
    ConflictFree ([createRecord, banRecord].map (recordAction sampleCodec sampleRuntime)) ∧
      ∀ db processed, KeyedOrder recordKey [createRecord, banRecord] processed →
        consumeAll sampleCodec sampleRuntime db processed =
          consumeAll sampleCodec sampleRuntime db [createRecord, banRecord] := by
  have commands : ∀ record ∈ [createRecord, banRecord], CommandRecord sampleCodec record := by
    simp [createRecord_commandRecord, banRecord_commandRecord]
  have actions : [createRecord, banRecord].map (recordAction sampleCodec sampleRuntime) =
      [.create [7] (utf8 "g") (some (utf8 "\x7b\"name\": \"g\"\x7d")),
        .remove [7] [8] (by simp)] := by
    decide +kernel
  have free : ConflictFree
      ([createRecord, banRecord].map (recordAction sampleCodec sampleRuntime)) := by
    rw [actions]
    refine ⟨fun _ _ _ added => ?_, fun _ _ _ added => ?_, fun _ _ _ _ _ last => ?_⟩
    · simp at added
    · simp at added
    · cases last
  exact ⟨free, (processing_order_irrelevant_iff sampleCodec sampleRuntime _ commands).mpr free⟩

/-- The addition may be processed before the creation, and then the member is
missing. -/
theorem added_before_created :
    (∀ record ∈ [createRecord, addRecord], CommandRecord sampleCodec record) ∧
      KeyedOrder recordKey [createRecord, addRecord] [addRecord, createRecord] ∧
      (consumeAll sampleCodec sampleRuntime .empty [createRecord, addRecord]).members
        [7] [9] = some .member ∧
      (consumeAll sampleCodec sampleRuntime .empty [addRecord, createRecord]).members
        [7] [9] = none := by
  have order := KeyedOrder.first recordKey (commandKey .addMember) [createRecord, addRecord]
  have swapped : [createRecord, addRecord].filter
        (fun record => recordKey record = commandKey .addMember) ++
      [createRecord, addRecord].filter (fun record => ¬recordKey record = commandKey .addMember) =
        [addRecord, createRecord] := by
    decide +kernel
  rw [swapped] at order
  refine ⟨?_, order, ?_, ?_⟩
  · simp [createRecord_commandRecord, addRecord_commandRecord]
  · decide +kernel
  · decide +kernel

end FProto.Commands
