import FProto.Sessions.Effects
import Mathlib.Data.List.Nodup
import Mathlib.Logic.Function.Basic

/-!
Owns what `RedisStore` is for: a map from session ids to sessions with their
connections. The abstract map is stated on its own; the store's hashes and sets
represent it after every sequence of operations that creates ids that are not
there and changes ids that are.
-/

namespace FProto.Sessions

open FProto.Foundation
open RedisStore (statusField createFields)

/-! ### The abstract map -/

/-- A connection whose texts JSON can hold. -/
structure Utf8Connection extends NewConnection where
  transportValid : Utf8.valid transport = true
  gatewayValid : Utf8.valid gatewayID = true
  remoteValid : Utf8.valid remoteAddr = true

/-- A session as a value. Times are whole seconds. -/
structure AbstractSession where
  userID : Bytes
  deviceID : Bytes
  status : Status
  cryptoState : Bytes
  createdAt : Int64
  lastActive : Int64
  expiresAt : Int64
  connections : Bytes → Option Utf8Connection

abbrev SessionMap := Bytes → Option AbstractSession

/-- The session belongs to the user. -/
def SessionMap.Owns (map : SessionMap) (userID sessionID : Bytes) : Prop :=
  ∃ session, map sessionID = some session ∧ session.userID = userID

/-- The operations of the store that write. The time of `UpdateLastActive` is the
clock's. -/
inductive StoreOp where
  | create (session : NewSession)
  | updateStatus (sessionID : Bytes) (status : Status)
  | updateCryptoState (sessionID : Bytes) (cryptoState : Slice)
  | updateLastActive (sessionID : Bytes) (now : Int64)
  | delete (sessionID : Bytes)
  | addConnection (sessionID : Bytes) (conn : Utf8Connection)
  | removeConnection (sessionID connectionID : Bytes)

namespace StoreOp

/-- The session that is written to. -/
def target : StoreOp → Bytes
  | .create session => session.sessionID
  | .updateStatus sessionID _ => sessionID
  | .updateCryptoState sessionID _ => sessionID
  | .updateLastActive sessionID _ => sessionID
  | .delete sessionID => sessionID
  | .addConnection sessionID _ => sessionID
  | .removeConnection sessionID _ => sessionID

/-- What becomes of the session that is written to. -/
def change : StoreOp → Option AbstractSession → Option AbstractSession
  | .create session, _ =>
      some
        { userID := session.userID.bytes
          deviceID := session.deviceID.bytes
          status := session.status
          cryptoState := session.cryptoState.bytes
          createdAt := session.createdAt.unix
          lastActive := session.lastActive.unix
          expiresAt := session.expiresAt.unix
          connections := fun _ => none }
  | .updateStatus _ status, old => old.map fun session => { session with status }
  | .updateCryptoState _ cryptoState, old =>
      old.map fun session => { session with cryptoState := cryptoState.bytes }
  | .updateLastActive _ now, old => old.map fun session => { session with lastActive := now }
  | .delete _, _ => none
  | .addConnection _ conn, old => old.map fun session =>
      { session with
        connections := Function.update session.connections conn.connectionID (some conn) }
  | .removeConnection _ connectionID, old => old.map fun session =>
      { session with connections := Function.update session.connections connectionID none }

/-- No other session is affected. -/
def apply (map : SessionMap) (op : StoreOp) : SessionMap :=
  Function.update map op.target (op.change (map op.target))

/-- Ids that are not there are created, ids that are there are changed. -/
def Admits (map : SessionMap) : StoreOp → Prop
  | .create session => map session.sessionID = none
  | op => map op.target ≠ none

end StoreOp

/-! ### The store -/

/-- The code of an operation. -/
def StoreOp.code : StoreOp → Code (Except Bytes Unit)
  | .create session => RedisStore.create session
  | .updateStatus sessionID status => RedisStore.updateStatus sessionID status
  | .updateCryptoState sessionID cryptoState => RedisStore.updateCryptoState sessionID cryptoState
  | .updateLastActive sessionID _ => RedisStore.updateLastActive sessionID
  | .delete sessionID => RedisStore.delete ConnJSON.unmarshal sessionID
  | .addConnection sessionID conn => RedisStore.addConnection sessionID conn.toNewConnection
  | .removeConnection sessionID connectionID =>
      RedisStore.removeConnection sessionID connectionID

/-- Redis answers every command. -/
def StoreOp.choices : StoreOp → List Choice
  | .create _ => [.ok, .ok, .ok]
  | .updateLastActive _ now => [.time now.toInt, .ok, .ok]
  | .delete _ => [.ok, .ok, .ok, .ok, .ok]
  | _ => [.ok]

/-- An operation that returns no error. -/
def StoreOp.next (state : State) (op : StoreOp) : Option State :=
  match op.code.run exec op.choices state with
  | some (.ok _, after) => some after
  | _ => none

/-- The session that `Get` returns. -/
def AbstractSession.toSession (session : AbstractSession) (sessionID : Bytes)
    (connections : List Connection) : Session where
  sessionID := sessionID
  userID := session.userID
  deviceID := session.deviceID
  status := session.status
  cryptoState := session.cryptoState
  createdAt := session.createdAt.toInt
  lastActive := session.lastActive.toInt
  expiresAt := session.expiresAt.toInt
  connections := connections

/-- The list has every connection of the map once, in any order. -/
def Enumerates (connections : List Connection) (stored : Bytes → Option Utf8Connection) : Prop :=
  (connections.map Connection.connectionID).Nodup ∧
    ∀ conn, conn ∈ connections ↔
      (stored conn.connectionID).map (fun stored => stored.toNewConnection.toConnJSON) =
        some conn.toConnJSON

def SessionMap.connections (map : SessionMap) (sessionID connectionID : Bytes) :
    Option Utf8Connection :=
  (map sessionID).bind fun session => session.connections connectionID

/-- What the store reads back, when Redis answers, is what the map has. -/
structure Observes (state : State) (map : SessionMap) : Prop where
  get : ∀ sessionID session, map sessionID = some session → ∃ connections,
    (RedisStore.get ConnJSON.unmarshal sessionID).run exec [.ok, .ok] state =
        some (.ok (session.toSession sessionID connections), state) ∧
      Enumerates connections session.connections
  getAbsent : ∀ sessionID, map sessionID = none →
    (RedisStore.get ConnJSON.unmarshal sessionID).run exec [.ok] state =
      some (.error (utf8 "session not found: " ++ hexEncode sessionID), state)
  getConnections : ∀ sessionID, ∃ connections,
    (RedisStore.getConnections ConnJSON.unmarshal sessionID).run exec [.ok] state =
        some (.ok connections, state) ∧
      Enumerates connections (map.connections sessionID)
  getUserSessions : ∀ userID, ∃ ids,
    (RedisStore.getUserSessions userID).run exec [.ok] state = some (.ok ids, state) ∧
      ids.Nodup ∧ ∀ sessionID, sessionID ∈ ids ↔ map.Owns userID sessionID

/-! ### The representation -/

/-- The fields of a session's record. -/
inductive RecordField where
  | userID
  | deviceID
  | status
  | cryptoState
  | createdAt
  | lastActive
  | expiresAt
deriving DecidableEq

def RecordField.name : RecordField → String
  | .userID => "user_id"
  | .deviceID => "device_id"
  | .status => "status"
  | .cryptoState => "crypto_state"
  | .createdAt => "created_at"
  | .lastActive => "last_active"
  | .expiresAt => "expires_at"

/-- The text in a field. -/
def AbstractSession.text (session : AbstractSession) : RecordField → Bytes
  | .userID => hexEncode session.userID
  | .deviceID => hexEncode session.deviceID
  | .status => session.status.text
  | .cryptoState => hexEncode session.cryptoState
  | .createdAt => decimalInt session.createdAt.toInt
  | .lastActive => decimalInt session.lastActive.toInt
  | .expiresAt => decimalInt session.expiresAt.toInt

theorem RecordField.utf8_name_ne {field other : RecordField} (different : other ≠ field) :
    utf8 other.name ≠ utf8 field.name := by
  revert different
  cases field <;> cases other <;> decide

/-- The record and the connection hash of a session. -/
structure Holds (record conns : Hash) (session : AbstractSession) : Prop where
  present : record ≠ []
  fields : ∀ field : RecordField, record.field field.name = session.text field
  distinct : conns.Distinct
  connections : ∀ connectionID, conns.get connectionID =
    (session.connections connectionID).map fun conn => conn.toNewConnection.toConnJSON.marshal

def RepresentsAt (record conns : Hash) : Option AbstractSession → Prop
  | none => record = [] ∧ conns = []
  | some session => Holds record conns session

structure Represents (state : State) (map : SessionMap) : Prop where
  sessions : ∀ sessionID, RepresentsAt (state.hashes (sessionKey sessionID))
    (state.hashes (connKey sessionID)) (map sessionID)
  index : ∀ userID member, member ∈ state.sets (userSessionsKey userID) ↔
    ∃ sessionID, member = hexEncode sessionID ∧ map.Owns userID sessionID
  distinct : ∀ key, (state.sets key).Nodup

theorem Represents.holds {state : State} {map : SessionMap} {sessionID : Bytes}
    {session : AbstractSession} (represents : Represents state map)
    (stored : map sessionID = some session) :
    Holds (state.hashes (sessionKey sessionID)) (state.hashes (connKey sessionID)) session := by
  have here := represents.sessions sessionID
  rw [stored] at here
  exact here

/-! ### What is read back -/

theorem Utf8Connection.unmarshal_marshal (conn : Utf8Connection) :
    ConnJSON.unmarshal conn.toNewConnection.toConnJSON.marshal =
      some conn.toNewConnection.toConnJSON := by
  rw [ConnJSON.unmarshal_stored]
  simp only [ConnJSON.toValid, NewConnection.toConnJSON, Utf8.toValid_of_valid conn.transportValid,
    Utf8.toValid_of_valid conn.gatewayValid, Utf8.toValid_of_valid conn.remoteValid]

theorem Holds.ofHash {record conns : Hash} {session : AbstractSession}
    (holds : Holds record conns session) (sessionID : Bytes) (connections : List Connection) :
    Session.ofHash sessionID record connections = session.toSession sessionID connections := by
  have time : ∀ value : Int64, parseInt (decimalInt value.toInt) = value.toInt := fun value =>
    parseInt_decimalInt value.le_toInt (Int.le_of_lt_add_one value.toInt_lt)
  have user := holds.fields .userID
  have device := holds.fields .deviceID
  have status := holds.fields .status
  have crypto := holds.fields .cryptoState
  have created := holds.fields .createdAt
  have active := holds.fields .lastActive
  have expires := holds.fields .expiresAt
  simp only [RecordField.name, AbstractSession.text]
    at user device status crypto created active expires
  simp only [Session.ofHash, user, device, status, crypto, created, active, expires,
    hexDecodeString_hexEncode, Status.ofText_text, time, AbstractSession.toSession]

/-- The connections that are decoded keep their ids. -/
theorem connectionIDs_sublist (conns : Hash) :
    ((decodedConnections conns).map Connection.connectionID).Sublist (conns.map Prod.fst) := by
  unfold decodedConnections
  induction conns with
  | nil => exact List.Sublist.refl _
  | cons entry conns inductionHypothesis =>
      obtain ⟨connectionID, raw⟩ := entry
      cases decoded : ConnJSON.unmarshal raw with
      | none => simpa [decoded] using inductionHypothesis.cons _
      | some fields => simpa [decoded] using inductionHypothesis

theorem enumerates_of_hash {conns : Hash} {stored : Bytes → Option Utf8Connection}
    (distinct : conns.Distinct)
    (connections : ∀ connectionID, conns.get connectionID =
      (stored connectionID).map fun conn => conn.toNewConnection.toConnJSON.marshal) :
    Enumerates (decodedConnections conns) stored := by
  refine ⟨distinct.sublist (connectionIDs_sublist conns), fun conn => ?_⟩
  rw [decodedConnections, List.mem_filterMap]
  constructor
  · rintro ⟨⟨connectionID, raw⟩, member, decoded⟩
    obtain ⟨fields, unmarshalled, rfl⟩ := Option.map_eq_some_iff.mp decoded
    have found := (Hash.mem_iff_get distinct _ _).mp member
    rw [connections] at found
    obtain ⟨original, isStored, rfl⟩ := Option.map_eq_some_iff.mp found
    rw [original.unmarshal_marshal] at unmarshalled
    rw [isStored]
    exact unmarshalled
  · intro isStored
    obtain ⟨original, found, same⟩ := Option.map_eq_some_iff.mp isStored
    refine ⟨(conn.connectionID, original.toNewConnection.toConnJSON.marshal), ?_, ?_⟩
    · rw [Hash.mem_iff_get distinct, connections, found]
      rfl
    · dsimp only
      rw [original.unmarshal_marshal, same]
      rfl

theorem RepresentsAt.stored {record conns : Hash} {value : Option AbstractSession}
    (represents : RepresentsAt record conns value) :
    conns.Distinct ∧ ∀ connectionID, conns.get connectionID =
      (value.bind fun session => session.connections connectionID).map
        fun conn => conn.toNewConnection.toConnJSON.marshal := by
  cases value with
  | none =>
      obtain ⟨-, rfl⟩ := represents
      exact ⟨Hash.distinct_nil, fun _ => rfl⟩
  | some session => exact ⟨represents.distinct, represents.connections⟩

theorem Represents.observes {state : State} {map : SessionMap} (represents : Represents state map) :
    Observes state map where
  get sessionID session found := by
    have holds := represents.holds found
    refine ⟨state.connections sessionID, ?_, enumerates_of_hash holds.distinct holds.connections⟩
    rw [get_run holds.present, holds.ofHash]
  getAbsent sessionID absent := by
    have holds := represents.sessions sessionID
    rw [absent] at holds
    simp [RedisStore.get, Program.run, exec, holds.1]
  getConnections sessionID := by
    obtain ⟨distinct, connections⟩ := (represents.sessions sessionID).stored
    exact ⟨state.connections sessionID, rfl, enumerates_of_hash distinct connections⟩
  getUserSessions userID := by
    refine ⟨_, rfl, ?_, fun sessionID => ?_⟩
    · refine List.Nodup.map_on ?_ (represents.distinct _)
      intro first isFirst second isSecond same
      obtain ⟨firstID, rfl, -⟩ := (represents.index userID first).mp isFirst
      obtain ⟨secondID, rfl, -⟩ := (represents.index userID second).mp isSecond
      rw [hexDecodeString_hexEncode, hexDecodeString_hexEncode] at same
      rw [same]
    · rw [List.mem_map]
      constructor
      · rintro ⟨member, isMember, rfl⟩
        obtain ⟨sessionID, rfl, owned⟩ := (represents.index userID member).mp isMember
        rw [hexDecodeString_hexEncode]
        exact owned
      · intro owned
        exact ⟨hexEncode sessionID, (represents.index userID _).mpr ⟨sessionID, rfl, owned⟩,
          hexDecodeString_hexEncode sessionID⟩

/-! ### One operation -/

section Steps

variable {state after : State} {map : SessionMap} {sessionID : Bytes}

/-- An operation on one session. -/
theorem Represents.write (represents : Represents state map) {value : Option AbstractSession}
    (records : ∀ other, other ≠ sessionID →
      after.hashes (sessionKey other) = state.hashes (sessionKey other))
    (conns : ∀ other, other ≠ sessionID →
      after.hashes (connKey other) = state.hashes (connKey other))
    (here : RepresentsAt (after.hashes (sessionKey sessionID)) (after.hashes (connKey sessionID))
      value)
    (index : ∀ userID member, member ∈ after.sets (userSessionsKey userID) ↔
      ∃ other, member = hexEncode other ∧
        SessionMap.Owns (Function.update map sessionID value) userID other)
    (distinct : ∀ key, (after.sets key).Nodup) :
    Represents after (Function.update map sessionID value) := by
  refine ⟨fun other => ?_, index, distinct⟩
  by_cases same : other = sessionID
  · rw [same, Function.update_self]
    exact here
  · rw [Function.update_of_ne same, records other same, conns other same]
    exact represents.sessions other

/-- An operation that changes a session in place. -/
theorem Represents.change (represents : Represents state map) {session changed : AbstractSession}
    (stored : map sessionID = some session) (sameUser : changed.userID = session.userID)
    (records : ∀ other, other ≠ sessionID →
      after.hashes (sessionKey other) = state.hashes (sessionKey other))
    (conns : ∀ other, other ≠ sessionID →
      after.hashes (connKey other) = state.hashes (connKey other))
    (holds : Holds (after.hashes (sessionKey sessionID)) (after.hashes (connKey sessionID)) changed)
    (sets : after.sets = state.sets) :
    Represents after (Function.update map sessionID (some changed)) := by
  have owns : ∀ userID other,
      SessionMap.Owns (Function.update map sessionID (some changed)) userID other ↔
        map.Owns userID other := by
    intro userID other
    unfold SessionMap.Owns
    by_cases same : other = sessionID
    · simp [same, stored, sameUser]
    · rw [Function.update_of_ne same]
  refine represents.write records conns holds ?_ ?_
  · intro userID member
    simp only [sets, owns]
    exact represents.index userID member
  · rw [sets]
    exact represents.distinct

/-- A field of the record is stored. -/
theorem Represents.setField (represents : Represents state map) {session : AbstractSession}
    (stored : map sessionID = some session) (field : RecordField) (changed : AbstractSession)
    (sameUser : changed.userID = session.userID)
    (sameConnections : changed.connections = session.connections)
    (others : ∀ other, other ≠ field → changed.text other = session.text other) :
    Represents (state.setField sessionID (utf8 field.name) (changed.text field))
      (Function.update map sessionID (some changed)) := by
  have holds := represents.holds stored
  have conns : ∀ other, (state.setField sessionID (utf8 field.name) (changed.text field)).hashes
      (connKey other) = state.hashes (connKey other) := fun other =>
    (State.setHash_hashes _ _ _ _).trans (if_neg (connKey_ne_sessionKey _ _))
  have record : (state.setField sessionID (utf8 field.name) (changed.text field)).hashes
      (sessionKey sessionID) =
        (state.hashes (sessionKey sessionID)).set (utf8 field.name) (changed.text field) :=
    (State.setHash_hashes _ _ _ _).trans (if_pos rfl)
  refine represents.change stored sameUser (fun other different => ?_) (fun other _ => conns other)
    ?_ rfl
  · exact (State.setHash_hashes _ _ _ _).trans (if_neg (sessionKey_injective.ne different))
  · rw [record, conns]
    refine ⟨List.cons_ne_nil _ _, fun other => ?_, holds.distinct, ?_⟩
    · by_cases same : other = field
      · rw [same, Hash.field_set_self]
      · rw [Hash.field_set_of_ne _ (RecordField.utf8_name_ne same), others other same]
        exact holds.fields other
    · rw [sameConnections]
      exact holds.connections

/-- The connection hash is stored. -/
theorem Represents.setConns (represents : Represents state map) {session : AbstractSession}
    (stored : map sessionID = some session) {conns : Hash}
    {connections : Bytes → Option Utf8Connection} (distinct : conns.Distinct)
    (same : ∀ connectionID, conns.get connectionID =
      (connections connectionID).map fun conn => conn.toNewConnection.toConnJSON.marshal) :
    Represents (state.setHash (connKey sessionID) conns)
      (Function.update map sessionID (some { session with connections })) := by
  have holds := represents.holds stored
  have records : ∀ other, (state.setHash (connKey sessionID) conns).hashes (sessionKey other) =
      state.hashes (sessionKey other) := fun other =>
    (State.setHash_hashes _ _ _ _).trans (if_neg (connKey_ne_sessionKey _ _).symm)
  refine represents.change stored rfl (fun other _ => records other) (fun other different => ?_) ?_
    rfl
  · exact (State.setHash_hashes _ _ _ _).trans (if_neg (connKey_injective.ne different))
  · rw [records, State.setHash_hashes, if_pos rfl]
    exact ⟨holds.present, holds.fields, distinct, same⟩

theorem Represents.addConnection (represents : Represents state map) {session : AbstractSession}
    (stored : map sessionID = some session) (conn : Utf8Connection) :
    Represents
      (state.setHash (connKey sessionID) ((state.hashes (connKey sessionID)).set conn.connectionID
        conn.toNewConnection.toConnJSON.marshal))
      (Function.update map sessionID (some { session with
        connections := Function.update session.connections conn.connectionID (some conn) })) := by
  have holds := represents.holds stored
  refine represents.setConns stored (holds.distinct.set _ _) fun connectionID => ?_
  by_cases same : connectionID = conn.connectionID
  · rw [same, Hash.get_set_self, Function.update_self]
    rfl
  · rw [Hash.get_set_of_ne _ same, Function.update_of_ne same]
    exact holds.connections connectionID

theorem Represents.removeConnection (represents : Represents state map)
    {session : AbstractSession} (stored : map sessionID = some session) (removed : Bytes) :
    Represents
      (state.setHash (connKey sessionID) ((state.hashes (connKey sessionID)).del removed))
      (Function.update map sessionID (some { session with
        connections := Function.update session.connections removed none })) := by
  have holds := represents.holds stored
  refine represents.setConns stored (holds.distinct.del _) fun connectionID => ?_
  by_cases same : connectionID = removed
  · rw [same, Hash.get_del_self, Function.update_self]
    rfl
  · rw [Hash.get_del_of_ne _ same, Function.update_of_ne same]
    exact holds.connections connectionID

theorem State.nodup_addMember (distinct : ∀ key, (state.sets key).Nodup) (target member key : Bytes) :
    ((state.addMember target member).sets key).Nodup := by
  unfold State.addMember
  split
  · exact distinct key
  · next absent =>
    by_cases same : key = target
    · have notMember : member ∉ state.sets target := by simpa using absent
      simpa [State.setMembers, same, notMember] using distinct target
    · simpa [State.setMembers, same] using distinct key

theorem State.nodup_removeMember (distinct : ∀ key, (state.sets key).Nodup)
    (target member key : Bytes) : ((state.removeMember target member).sets key).Nodup := by
  unfold State.removeMember
  by_cases same : key = target
  · simpa [State.setMembers, same] using (distinct target).filter _
  · simpa [State.setMembers, same] using distinct key

theorem Represents.create (represents : Represents state map) (session : NewSession)
    (fresh : map session.sessionID = none) :
    Represents (state.afterCreate session (.ok ()) (.ok ()))
      (StoreOp.apply map (.create session)) := by
  have holds := represents.sessions session.sessionID
  rw [fresh] at holds
  have otherKey : ∀ other, connKey other ≠ sessionKey session.sessionID :=
    fun other => connKey_ne_sessionKey other session.sessionID
  refine represents.write
    (fun other different => State.afterCreate_of_ne _ _ _ _ (sessionKey_injective.ne different))
    (fun other _ => State.afterCreate_of_ne _ _ _ _ (otherKey other)) ?_ ?_ ?_
  · rw [show StoreOp.target (.create session) = session.sessionID from rfl,
      State.afterCreate_self, State.afterCreate_of_ne _ _ _ _ (otherKey _), holds.2]
    refine ⟨List.cons_ne_nil _ _, fun field => ?_, Hash.distinct_nil, fun _ => rfl⟩
    refine RedisStore.field_create _ session ?_
    cases field <;> simp [createFields, statusField, RecordField.name, AbstractSession.text]
  · intro userID member
    have owns : ∀ other, SessionMap.Owns (StoreOp.apply map (.create session)) userID other ↔
        map.Owns userID other ∨ (other = session.sessionID ∧ userID = session.userID.bytes) := by
      intro other
      by_cases same : other = session.sessionID
      · simp [SessionMap.Owns, StoreOp.apply, StoreOp.target, StoreOp.change, same, fresh, eq_comm]
      · simp [SessionMap.Owns, StoreOp.apply, StoreOp.target, same]
    rw [State.mem_afterCreate, represents.index, userSessionsKey_injective.eq_iff]
    constructor
    · rintro (⟨other, rfl, owned⟩ | ⟨-, rfl, rfl⟩)
      · exact ⟨other, rfl, (owns other).mpr (.inl owned)⟩
      · exact ⟨session.sessionID, rfl, (owns _).mpr (.inr ⟨rfl, rfl⟩)⟩
    · rintro ⟨other, rfl, owned⟩
      rcases (owns other).mp owned with old | ⟨rfl, rfl⟩
      · exact .inl ⟨other, rfl, old⟩
      · exact .inr ⟨rfl, rfl, rfl⟩
  · refine State.nodup_addMember ?_ _ _
    exact represents.distinct

theorem afterDelete_conns (state : State) (sessionID userID other : Bytes) :
    (state.afterDelete sessionID userID (.ok ()) (.ok ()) (.ok ())).hashes (connKey other) =
      if other = sessionID then [] else state.hashes (connKey other) := by
  simp [State.afterDelete, onSuccess, State.removeMember, State.setMembers, State.setHash,
    connKey_injective.eq_iff, connKey_ne_sessionKey]

theorem Represents.delete (represents : Represents state map) {session : AbstractSession}
    (stored : map sessionID = some session) :
    Represents (state.afterDelete sessionID session.userID (.ok ()) (.ok ()) (.ok ()))
      (StoreOp.apply map (.delete sessionID)) := by
  refine represents.write
    (fun other different => State.afterDelete_of_ne _ _ _ _ _ _ different)
    (fun other different => (afterDelete_conns _ _ _ _).trans (if_neg different)) ?_ ?_ ?_
  · exact ⟨State.afterDelete_self _ _ _ _ _ (), (afterDelete_conns _ _ _ _).trans (if_pos rfl)⟩
  · intro userID member
    have owns : ∀ other, SessionMap.Owns (StoreOp.apply map (.delete sessionID)) userID other ↔
        map.Owns userID other ∧ other ≠ sessionID := by
      intro other
      by_cases same : other = sessionID
      · simp [SessionMap.Owns, StoreOp.apply, StoreOp.target, StoreOp.change, same]
      · simp [SessionMap.Owns, StoreOp.apply, StoreOp.target, same]
    rw [State.mem_afterDelete, represents.index, userSessionsKey_injective.eq_iff]
    constructor
    · rintro ⟨⟨other, rfl, owned⟩, kept⟩
      refine ⟨other, rfl, (owns other).mpr ⟨owned, ?_⟩⟩
      rintro rfl
      obtain ⟨found, isFound, rfl⟩ := owned
      rw [stored] at isFound
      obtain rfl := Option.some.inj isFound
      exact kept ⟨rfl, rfl, rfl⟩
    · rintro ⟨other, rfl, owned⟩
      obtain ⟨owned, different⟩ := (owns other).mp owned
      exact ⟨⟨other, rfl, owned⟩, fun removed => different (hexEncode_injective removed.2.2)⟩
  · refine State.nodup_removeMember ?_ _ _
    exact represents.distinct

theorem delete_run {record : Session} (stored : Stored state sessionID record) :
    (RedisStore.delete ConnJSON.unmarshal sessionID).run exec [.ok, .ok, .ok, .ok, .ok] state =
      some (.ok (), state.afterDelete sessionID record.userID (.ok ()) (.ok ()) (.ok ())) := by
  obtain ⟨present, connections, rfl⟩ := stored
  unfold HasRecord at present
  simp [RedisStore.delete, RedisStore.get, RedisStore.getConnections, Program.run, exec, present,
    State.afterDelete, onSuccess]
  exact ⟨rfl, rfl⟩

theorem StoreOp.next_of_run {op : StoreOp} (ran : op.code.run exec op.choices state =
    some (.ok (), after)) : StoreOp.next state op = some after := by
  rw [StoreOp.next, ran]

theorem StoreOp.apply_of_stored {op : StoreOp} {session : AbstractSession}
    (stored : map op.target = some session) :
    StoreOp.apply map op = Function.update map op.target (op.change (some session)) := by
  rw [StoreOp.apply, stored]

/-- **The step lemma.** An admitted operation returns no error and does to the
store what it does to the map. -/
theorem Represents.step {op : StoreOp} (represents : Represents state map)
    (admits : op.Admits map) :
    ∃ after, StoreOp.next state op = some after ∧ Represents after (StoreOp.apply map op) := by
  have found : ∀ sessionID, map sessionID ≠ none → ∃ session, map sessionID = some session :=
    fun _ => Option.ne_none_iff_exists'.mp
  cases op with
  | create session => exact ⟨_, StoreOp.next_of_run rfl, represents.create session admits⟩
  | updateStatus sessionID status =>
      obtain ⟨session, stored⟩ := found sessionID admits
      rw [StoreOp.apply_of_stored stored]
      refine ⟨_, StoreOp.next_of_run rfl, represents.setField stored .status
        { session with status } rfl rfl ?_⟩
      intro other different
      cases other <;> first | rfl | exact absurd rfl different
  | updateCryptoState sessionID cryptoState =>
      obtain ⟨session, stored⟩ := found sessionID admits
      rw [StoreOp.apply_of_stored stored]
      refine ⟨_, StoreOp.next_of_run rfl, represents.setField stored .cryptoState
        { session with cryptoState := cryptoState.bytes } rfl rfl ?_⟩
      intro other different
      cases other <;> first | rfl | exact absurd rfl different
  | updateLastActive sessionID now =>
      obtain ⟨session, stored⟩ := found sessionID admits
      rw [StoreOp.apply_of_stored stored]
      refine ⟨_, StoreOp.next_of_run rfl, represents.setField stored .lastActive
        { session with lastActive := now } rfl rfl ?_⟩
      intro other different
      cases other <;> first | rfl | exact absurd rfl different
  | delete sessionID =>
      obtain ⟨session, stored⟩ := found sessionID admits
      have holds := represents.holds stored
      have record : Stored state sessionID (session.toSession sessionID []) :=
        ⟨holds.present, [], (holds.ofHash sessionID []).symm⟩
      exact ⟨_, StoreOp.next_of_run (delete_run record), represents.delete stored⟩
  | addConnection sessionID conn =>
      obtain ⟨session, stored⟩ := found sessionID admits
      rw [StoreOp.apply_of_stored stored]
      exact ⟨_, StoreOp.next_of_run rfl, represents.addConnection stored conn⟩
  | removeConnection sessionID removed =>
      obtain ⟨session, stored⟩ := found sessionID admits
      rw [StoreOp.apply_of_stored stored]
      exact ⟨_, StoreOp.next_of_run rfl, represents.removeConnection stored removed⟩

end Steps

/-! ### Every sequence of operations -/

theorem represents_empty : Represents State.empty fun _ => none where
  sessions _ := ⟨rfl, rfl⟩
  index userID member := by simp [State.empty, SessionMap.Owns]
  distinct _ := List.nodup_nil

/-- **`RedisStore` is a map of sessions.** Every sequence of operations that creates
ids that are not stored and changes ids that are returns no error, and what
`Get`, `GetConnections` and `GetUserSessions` return after it is what the
abstract map has. -/
theorem redisStore_is_map (ops : List StoreOp)
    (admitted : Admitted StoreOp.apply (fun map op => op.Admits map) (fun _ => none) ops) :
    ∃ state, run StoreOp.next State.empty ops = some state ∧
      Observes state (ops.foldl StoreOp.apply fun _ => none) := by
  obtain ⟨state, ran, represents⟩ :=
    run_simulates (fun _ _ _ represents admits => represents.step admits) represents_empty admitted
  exact ⟨state, ran, represents.observes⟩

/-- A session with a connection, whose handshake succeeds. -/
def handshakeOps : List StoreOp :=
  [.create
      { sessionID := [7], userID := some [1], deviceID := some [2], status := .connecting,
        cryptoState := none, createdAt := .ofUnix 0, lastActive := .ofUnix 0,
        expiresAt := .ofUnix 60 },
    .addConnection [7]
      { connectionID := utf8 "c1", transport := utf8 "quic", gatewayID := utf8 "gw",
        remoteAddr := utf8 "addr", connectedAt := .ofUnix 5, lastPacketSeq := 9,
        transportValid := by decide +kernel, gatewayValid := by decide +kernel,
        remoteValid := by decide +kernel },
    .updateStatus [7] .active]

theorem redisStore_is_map_handshake :
    ∃ state, run StoreOp.next State.empty handshakeOps = some state ∧
      Observes state (handshakeOps.foldl StoreOp.apply fun _ => none) := by
  refine redisStore_is_map handshakeOps ⟨rfl, ?_, ?_, trivial⟩
  · simp [StoreOp.Admits, StoreOp.apply, StoreOp.target, StoreOp.change]
  · simp [StoreOp.Admits, StoreOp.apply, StoreOp.target, StoreOp.change]

end FProto.Sessions
