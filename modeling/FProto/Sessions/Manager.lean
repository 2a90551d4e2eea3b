import FProto.Foundation.Execution
import FProto.Sessions.Connections

/-!
Owns `proto-core/session/manager.go` apart from `TransitionSession`, whose
model is next to the Redis store, and the runs of a manager whose calls are
made one after the other.

A manager writes Redis first and PostgreSQL, when it has one, afterwards; it
has no transaction over the two.
-/

namespace FProto.Sessions

open FProto.Foundation

/-- `Config`, as far as the manager reads it. Durations are nanoseconds. -/
structure Config where
  expiryTimeout : Int
  maxConnections : Int
deriving DecidableEq

/-- `DefaultConfig`. -/
def defaultConfig : Config where
  expiryTimeout := 86400000000000
  maxConnections := 5

/-- A row as `PGStore.Get` returns it. -/
def Row.toSession (row : Row) : Session where
  sessionID := row.sessionID
  userID := row.userID
  deviceID := row.deviceID
  status := row.status
  cryptoState := row.cryptoState
  createdAt := row.createdAt.unix.toInt
  lastActive := row.updatedAt.unix.toInt
  expiresAt := row.expiresAt.unix.toInt
  connections := []

/-- `PGStore.Get`. -/
def PGStore.get (sessionID : Bytes) : Code (Except Bytes Session) := do
  match ← (Program.issue (Command.pgGet sessionID) : Code (Except Bytes (Option Row))) with
  | .error error => return .error (utf8 "session not found: " ++ error)
  | .ok none => return .error (utf8 "session not found: no rows in result set")
  | .ok (some row) => return .ok row.toSession

/-- A manager; the flag says whether it has a PostgreSQL store. -/
structure Manager where
  pg : Bool
  config : Config

namespace Manager

/-- The session that `CreateSession` builds. -/
def newSession (manager : Manager) (userID deviceID : Slice) (sessionID : Bytes) (now : Time) :
    NewSession where
  sessionID := sessionID
  userID := userID
  deviceID := deviceID
  status := .connecting
  cryptoState := none
  createdAt := now
  lastActive := now
  expiresAt := now.add manager.config.expiryTimeout

/-- `Manager.CreateSession`. -/
def createSession (manager : Manager) (userID deviceID : Slice) :
    Code (Except Bytes NewSession) := do
  match ← (Program.issue Command.rand : Code (Except Bytes Bytes)) with
  | .error error => return .error (utf8 "generate session id: " ++ error)
  | .ok sessionID =>
      let now ← (Program.issue Command.timeNow : Code Time)
      let session := manager.newSession userID deviceID sessionID now
      match ← RedisStore.create session with
      | .error error => return .error (utf8 "redis create: " ++ error)
      | .ok _ =>
          if manager.pg then
            match ← (Program.issue (Command.pgCreate session) : Code (Except Bytes Unit)) with
            | .error error => return .error (utf8 "pg create: " ++ error)
            | .ok _ => return .ok session
          else return .ok session

/-- `Manager.GetSession`. -/
def getSession (manager : Manager) (sessionID : Bytes) : Code (Except Bytes Session) := do
  match ← RedisStore.get ConnJSON.unmarshal sessionID with
  | .ok session => return .ok session
  | .error error => if manager.pg then PGStore.get sessionID else return .error error

/-- `Manager.UpdateCryptoState`. -/
def updateCryptoState (manager : Manager) (sessionID : Bytes) (cryptoState : Slice) :
    Code (Except Bytes Unit) := do
  match ← RedisStore.updateCryptoState sessionID cryptoState with
  | .error error => return .error error
  | .ok _ =>
      if manager.pg then
        (Program.issue (Command.pgUpdateCryptoState sessionID cryptoState) :
          Code (Except Bytes Unit))
      else return .ok ()

def limitError (manager : Manager) : Bytes :=
  utf8 "max connections (" ++ decimalInt manager.config.maxConnections ++ utf8 ") reached"

/-- `Manager.RegisterConnection`: the number of connections, and the error. -/
def registerConnection (manager : Manager) (sessionID : Bytes) (conn : NewConnection) :
    Code (Nat × Except Bytes Unit) := do
  match ← RedisStore.getConnections ConnJSON.unmarshal sessionID with
  | .error error => return (0, .error error)
  | .ok existing =>
      if manager.config.maxConnections ≤ existing.length then
        return (existing.length, .error manager.limitError)
      else
        match ← RedisStore.addConnection sessionID conn with
        | .error error => return (0, .error error)
        | .ok _ => return (existing.length + 1, .ok ())

/-- `Manager.UnregisterConnection`. -/
def unregisterConnection (sessionID connectionID : Bytes) : Code (Except Bytes Unit) :=
  RedisStore.removeConnection sessionID connectionID

/-- `Manager.GetUserSessions`. -/
def getUserSessions (userID : Bytes) : Code (Except Bytes (List Bytes)) :=
  RedisStore.getUserSessions userID

end Manager

/-! ### Calls -/

inductive ManagerCall where
  | createSession (userID deviceID : Slice)
  | getSession (sessionID : Bytes)
  | transitionSession (sessionID : Bytes) (event : Event)
  | updateCryptoState (sessionID : Bytes) (cryptoState : Slice)
  | registerConnection (sessionID : Bytes) (conn : NewConnection)
  | unregisterConnection (sessionID connectionID : Bytes)
  | getUserSessions (userID : Bytes)

inductive Outcome where
  | created (result : Except Bytes NewSession)
  | fetched (result : Except Bytes Session)
  | transitioned (result : Except TransitionSessionError (Option Session))
  | updated (result : Except Bytes Unit)
  | registered (count : Nat) (result : Except Bytes Unit)
  | listed (result : Except Bytes (List Bytes))

/-- The call returned an error. -/
def Outcome.failed : Outcome → Bool
  | .created (.error _) => true
  | .fetched (.error _) => true
  | .transitioned (.error _) => true
  | .updated (.error _) => true
  | .registered _ (.error _) => true
  | .listed (.error _) => true
  | _ => false

def Manager.code (manager : Manager) : ManagerCall → Code Outcome
  | .createSession userID deviceID => do
      return .created (← manager.createSession userID deviceID)
  | .getSession sessionID => do return .fetched (← manager.getSession sessionID)
  | .transitionSession sessionID event => do
      return .transitioned (← transitionSession ConnJSON.unmarshal manager.pg sessionID event)
  | .updateCryptoState sessionID cryptoState => do
      return .updated (← manager.updateCryptoState sessionID cryptoState)
  | .registerConnection sessionID conn => do
      let (count, result) ← manager.registerConnection sessionID conn
      return .registered count result
  | .unregisterConnection sessionID connectionID => do
      return .updated (← Manager.unregisterConnection sessionID connectionID)
  | .getUserSessions userID => do return .listed (← Manager.getUserSessions userID)

/-! ### Calls one after the other -/

/-- The stores, everything executed on them, and what the calls returned. -/
structure Ledger where
  state : State
  log : List (Executed Command Reply) := []
  outcomes : List (ManagerCall × Outcome) := []

/-- A whole call, or the end of a session key's time to live. -/
inductive SerialEvent where
  | call (call : ManagerCall) (choices : List Choice)
  | lapse (sessionID : Bytes)

def Manager.next (manager : Manager) (ledger : Ledger) : SerialEvent → Option Ledger
  | .call call choices =>
      match (manager.code call).run exec choices ledger.state with
      | none => none
      | some (outcome, state) =>
          some
            { state := state
              log := ledger.log ++ (manager.code call).log exec choices ledger.state
              outcomes := ledger.outcomes ++ [(call, outcome)] }
  | .lapse sessionID =>
      some
        { ledger with
          state := ledger.state.setHash (sessionKey sessionID) []
          log := ledger.log ++ [⟨.lapse (sessionKey sessionID), ()⟩] }

/-- Empty stores. -/
def State.empty : State where
  hashes _ := []
  sets _ := []
  pg := []

end FProto.Sessions
