import FProto.Sessions.Machine

/-!
Owns the PostgreSQL table of `proto-core/session/pg_store.go` and the effect of
each statement on it. The constraints of `createTableSQL` on one row are part
of the row type: no column is `NULL` and the status is a named one.

A statement that PostgreSQL refuses returns the error and leaves the table
alone. `nil` slices are `NULL`. Lost connections are owned by the command
semantics.
-/

namespace FProto.Sessions

open FProto.Foundation

/-- `time.Time`: the Unix second, and the nanoseconds within it. -/
structure Time where
  unix : Int64
  nanosecond : Fin 1000000000
deriving DecidableEq

/-- `time.Unix(second, 0)`. -/
def Time.ofUnix (second : Int64) : Time := ⟨second, 0⟩

/-- `time.Add` of a duration in nanoseconds. -/
def Time.add (time : Time) (duration : Int) : Time :=
  let total := time.unix.toInt * 1000000000 + time.nanosecond.val + duration
  { unix := Int64.ofInt (total / 1000000000)
    nanosecond := ⟨(total % 1000000000).toNat, by omega⟩ }

/-- What the stores read of the session they are to create. -/
structure NewSession where
  sessionID : Bytes
  userID : Slice
  deviceID : Slice
  status : Status
  cryptoState : Slice
  createdAt : Time
  lastActive : Time
  expiresAt : Time
deriving DecidableEq

/-- One of the four statuses that the `CHECK` constraint admits. -/
def Status.isNamed : Status → Bool
  | .unnamed _ _ => false
  | _ => true

/-- A row of `sessions`. -/
structure Row where
  sessionID : Bytes
  userID : Bytes
  deviceID : Bytes
  cryptoState : Bytes
  status : Status
  createdAt : Time
  updatedAt : Time
  expiresAt : Time
  checked : status.isNamed = true
deriving DecidableEq

namespace PGStore

def nullError (column : String) : Bytes :=
  utf8 s!"null value in column \"{column}\" of relation \"sessions\" violates not-null constraint"

def checkError : Bytes :=
  utf8 "new row for relation \"sessions\" violates check constraint \"sessions_status_check\""

def duplicateError : Bytes :=
  utf8 "duplicate key value violates unique constraint \"sessions_pkey\""

/-- The statement of `PGStore.Create`. -/
def create (rows : List Row) (session : NewSession) : Except Bytes (List Row) :=
  match session.userID, session.deviceID, session.cryptoState with
  | none, _, _ => .error (nullError "user_id")
  | _, none, _ => .error (nullError "device_id")
  | _, _, none => .error (nullError "crypto_state")
  | some userID, some deviceID, some cryptoState =>
      if checked : session.status.isNamed = true then
        if rows.any fun row => row.sessionID == session.sessionID then .error duplicateError
        else
          .ok (rows ++
            [{ sessionID := session.sessionID
               userID := userID
               deviceID := deviceID
               cryptoState := cryptoState
               status := session.status
               createdAt := session.createdAt
               updatedAt := session.createdAt
               expiresAt := session.expiresAt
               checked := checked }])
      else .error checkError

/-- The row that `PGStore.Get` selects. -/
def find (rows : List Row) (sessionID : Bytes) : Option Row :=
  rows.find? fun row => row.sessionID == sessionID

/-- Change the rows of a session. -/
def update (rows : List Row) (sessionID : Bytes) (change : Row → Row) : List Row :=
  rows.map fun row => if row.sessionID == sessionID then change row else row

/-- The statement of `PGStore.UpdateStatus`. -/
def updateStatus (rows : List Row) (sessionID : Bytes) (status : Status) (now : Time) :
    Except Bytes (List Row) :=
  if checked : status.isNamed = true then
    .ok (update rows sessionID fun row =>
      { row with status := status, checked := checked, updatedAt := now })
  else if (find rows sessionID).isSome then .error checkError
  else .ok rows

/-- The statement of `PGStore.UpdateCryptoState`. -/
def updateCryptoState (rows : List Row) (sessionID : Bytes) (cryptoState : Slice) (now : Time) :
    Except Bytes (List Row) :=
  match cryptoState with
  | some cryptoState =>
      .ok (update rows sessionID fun row =>
        { row with cryptoState := cryptoState, updatedAt := now })
  | none =>
      if (find rows sessionID).isSome then .error (nullError "crypto_state") else .ok rows

/-- The statement of `PGStore.Delete`. -/
def delete (rows : List Row) (sessionID : Bytes) : List Row :=
  rows.filter fun row => row.sessionID != sessionID

/-! ### What a statement does to the row of a session -/

theorem sessionID_of_find {rows : List Row} {sessionID : Bytes} {row : Row}
    (found : find rows sessionID = some row) : row.sessionID = sessionID := by
  simpa using List.find?_some found

section Updates

variable (rows : List Row) {sessionID : Bytes} {change : Row → Row}
  (keepsID : ∀ row, (change row).sessionID = row.sessionID)

include keepsID

theorem find_update (other : Bytes) :
    find (update rows sessionID change) other =
      (find rows other).map fun row => if row.sessionID == sessionID then change row else row := by
  have sameTest : ((fun row : Row => row.sessionID == other) ∘
      fun row => if row.sessionID == sessionID then change row else row) =
      fun row => row.sessionID == other := by
    funext row
    by_cases same : row.sessionID = sessionID
    · simp [same, keepsID]
    · simp [same]
  rw [find, update, List.find?_map, sameTest, find]

theorem find_update_self :
    find (update rows sessionID change) sessionID = (find rows sessionID).map change := by
  rw [find_update rows keepsID]
  cases found : find rows sessionID with
  | none => rfl
  | some row => simp [sessionID_of_find found]

theorem find_update_of_ne {other : Bytes} (different : other ≠ sessionID) :
    find (update rows sessionID change) other = find rows other := by
  rw [find_update rows keepsID]
  cases found : find rows other with
  | none => rfl
  | some row => simp [sessionID_of_find found, different]

end Updates

/-- A crypto state that is stored replaces the one in the row, if there is a row;
`nil` is stored in no row. -/
theorem find_updateCryptoState {rows changed : List Row} {sessionID : Bytes} {cryptoState : Slice}
    {now : Time} (stored : updateCryptoState rows sessionID cryptoState now = .ok changed) :
    (∀ other, other ≠ sessionID → find changed other = find rows other) ∧
      find changed sessionID = (find rows sessionID).map (fun row =>
        { row with cryptoState := cryptoState.bytes, updatedAt := now }) ∧
      (cryptoState = none → find rows sessionID = none) := by
  cases cryptoState with
  | some cryptoState =>
      obtain rfl := Except.ok.inj stored
      refine ⟨fun other different => ?_, ?_, nofun⟩
      · rw [find_update_of_ne rows _ different]
        exact fun _ => rfl
      · rw [find_update_self rows]
        · rfl
        · exact fun _ => rfl
  | none =>
      simp only [updateCryptoState] at stored
      split at stored
      · cases stored
      · next absent =>
        cases stored
        have noRow : find rows sessionID = none := Option.not_isSome_iff_eq_none.mp absent
        exact ⟨fun _ _ => rfl, by rw [noRow]; rfl, fun _ => noRow⟩

theorem find_delete_self (rows : List Row) (sessionID : Bytes) :
    find (delete rows sessionID) sessionID = none := by
  rw [find, List.find?_eq_none]
  intro row member
  simpa using (List.mem_filter.mp member).2

theorem find_delete_of_ne (rows : List Row) {sessionID other : Bytes}
    (different : other ≠ sessionID) : find (delete rows sessionID) other = find rows other := by
  have sameTest : (fun row : Row =>
      decide ((row.sessionID != sessionID) = true ∧ (row.sessionID == other) = true)) =
      fun row => row.sessionID == other := by
    funext row
    by_cases same : row.sessionID = other
    · simp [same, different]
    · simp [same]
  rw [find, delete, List.find?_filter, sameTest, find]

end PGStore

end FProto.Sessions
