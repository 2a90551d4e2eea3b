import FProto.Sessions.Effects

/-!
Owns what the Redis record of a session and its PostgreSQL row have to do with
each other: when they mirror each other, and what a call that fails leaves
behind in either.

`CreateSession` gives a session no crypto state and the column is `NOT NULL`,
so no call ever inserts a row. No call undoes a write.
-/

namespace FProto.Sessions

open FProto.Foundation
open RedisStore (statusField createFields firstError)

/-! ### Stores that are available -/

/-- The environment does not make the command fail. -/
def Choice.answers : Choice → Bool
  | .fail _ => false
  | _ => true

/-- An error that PostgreSQL's constraints do not account for. -/
def unavailable : (command : Command) → Reply command → Bool
  | .hGetAll _, .error _ => true
  | .hSet _ _ _, .error _ => true
  | .hSetFields _ _, .error _ => true
  | .hDel _ _, .error _ => true
  | .expire _, .error _ => true
  | .del _, .error _ => true
  | .sAdd _ _, .error _ => true
  | .sRem _ _, .error _ => true
  | .sMembers _, .error _ => true
  | .pgGet _, .error _ => true
  | .pgUpdateStatus _ status, .error _ => status.isNamed
  | .pgUpdateCryptoState _ (some _), .error _ => true
  | .pgDelete _, .error _ => true
  | _, _ => false

theorem exec_available {command : Command} {choice : Choice} {state after : State}
    {reply : Reply command} (executed : exec command choice state = some (reply, after))
    (answers : choice.answers = true) : unavailable command reply = false := by
  cases command with
  | rand => cases choice <;> rfl
  | pgCreate session => cases choice <;> rfl
  | pgUpdateStatus sessionID status =>
      cases choice with
      | storedAt now =>
          simp only [exec, Option.some.injEq, Prod.mk.injEq] at executed
          obtain ⟨rfl, -⟩ := executed
          unfold PGStore.updateStatus
          split
          · rfl
          · next unchecked =>
            have unnamed : status.isNamed = false := Bool.eq_false_iff.mpr unchecked
            split
            · exact unnamed
            · rfl
      | fail error => cases answers
      | _ => cases executed
  | pgUpdateCryptoState sessionID cryptoState =>
      cases choice with
      | storedAt now =>
          simp only [exec, Option.some.injEq, Prod.mk.injEq] at executed
          obtain ⟨rfl, -⟩ := executed
          cases cryptoState with
          | some cryptoState => rfl
          | none => rfl
      | fail error => cases answers
      | _ => cases executed
  | _ =>
      cases choice with
      | fail error => cases answers
      | _ => cases executed <;> rfl

/-- While the stores are available, no command of a call finds them unavailable. -/
theorem log_available {Result : Type} {program : Code Result} {choices : List Choice}
    (answered : choices.all Choice.answers = true) (state : State) :
    ∀ entry ∈ program.log exec choices state, unavailable entry.1 entry.2 = false := by
  intro entry member
  obtain ⟨choice, isChoice, before, after, executed⟩ := Program.mem_log member
  exact exec_available executed (List.all_eq_true.mp answered choice isChoice)

/-! ### The row mirrors the record -/

/-- The record of a session and its row: both are there and agree, or neither is. -/
def Agrees (hash : Hash) : Option Row → Prop
  | none => hash = []
  | some row =>
      hash ≠ [] ∧ hexDecodeString (hash.field "user_id") = row.userID ∧
        hexDecodeString (hash.field "device_id") = row.deviceID ∧
        Status.ofText (hash.field "status") = row.status ∧
        hexDecodeString (hash.field "crypto_state") = row.cryptoState

def Mirror (state : State) : Prop :=
  ∀ sessionID, Agrees (state.hashes (sessionKey sessionID)) (PGStore.find state.pg sessionID)

/-- One call while both stores are available. -/
def Manager.nextAvailable (manager : Manager) (ledger : Ledger)
    (event : ManagerCall × List Choice) : Option Ledger :=
  if event.2.all Choice.answers then manager.next ledger (.call event.1 event.2) else none

/-- When a call keeps the stores in agreement: the crypto state is that of a
session with a row, and is not `nil` unless the row's is empty; no session is
created, or just the one that is there already. -/
def KeepsMirror (ledger : Ledger) : ManagerCall × List Choice → Prop
  | (.createSession userID deviceID, choices) =>
      ∀ sessionID, choices.head? = some (.random sessionID) →
        ∃ row, PGStore.find ledger.state.pg sessionID = some row ∧ row.userID = userID.bytes ∧
          row.deviceID = deviceID.bytes ∧ row.status = .connecting ∧ row.cryptoState = []
  | (.updateCryptoState sessionID cryptoState, _) =>
      ∃ row, PGStore.find ledger.state.pg sessionID = some row ∧
        (cryptoState = none → row.cryptoState = [])
  | _ => True

section MirrorSteps

variable {manager : Manager} {state after : State} {late : Log}

/-- The stores mirror each other again exactly when the session that was written
to does. -/
theorem mirror_of_frame (sessionID : Bytes) (mirror : Mirror state)
    (hashes : ∀ other, other ≠ sessionID →
      after.hashes (sessionKey other) = state.hashes (sessionKey other))
    (rows : ∀ other, other ≠ sessionID →
      PGStore.find after.pg other = PGStore.find state.pg other) :
    Mirror after ↔
      Agrees (after.hashes (sessionKey sessionID)) (PGStore.find after.pg sessionID) := by
  constructor
  · intro mirrored
    exact mirrored sessionID
  · intro agrees other
    by_cases same : other = sessionID
    · rw [same]
      exact agrees
    · rw [hashes other same, rows other same]
      exact mirror other

/-- The record that `Create` writes, against any row. -/
theorem agrees_create (hash : Hash) (session : NewSession) (row : Option Row) :
    Agrees (hash.setAll (createFields session)) row ↔
      ∃ found, row = some found ∧ found.userID = session.userID.bytes ∧
        found.deviceID = session.deviceID.bytes ∧ found.status = session.status ∧
        found.cryptoState = session.cryptoState.bytes := by
  have present : hash.setAll (createFields session) ≠ [] := List.cons_ne_nil _ _
  have stored : ∀ (name : String) value, (utf8 name, value) ∈ createFields session →
      (hash.setAll (createFields session)).field name = value :=
    fun _ _ => RedisStore.field_create hash session
  have user := stored "user_id" (hexEncode session.userID.bytes) (by simp [createFields])
  have device := stored "device_id" (hexEncode session.deviceID.bytes) (by simp [createFields])
  have status := stored "status" session.status.text (by simp [createFields, statusField])
  have crypto := stored "crypto_state" (hexEncode session.cryptoState.bytes)
    (by simp [createFields])
  cases row with
  | none => simp [Agrees, present]
  | some row =>
      rw [Agrees, user, device, status, crypto]
      simp [present, Status.ofText_text, eq_comm]

theorem rand_choice {choice : Choice} {reply : Except Bytes Bytes}
    (executed : exec .rand choice state = some (reply, after)) (bytes : Bytes) :
    reply = .ok bytes ↔ choice = .random bytes := by
  cases choice with
  | random drawn =>
      simp only [exec] at executed
      split at executed
      · cases executed
        simp
      · cases executed
  | noRandom error =>
      cases executed
      simp
  | _ => cases executed

theorem mirror_create {userID deviceID : Slice} {choices : List Choice}
    {result : Except Bytes NewSession} {ledger : Ledger} (mirror : Mirror ledger.state)
    (logged : (manager.code (.createSession userID deviceID)).log exec choices ledger.state = late)
    (available : ∀ entry ∈ late, unavailable entry.1 entry.2 = false)
    (effect : CreateEffect manager userID deviceID ledger.state late result after) :
    Mirror after ↔ KeepsMirror ledger (.createSession userID deviceID, choices) := by
  cases effect with
  | noRandom error =>
      obtain ⟨choice, middle, head, executed⟩ := Program.head_of_log logged
      refine iff_of_true mirror fun sessionID isDrawn => ?_
      rw [head] at isDrawn
      cases (rand_choice executed sessionID).mpr (Option.some.inj isDrawn)
  | stored drawn now set expire add tail result quiet =>
      obtain ⟨choice, middle, head, executed⟩ := Program.head_of_log logged
      obtain rfl := (rand_choice executed drawn).mp rfl
      have setDone := available
        ⟨.hSetFields (sessionKey drawn) (createFields (manager.newSession userID deviceID drawn now)),
          set⟩ (by simp [createLog, Manager.newSession])
      cases set with
      | error error => cases setDone
      | ok _ =>
          have written := State.afterCreate_self ledger.state
            (manager.newSession userID deviceID drawn now) add ()
          rw [mirror_of_frame (manager.newSession userID deviceID drawn now).sessionID mirror,
            written, State.afterCreate_pg, agrees_create]
          rotate_left
          · exact fun other different =>
              State.afterCreate_of_ne _ _ _ _ (sessionKey_injective.ne different)
          · exact fun other _ => by rw [State.afterCreate_pg]
          constructor
          · intro found sessionID isDrawn
            rw [head] at isDrawn
            cases isDrawn
            exact found
          · intro keeps
            exact keeps drawn head

/-- The record of a session whose crypto state was stored, against its row. -/
theorem agrees_crypto {hash : Hash} {row changed : Row} (agrees : Agrees hash (some row))
    (user : changed.userID = row.userID) (device : changed.deviceID = row.deviceID)
    (status : changed.status = row.status) (value : Bytes) :
    Agrees (hash.set cryptoField (hexEncode value)) (some changed) ↔
      changed.cryptoState = value := by
  obtain ⟨present, sameUser, sameDevice, sameStatus, -⟩ := agrees
  have others : ∀ name : String, utf8 name ≠ cryptoField →
      (hash.set cryptoField (hexEncode value)).field name = hash.field name :=
    fun _ different => Hash.field_set_of_ne hash different _
  rw [Agrees, others "user_id" (by decide), others "device_id" (by decide),
    others "status" (by decide), user, device, status]
  have stored : (hash.set cryptoField (hexEncode value)).field "crypto_state" = hexEncode value :=
    Hash.field_set_self hash "crypto_state" _
  rw [stored, hexDecodeString_hexEncode]
  exact ⟨fun agrees => agrees.2.2.2.2.symm,
    fun same => ⟨List.cons_ne_nil _ _, sameUser, sameDevice, sameStatus, same.symm⟩⟩

/-- The stores after the crypto state was stored in Redis. -/
theorem mirror_setCrypto (mirror : Mirror state) (sessionID value : Bytes) (rows : List Row)
    (others : ∀ other, other ≠ sessionID → PGStore.find rows other = PGStore.find state.pg other) :
    Mirror { state.setField sessionID cryptoField value with pg := rows } ↔
      Agrees ((state.hashes (sessionKey sessionID)).set cryptoField value)
        (PGStore.find rows sessionID) := by
  have hashes := State.setHash_hashes state (sessionKey sessionID)
    ((state.hashes (sessionKey sessionID)).set cryptoField value)
  rw [mirror_of_frame sessionID mirror]
  · dsimp only
    rw [State.setField, hashes, if_pos rfl]
  · intro other different
    exact (hashes _).trans (if_neg (sessionKey_injective.ne different))
  · exact others

theorem mirror_crypto {sessionID : Bytes} {cryptoState : Slice} {result : Except Bytes Unit}
    {ledger : Ledger} (choices : List Choice) (hasPg : manager.pg = true)
    (mirror : Mirror ledger.state)
    (available : ∀ entry ∈ late, unavailable entry.1 entry.2 = false)
    (effect : CryptoEffect manager sessionID cryptoState ledger.state late result after) :
    Mirror after ↔ KeepsMirror ledger (.updateCryptoState sessionID cryptoState, choices) := by
  have before := mirror sessionID
  have noRow : ∀ (hash : Hash) value, ¬Agrees (hash.set cryptoField value) none :=
    fun _ _ => List.cons_ne_nil _ _
  unfold KeepsMirror
  cases effect with
  | failed error => cases available _ List.mem_cons_self
  | redis noPg => rw [hasPg] at noPg; cases noPg
  | both _ rows statement =>
      cases result with
      | error error =>
          -- PostgreSQL refuses only `nil`, and keeps its row.
          cases cryptoState with
          | some cryptoState =>
              cases available ⟨.pgUpdateCryptoState sessionID (some cryptoState), .error error⟩
                (by simp)
          | none =>
              refine (mirror_setCrypto mirror sessionID (hexEncode []) ledger.state.pg
                fun _ _ => rfl).trans ?_
              cases found : PGStore.find ledger.state.pg sessionID with
              | none => simp [noRow, found]
              | some row =>
                  rw [found] at before
                  rw [agrees_crypto before rfl rfl rfl]
                  simp [found]
      | ok _ =>
          obtain ⟨now, stored⟩ := statement rfl
          obtain ⟨others, self, nilAbsent⟩ := PGStore.find_updateCryptoState stored
          refine (mirror_setCrypto mirror sessionID (hexEncode cryptoState.bytes) rows
            others).trans ?_
          rw [self]
          cases found : PGStore.find ledger.state.pg sessionID with
          | none => simp [noRow, found]
          | some row =>
              rw [found] at before nilAbsent
              have notNil : cryptoState ≠ none := fun isNil =>
                Option.some_ne_none row (nilAbsent isNil)
              refine iff_of_true ?_ ⟨row, found, fun isNil => absurd isNil notNil⟩
              exact (agrees_crypto before (by rfl) (by rfl) (by rfl) _).mpr (by rfl)

theorem Agrees.congr {hash changed : Hash} {row : Row} (agrees : Agrees hash (some row))
    (present : changed ≠ [])
    (same : ∀ name ∈ ["user_id", "device_id", "status", "crypto_state"],
      changed.field name = hash.field name) : Agrees changed (some row) := by
  obtain ⟨-, user, device, status, crypto⟩ := agrees
  refine ⟨present, ?_, ?_, ?_, ?_⟩
  · rw [same "user_id" (by simp), user]
  · rw [same "device_id" (by simp), device]
  · rw [same "status" (by simp), status]
  · rw [same "crypto_state" (by simp), crypto]

/-- The record of a session whose status was stored, against its row. -/
theorem agrees_status {hash : Hash} {row : Row} {next : Status} (agrees : Agrees hash (some row))
    (checked : next.isNamed = true) (now : Time) :
    Agrees (hash.set statusField next.text)
      (some { row with status := next, checked := checked, updatedAt := now }) := by
  obtain ⟨present, user, device, -, crypto⟩ := agrees
  have others : ∀ name : String, utf8 name ≠ statusField →
      (hash.set statusField next.text).field name = hash.field name :=
    fun _ different => Hash.field_set_of_ne hash different _
  have stored : (hash.set statusField next.text).field "status" = next.text :=
    Hash.field_set_self hash "status" _
  rw [Agrees, others "user_id" (by decide), others "device_id" (by decide),
    others "crypto_state" (by decide), stored, Status.ofText_text]
  exact ⟨List.cons_ne_nil _ _, user, device, rfl, crypto⟩

theorem agrees_touch {hash changed : Hash} {row : Row} {sessionID : Bytes} {isPacket : Bool}
    {touch : Log} (agrees : Agrees hash (some row))
    (touched : TouchTail sessionID hash isPacket touch changed) : Agrees changed (some row) := by
  cases touched with
  | absent => exact agrees
  | failed => exact agrees
  | done now expire =>
      refine agrees.congr (List.cons_ne_nil _ _) fun name member => ?_
      refine Hash.field_set_of_ne hash ?_ _
      simp only [List.mem_cons, List.not_mem_nil, or_false] at member
      rcases member with rfl | rfl | rfl | rfl <;> decide

/-- A delete whose commands reached Redis returns no error. -/
theorem firstError_of_available {sessionID userID : Bytes}
    {record connections member : Except Bytes Unit}
    (available : ∀ entry ∈ deleteLog sessionID userID record connections member,
      unavailable entry.1 entry.2 = false) :
    firstError [record, connections, member] = .ok () := by
  have first := available ⟨.del (sessionKey sessionID), record⟩ (by simp [deleteLog])
  have second := available ⟨.del (connKey sessionID), connections⟩ (by simp [deleteLog])
  have third := available ⟨.sRem (userSessionsKey userID) (hexEncode sessionID), member⟩
    (by simp [deleteLog])
  cases record with
  | error => cases first
  | ok _ =>
      cases connections with
      | error => cases second
      | ok _ =>
          cases member with
          | error => cases third
          | ok _ => rfl

/-- Both stores take the new status. -/
theorem mirror_moved {sessionID : Bytes} {next : Status} {hash : Hash} {isPacket : Bool}
    {touch : Log} (mirror : Mirror state) (present : HasRecord state sessionID)
    (checked : next.isNamed = true) (now : Time)
    (touched : TouchTail sessionID
      ((state.hashes (sessionKey sessionID)).set statusField next.text) isPacket touch hash) :
    Mirror { state.setHash (sessionKey sessionID) hash with
      pg := statusRows state.pg sessionID next checked now } := by
  have hashes := State.setHash_hashes state (sessionKey sessionID) hash
  refine (mirror_of_frame sessionID mirror ?_ ?_).mpr ?_
  · intro other different
    exact (hashes _).trans (if_neg (sessionKey_injective.ne different))
  · exact fun other different => find_statusRows_of_ne _ different checked now
  · have before := mirror sessionID
    cases found : PGStore.find state.pg sessionID with
    | none =>
        rw [found] at before
        exact absurd before present
    | some row =>
        rw [found] at before
        have agrees := agrees_touch (agrees_status before checked now) touched
        dsimp only
        rw [hashes, if_pos rfl, find_statusRows_self, found]
        exact agrees

theorem mirror_transition {sessionID : Bytes} {event : Event}
    {result : Except TransitionSessionError (Option Session)} (mirror : Mirror state)
    (available : ∀ entry ∈ late, unavailable entry.1 entry.2 = false)
    (effect : TransitionEffect true sessionID event state late result after) : Mirror after := by
  cases effect with
  | refused => exact mirror
  | deleteFailed reads quiet session stored _ _ _ record connections member error failed =>
      have worked := firstError_of_available fun entry isEntry =>
        available entry (List.mem_append_right _ isEntry)
      rw [worked] at failed
      cases failed
  | destroyed reads quiet session stored _ _ _ tail rows durable =>
      cases durable with
      | failed error => cases available ⟨.pgDelete sessionID, .error error⟩ (by simp)
      | done =>
          refine (mirror_of_frame sessionID mirror ?_ ?_).mpr ?_
          · exact fun other different =>
              State.afterDelete_of_ne state sessionID session.userID (.ok ()) (.ok ()) (.ok ())
                different
          · exact fun other different => PGStore.find_delete_of_ne _ different
          · dsimp only
            rw [PGStore.find_delete_self]
            exact State.afterDelete_self state sessionID session.userID (.ok ()) (.ok ()) ()
  | moved reads quiet session stored next allowed touch hash touched tail rows durable =>
      cases durable with
      | failed error =>
          have named := available ⟨.pgUpdateStatus sessionID next, .error error⟩ (by simp)
          rw [unavailable, named_of_transition allowed] at named
          cases named
      | done checked now =>
          exact mirror_moved mirror stored.1 checked now touched

/-- **The step lemma.** A call keeps the stores in agreement exactly under the
condition. -/
theorem mirror_next {config : Config} {ledger after : Ledger} {event : ManagerCall × List Choice}
    (mirror : Mirror ledger.state)
    (stepped : Manager.nextAvailable { pg := true, config } ledger event = some after) :
    Mirror after.state ↔ KeepsMirror ledger event := by
  obtain ⟨call, choices⟩ := event
  unfold Manager.nextAvailable at stepped
  split at stepped
  · next answered =>
    obtain ⟨outcome, ran, -⟩ := Manager.next_call stepped
    have available : ∀ entry ∈ (Manager.code { pg := true, config } call).log exec choices
        ledger.state, unavailable entry.1 entry.2 = false := log_available answered ledger.state
    have effect := code_executes (executes_of_run ran)
    generalize logged : (Manager.code _ call).log exec choices ledger.state = late at effect
    rw [logged] at available
    have connections : ∀ id hash, Mirror (ledger.state.setHash (connKey id) hash) := by
      intro id hash other
      rw [State.setHash_hashes, if_neg (connKey_ne_sessionKey id other).symm]
      exact mirror other
    generalize after.state = final at effect ⊢
    cases effect with
    | createSession effect => exact mirror_create mirror logged available effect
    | getSession => exact iff_of_true mirror trivial
    | transitionSession effect =>
        exact iff_of_true (mirror_transition mirror available effect) trivial
    | updateCryptoState effect => exact mirror_crypto choices rfl mirror available effect
    | registerConnection effect =>
        refine iff_of_true ?_ trivial
        cases effect with
        | added => exact connections _ _
        | _ => exact mirror
    | unregisterConnection effect =>
        refine iff_of_true ?_ trivial
        cases effect with
        | removed => exact connections _ _
        | failed => exact mirror
    | getUserSessions => exact iff_of_true mirror trivial
  · cases stepped

end MirrorSteps

/-- **When the durable store mirrors the hot one.** From stores that mirror each
other, such as empty ones, and while both are available, they do so after every
call of a run if and only if each `UpdateCryptoState` is on a session with a row,
with a crypto state that the row can hold, and no `CreateSession` stores a session
other than one that is there as it would be created. From empty stores that
means that no session is ever created. -/
theorem stores_mirror_iff (config : Config) {start : Ledger} (mirrored : Mirror start.state)
    (events : List (ManagerCall × List Choice)) :
    Always (Manager.nextAvailable { pg := true, config }) start events
        (fun ledger => Mirror ledger.state) ↔
      EachStep (Manager.nextAvailable { pg := true, config }) start events KeepsMirror := by
  refine always_iff_eachStep (fun _ => True) trivial ?_ ?_ events
  · exact mirrored
  · exact fun _ _ _ _ mirror stepped => ⟨trivial, mirror_next mirror stepped⟩

def connectingSession : NewSession where
  sessionID := [7]
  userID := some [1]
  deviceID := some [2]
  status := .connecting
  cryptoState := some []
  createdAt := .ofUnix 0
  lastActive := .ofUnix 0
  expiresAt := .ofUnix 60

def connectingRow : Row where
  sessionID := [7]
  userID := [1]
  deviceID := [2]
  cryptoState := []
  status := .connecting
  createdAt := .ofUnix 0
  updatedAt := .ofUnix 0
  expiresAt := .ofUnix 60
  checked := rfl

/-- A connecting session in both stores. -/
def connectingState : State where
  hashes key := if key = sessionKey [7] then Hash.setAll [] (createFields connectingSession) else []
  sets _ := []
  pg := [connectingRow]

theorem connecting_agrees :
    Agrees (connectingState.hashes (sessionKey [7])) (some connectingRow) :=
  (agrees_create [] connectingSession (some connectingRow)).mpr
    ⟨connectingRow, rfl, rfl, rfl, rfl, rfl⟩

theorem mirror_connecting : Mirror connectingState := by
  intro sessionID
  by_cases same : sessionID = [7]
  · rw [same]
    exact connecting_agrees
  · have noRecord : connectingState.hashes (sessionKey sessionID) = [] :=
      if_neg (sessionKey_injective.ne same)
    have noRow : PGStore.find connectingState.pg sessionID = none := by
      simpa [PGStore.find, connectingState, connectingRow] using Ne.symm same
    rw [noRecord, noRow]
    rfl

/-- The handshake succeeds and a crypto state is stored. -/
def storedHandshake : List (ManagerCall × List Choice) :=
  [(.transitionSession [7] .handshakeOK, [.ok, .ok, .ok, .storedAt (.ofUnix 1)]),
    (.updateCryptoState [7] (some [1]), [.ok, .storedAt (.ofUnix 2)])]

theorem stores_mirror_iff_connecting :
    ∃ ledger, run (Manager.nextAvailable { pg := true, config := defaultConfig })
          { state := connectingState } storedHandshake = some ledger ∧
      (PGStore.find ledger.state.pg [7]).map (fun row => (row.status, row.cryptoState)) =
        some (.active, [1]) ∧
      Mirror ledger.state := by
  have mirrored : Mirror (Ledger.mk connectingState [] []).state := mirror_connecting
  refine ⟨_, rfl, rfl, ?_⟩
  apply (stores_mirror_iff defaultConfig mirrored storedHandshake).mpr ?_ storedHandshake _
    List.prefix_rfl rfl
  refine eachStep_cons rfl trivial ?_
  exact eachStep_cons rfl ⟨_, rfl, by rintro ⟨⟩⟩ eachStep_nil

/-- The first `CreateSession` on empty stores fails in PostgreSQL and leaves the
record in Redis. -/
theorem created_session_not_mirrored :
    let manager : Manager := { pg := true, config := defaultConfig }
    let sessionID := List.replicate 16 7
    ∃ ledger,
      run manager.nextAvailable { state := State.empty }
          [(.createSession (some [1]) (some [2]),
            [.random sessionID, .clock (.ofUnix 0), .ok, .ok, .ok, .ok])] = some ledger ∧
        ledger.outcomes =
          [(.createSession (some [1]) (some [2]),
            .created (.error (utf8 "pg create: " ++ PGStore.nullError "crypto_state")))] ∧
        HasRecord ledger.state sessionID ∧ PGStore.find ledger.state.pg sessionID = none := by
  refine ⟨_, rfl, rfl, List.cons_ne_nil _ _, rfl⟩

/-! ### What a failed call leaves behind -/

theorem tableAfter_of_error {rows : List Row} {result : Except Bytes (List Row)} {error : Bytes}
    (refused : result.map (fun _ => ()) = .error error) : tableAfter rows result = rows := by
  cases result with
  | error _ => rfl
  | ok _ => cases refused

/-- A command that wrote nothing leaves the stores alone. -/
theorem exec_unchanged {command : Command} {choice : Choice} {state after : State}
    {reply : Reply command} (executed : exec command choice state = some (reply, after))
    (silent : wrote command reply = false) : after = state := by
  cases command with
  | hGetAll key => exact (exec_hGetAll executed).1
  | sMembers key => exact (exec_sMembers executed).1
  | expire key => exact exec_expire executed
  | now => exact exec_now executed
  | timeNow => exact exec_timeNow executed
  | rand => exact exec_rand executed
  | pgGet sessionID => exact (exec_pgGet executed).1
  | lapse key => cases silent
  | pgCreate _ | pgUpdateStatus _ _ | pgUpdateCryptoState _ _ =>
      -- A statement that PostgreSQL refuses keeps the table.
      cases reply with
      | ok _ => cases silent
      | error error =>
          cases choice with
          | fail _ => cases executed; rfl
          | ok | storedAt _ =>
              all_goals
                simp only [exec, Option.some.injEq, Prod.mk.injEq, reduceCtorEq] at executed
              all_goals
                rw [← executed.2, tableAfter_of_error executed.1]
          | _ => cases executed
  | _ =>
      cases reply with
      | ok _ => cases silent
      | error error =>
          cases choice <;> cases executed
          rfl

theorem executes_unchanged {Result : Type} {program : Code Result} {state after : State} {log : Log}
    {result : Result} (executes : Executes exec program state log result after)
    (silent : ∀ entry ∈ log, wrote entry.1 entry.2 = false) : after = state := by
  induction executes with
  | done => rfl
  | call executed _ inductionHypothesis =>
      rw [inductionHypothesis fun entry later => silent entry (List.mem_cons_of_mem _ later)]
      exact exec_unchanged executed (silent _ List.mem_cons_self)

/-- What a call that returns an error can leave behind: the writes that came
before the one that failed. -/
inductive Residue (manager : Manager) (state : State) : ManagerCall → Log → State → Prop
  | nothing (call : ManagerCall) (log : Log)
      (silent : ∀ entry ∈ log, wrote entry.1 entry.2 = false) :
      Residue manager state call log state
  | created (userID deviceID : Slice) (sessionID : Bytes) (now : Time)
      (set expire add : Except Bytes Unit) (tail : Log)
      (silent : ∀ entry ∈ tail, wrote entry.1 entry.2 = false) :
      Residue manager state (.createSession userID deviceID)
        (⟨.rand, .ok sessionID⟩ :: ⟨.timeNow, now⟩ ::
          createLog (manager.newSession userID deviceID sessionID now) set expire add ++ tail)
        (state.afterCreate (manager.newSession userID deviceID sessionID now) set add)
  | crypto (sessionID : Bytes) (cryptoState : Slice) (error : Bytes) :
      Residue manager state (.updateCryptoState sessionID cryptoState)
        [⟨.hSet (sessionKey sessionID) cryptoField (hexEncode cryptoState.bytes), .ok ()⟩,
          ⟨.pgUpdateCryptoState sessionID cryptoState, .error error⟩]
        (state.setField sessionID cryptoField (hexEncode cryptoState.bytes))
  | deleted (sessionID : Bytes) (event : Event) (reads : Log)
      (silent : ∀ entry ∈ reads, wrote entry.1 entry.2 = false) (session : Session)
      (stored : Stored state sessionID session) (result : TransitionResult)
      (allowed : transition session.status event = .ok result)
      (isDestroyed : result.destroyed = true) (record connections member : Except Bytes Unit)
      (error : Bytes) (failed : firstError [record, connections, member] = .error error) :
      Residue manager state (.transitionSession sessionID event)
        (reads ++ deleteLog sessionID session.userID record connections member)
        (state.afterDelete sessionID session.userID record connections member)

theorem Quiet.silent {log : Log} (quiet : Quiet log) :
    ∀ entry ∈ log, wrote entry.1 entry.2 = false :=
  fun entry member => (Bool.or_eq_false_iff.mp (quiet entry member)).1

theorem Residue.pg {manager : Manager} {state after : State} {call : ManagerCall} {log : Log}
    (residue : Residue manager state call log after) : after.pg = state.pg := by
  cases residue with
  | nothing => rfl
  | created => exact State.afterCreate_pg _ _ _ _
  | crypto => rfl
  | deleted => exact State.afterDelete_pg _ _ _ _ _ _

theorem residue_of_effect {manager : Manager} {state after : State} {call : ManagerCall} {log : Log}
    {outcome : Outcome} (effect : CallEffect manager state call log outcome after)
    (failed : outcome.failed = true) : Residue manager state call log after := by
  cases effect with
  | createSession effect =>
      cases effect with
      | noRandom error => exact .nothing _ _ (by simp [wrote])
      | stored sessionID now set expire add tail result quiet =>
          exact .created _ _ sessionID now set expire add tail quiet.silent
  | getSession _ quiet _ => exact .nothing _ _ quiet.silent
  | transitionSession effect =>
      cases effect with
      | refused _ quiet error => exact .nothing _ _ quiet.silent
      | deleteFailed reads quiet session stored result allowed isDestroyed record connections member
          error refused =>
          exact .deleted _ _ reads quiet.silent session stored result allowed isDestroyed record
            connections member error refused
      | destroyed => cases failed
      | moved => cases failed
  | @updateCryptoState sessionID cryptoState log result after effect =>
      cases effect with
      | failed error => exact .nothing _ _ (by simp [wrote])
      | redis noPg => cases failed
      | both _ rows statement =>
          cases result with
          | error error => exact .crypto sessionID cryptoState error
          | ok _ => cases failed
  | registerConnection effect =>
      cases effect with
      | unread error => exact .nothing _ _ (by simp [wrote])
      | full limit => exact .nothing _ _ (by simp [wrote])
      | failed free error => exact .nothing _ _ (by simp [wrote])
      | added free => cases failed
  | unregisterConnection effect =>
      cases effect with
      | failed error => exact .nothing _ _ (by simp [wrote])
      | removed => cases failed
  | getUserSessions _ quiet _ => exact .nothing _ _ quiet.silent

/-- A transition that does not destroy the session writes nothing before it fails. -/
theorem Residue.kept {manager : Manager} {state after : State} {log : Log} {sessionID : Bytes}
    {event : Event} (residue : Residue manager state (.transitionSession sessionID event) log after)
    (survives : ∀ session result, Stored state sessionID session →
      transition session.status event = .ok result → result.destroyed = false) :
    after = state := by
  cases residue with
  | nothing => rfl
  | deleted _ _ reads _ session stored result allowed isDestroyed =>
      rw [survives session result stored allowed] at isDestroyed
      cases isDestroyed

/-- **Failed calls.** A call that returns an error has left PostgreSQL as it was,
and Redis with those of its own writes that worked before one failed. A transition
that was not to destroy the session, and a call without any write that worked, have
changed nothing at all. -/
theorem failed_call_residue (manager : Manager) (call : ManagerCall) (choices : List Choice)
    (state : State) {after : State} {outcome : Outcome}
    (ran : (manager.code call).run exec choices state = some (outcome, after))
    (failed : outcome.failed = true) :
    after.pg = state.pg ∧
      Residue manager state call ((manager.code call).log exec choices state) after ∧
      (∀ sessionID event, call = .transitionSession sessionID event →
        (∀ session result, Stored state sessionID session →
          transition session.status event = .ok result → result.destroyed = false) →
        after = state) ∧
      ((∀ entry ∈ (manager.code call).log exec choices state, wrote entry.1 entry.2 = false) →
        after = state) := by
  have executes := executes_of_run ran
  have residue := residue_of_effect (code_executes executes) failed
  refine ⟨residue.pg, residue, ?_, executes_unchanged executes⟩
  rintro sessionID event rfl survives
  exact residue.kept survives

/-- The session of a failed handshake is deleted from Redis, but not its connections. -/
theorem failed_call_residue_delete :
    let manager : Manager := { pg := true, config := defaultConfig }
    let call : ManagerCall := .transitionSession [7] .handshakeFail
    let choices : List Choice := [.ok, .ok, .ok, .ok, .ok, .fail (utf8 "timeout"), .ok]
    ∃ outcome after,
      (manager.code call).run exec choices connectingState = some (outcome, after) ∧
        outcome.failed = true ∧ connectingState.hashes (sessionKey [7]) ≠ [] ∧
        after.hashes (sessionKey [7]) = [] ∧ after.pg = connectingState.pg ∧
        Residue manager connectingState call ((manager.code call).log exec choices connectingState)
          after := by
  intro manager call choices
  refine ⟨_, _, rfl, rfl, List.cons_ne_nil _ _, rfl, ?_⟩
  obtain ⟨pg, residue, -⟩ := failed_call_residue manager call choices connectingState rfl rfl
  exact ⟨pg, residue⟩

/-- `UpdateCryptoState` reports that PostgreSQL is down; the crypto state in Redis
is the new one. -/
theorem failed_call_changes_redis :
    let manager : Manager := { pg := true, config := defaultConfig }
    let state := State.empty.setHash (sessionKey [7]) [(statusField, utf8 "active")]
    ∃ after,
      (manager.code (.updateCryptoState [7] (some [1]))).run exec [.ok, .fail (utf8 "down")] state =
          some (.updated (.error (utf8 "down")), after) ∧
        (state.hashes (sessionKey [7])).field "crypto_state" = [] ∧
        (after.hashes (sessionKey [7])).field "crypto_state" = utf8 "01" := by
  intro manager state
  exact ⟨_, rfl, by rfl, by rfl⟩

end FProto.Sessions
