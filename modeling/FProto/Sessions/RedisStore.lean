import FProto.Foundation.Decimal
import FProto.Foundation.Program
import FProto.Sessions.PGStore

/-!
Owns `proto-core/session/redis_store.go` with the commands that it and the
session manager issue, and `Manager.TransitionSession` of `manager.go`.

Every Redis command is atomic and a pipeline sends its commands one by one, so
commands of other clients may come between them. A command fails without
effect. Keys with a time to live lapse at any moment. The JSON decoder of the
stored connections is a parameter.
-/

namespace FProto.Sessions

open FProto.Foundation

/-! ### Hashes -/

/-- A Redis hash. A key that does not exist is the empty hash. -/
abbrev Hash := List (Bytes × Bytes)

namespace Hash

def get (hash : Hash) (field : Bytes) : Option Bytes :=
  (hash.find? fun entry => entry.1 = field).map Prod.snd

/-- `HSET` of one field. -/
def set (hash : Hash) (field value : Bytes) : Hash :=
  (field, value) :: hash.filter fun entry => entry.1 ≠ field

/-- `HSET` of several fields. -/
def setAll (hash : Hash) (fields : List (Bytes × Bytes)) : Hash :=
  fields.foldl (fun hash field => hash.set field.1 field.2) hash

/-- `HDEL`. -/
def del (hash : Hash) (field : Bytes) : Hash :=
  hash.filter fun entry => entry.1 ≠ field

@[simp] theorem get_set_self (hash : Hash) (field value : Bytes) :
    (hash.set field value).get field = some value := by
  simp [get, set]

theorem get_set_of_ne (hash : Hash) {field other : Bytes} (different : other ≠ field)
    (value : Bytes) : (hash.set field value).get other = hash.get other := by
  have sameTest : (fun entry : Bytes × Bytes =>
      decide (decide (entry.1 ≠ field) = true ∧ decide (entry.1 = other) = true)) =
      fun entry => decide (entry.1 = other) := by
    funext entry
    by_cases same : entry.1 = other
    · simp [same, different]
    · simp [same]
  unfold get set
  rw [List.find?_cons_of_neg (by simpa using different.symm), List.find?_filter, sameTest]

theorem get_setAll_of_not_mem (hash : Hash) {fields : List (Bytes × Bytes)} {name : Bytes}
    (foreign : name ∉ fields.map Prod.fst) : (hash.setAll fields).get name = hash.get name := by
  induction fields generalizing hash with
  | nil => rfl
  | cons field fields inductionHypothesis =>
      rw [List.map_cons, List.mem_cons, not_or] at foreign
      rw [setAll, List.foldl_cons, ← setAll, inductionHypothesis _ foreign.2,
        get_set_of_ne hash foreign.1]

/-- The last value stored under each name is found. -/
theorem get_setAll (hash : Hash) {fields : List (Bytes × Bytes)}
    (distinct : (fields.map Prod.fst).Nodup) {name value : Bytes}
    (member : (name, value) ∈ fields) : (hash.setAll fields).get name = some value := by
  induction fields generalizing hash with
  | nil => exact absurd member List.not_mem_nil
  | cons field fields inductionHypothesis =>
      rw [List.map_cons, List.nodup_cons] at distinct
      rw [setAll, List.foldl_cons, ← setAll]
      rcases List.mem_cons.mp member with rfl | later
      · rw [get_setAll_of_not_mem _ distinct.1, get_set_self]
      · exact inductionHypothesis _ distinct.2 later

@[simp] theorem get_del_self (hash : Hash) (field : Bytes) : (hash.del field).get field = none := by
  simp [get, del]

theorem get_del_of_ne (hash : Hash) {field other : Bytes} (different : other ≠ field) :
    (hash.del field).get other = hash.get other := by
  have kept := get_set_of_ne hash different []
  unfold get set at kept
  rw [List.find?_cons_of_neg (by simpa using different.symm)] at kept
  exact kept

/-! A Redis hash has every field once. -/

/-- The fields of the hash are distinct. -/
def Distinct (hash : Hash) : Prop := (hash.map Prod.fst).Nodup

theorem distinct_nil : Distinct [] := List.nodup_nil

theorem Distinct.del {hash : Hash} (distinct : Distinct hash) (field : Bytes) :
    Distinct (hash.del field) :=
  distinct.sublist (List.filter_sublist.map _)

theorem Distinct.set {hash : Hash} (distinct : Distinct hash) (field value : Bytes) :
    Distinct (hash.set field value) := by
  refine List.nodup_cons.mpr ⟨?_, distinct.del field⟩
  simp

theorem mem_iff_get {hash : Hash} (distinct : Distinct hash) (field value : Bytes) :
    (field, value) ∈ hash ↔ hash.get field = some value := by
  induction hash with
  | nil => simp [get]
  | cons entry hash inductionHypothesis =>
      obtain ⟨name, stored⟩ := entry
      obtain ⟨absent, rest⟩ := List.nodup_cons.mp distinct
      rw [List.mem_cons, inductionHypothesis rest]
      by_cases same : name = field
      · subst same
        have notLater : get hash name ≠ some value := by
          rw [Ne, ← inductionHypothesis rest]
          exact fun member => absent (List.mem_map.mpr ⟨_, member, rfl⟩)
        have first : get ((name, stored) :: hash) name = some stored := by simp [get]
        rw [or_iff_left notLater, first, Prod.mk.injEq, Option.some.injEq, eq_comm (a := stored)]
        exact and_iff_right rfl
      · simp [get, same, Ne.symm same]

end Hash

/-! ### Keys and values -/

def sessionKey (id : Bytes) : Bytes := utf8 "session:" ++ hexEncode id

def connKey (id : Bytes) : Bytes := sessionKey id ++ utf8 ":connections"

def userSessionsKey (userID : Bytes) : Bytes :=
  utf8 "user:" ++ hexEncode userID ++ utf8 ":sessions"

theorem sessionKey_injective : Function.Injective sessionKey := by
  intro left right same
  exact hexEncode_injective (List.append_cancel_left same)

/-- The colon separates the parts of a key and is no hexadecimal digit. -/
theorem colon_not_mem_hexEncode (id : Bytes) : 58 ∉ hexEncode id :=
  not_mem_hexEncode rfl id

theorem connKey_ne_sessionKey (id other : Bytes) : connKey id ≠ sessionKey other := by
  intro same
  rw [connKey, sessionKey, List.append_assoc] at same
  have suffix : hexEncode id ++ utf8 ":connections" = hexEncode other :=
    List.append_cancel_left same
  refine colon_not_mem_hexEncode other ?_
  rw [← suffix]
  exact List.mem_append_right _ (by decide)

theorem connKey_injective : Function.Injective connKey := by
  intro left right same
  exact sessionKey_injective (List.append_cancel_right same)

theorem userSessionsKey_injective : Function.Injective userSessionsKey := by
  intro left right same
  exact hexEncode_injective (List.append_cancel_left (List.append_cancel_right same))

/-- `hex.DecodeString` with its error ignored: the bytes before the error. -/
def hexDecodeString : Bytes → Bytes
  | high :: low :: rest =>
      match fromHexDigit high, fromHexDigit low with
      | some first, some second => UInt8.ofNat (16 * first + second) :: hexDecodeString rest
      | _, _ => []
  | _ => []

@[simp] theorem hexDecodeString_hexEncode (bytes : Bytes) :
    hexDecodeString (hexEncode bytes) = bytes := by
  induction bytes with
  | nil => rfl
  | cons byte rest inductionHypothesis =>
      have value : 16 * (byte.toNat / 16) + byte.toNat % 16 = byte.toNat := by omega
      rw [hexEncode_cons, hexDecodeString, fromHexDigit_high, fromHexDigit_low]
      dsimp only
      rw [value, UInt8.ofNat_toNat, inductionHypothesis]

/-- `strconv.ParseUint(digits, 10, 64)` from the value of the digits before; `none`
is a syntax error, a value out of range is the largest one. -/
def parseUint : Bytes → Nat → Option Nat
  | [], value => some value
  | digit :: digits, value =>
      if 48 ≤ digit ∧ digit ≤ 57 then
        let value := 10 * value + (digit.toNat - 48)
        if 2 ^ 64 ≤ value then some (2 ^ 64 - 1) else parseUint digits value
      else none

/-- `strconv.ParseInt(text, 10, 64)` with its error ignored. -/
def parseInt (text : Bytes) : Int :=
  let negative := text.head? = some 45
  let digits := if negative ∨ text.head? = some 43 then text.tail else text
  match if digits = [] then none else parseUint digits 0 with
  | none => 0
  | some value =>
      if negative then
        if 9223372036854775808 < value then -9223372036854775808 else -value
      else if 9223372036854775807 < value then 9223372036854775807
      else value

theorem parseUint_digits {digits : Bytes} (areDigits : digits.all isDigit = true) {value : Nat}
    (below : digitsValue value digits < 18446744073709551616) :
    parseUint digits value = some (digitsValue value digits) := by
  induction digits generalizing value with
  | nil => rfl
  | cons digit digits inductionHypothesis =>
      rw [List.all_cons, Bool.and_eq_true] at areDigits
      have digitRange : 48 ≤ digit ∧ digit ≤ 57 := by
        simpa [isDigit] using areDigits.1
      have small : ¬18446744073709551616 ≤ 10 * value + (digit.toNat - 48) := by
        have grows := le_digitsValue (10 * value + (digit.toNat - 48)) digits
        rw [digitsValue, List.foldl_cons, ← digitsValue] at below
        omega
      have step : parseUint (digit :: digits) value =
          if 48 ≤ digit ∧ digit ≤ 57 then
            if 18446744073709551616 ≤ 10 * value + (digit.toNat - 48) then
              some 18446744073709551615
            else parseUint digits (10 * value + (digit.toNat - 48))
          else none := rfl
      rw [step, if_pos digitRange, if_neg small, inductionHypothesis areDigits.2 below]
      rfl

theorem parseUint_decimal {value : Nat} (below : value < 18446744073709551616) :
    parseUint (decimal value) 0 = some value := by
  have digits : (decimal value).all isDigit = true :=
    List.all_eq_true.mpr fun _ => isDigit_of_mem_decimal
  rw [parseUint_digits digits (by rw [digitsValue_decimal]; exact below), digitsValue_decimal]

/-- The text of a number that fits is read back. -/
theorem parseInt_decimalInt {value : Int} (above : -9223372036854775808 ≤ value)
    (below : value ≤ 9223372036854775807) : parseInt (decimalInt value) = value := by
  by_cases negative : value < 0
  · have parsed : parseUint (decimal (-value).toNat) 0 = some (-value).toNat :=
      parseUint_decimal (by omega)
    rw [decimalInt_of_neg negative]
    simp [parseInt, decimal_ne_nil, parsed]
    omega
  · have unsigned : ∀ sign : UInt8, isDigit sign = false →
        (decimal value.toNat).head? ≠ some sign := by
      intro sign notDigit isHead
      have isDigit := isDigit_of_mem_decimal (List.mem_of_head? isHead)
      rw [notDigit] at isDigit
      cases isDigit
    have parsed : parseUint (decimal value.toNat) 0 = some value.toNat :=
      parseUint_decimal (by omega)
    rw [decimalInt_of_nonneg (by omega)]
    simp [parseInt, decimal_ne_nil, parsed, unsigned 45 rfl, unsigned 43 rfl]
    omega

/-- `connJSON`. -/
structure ConnJSON where
  transport : Bytes
  gatewayID : Bytes
  remoteAddr : Bytes
  connectedAt : Int
  lastPacketSeq : UInt64
deriving DecidableEq

structure Connection extends ConnJSON where
  connectionID : Bytes
deriving DecidableEq

/-- `Session`. Times are Unix seconds. -/
structure Session where
  sessionID : Bytes
  userID : Bytes
  deviceID : Bytes
  status : Status
  cryptoState : Bytes
  createdAt : Int
  lastActive : Int
  expiresAt : Int
  connections : List Connection
deriving DecidableEq

/-- A field of a Go map: the empty text when it is missing. -/
def Hash.field (vals : Hash) (name : String) : Bytes :=
  (vals.get (utf8 name)).getD []

@[simp] theorem Hash.field_set_self (hash : Hash) (name : String) (value : Bytes) :
    (hash.set (utf8 name) value).field name = value := by
  rw [Hash.field, Hash.get_set_self, Option.getD_some]

theorem Hash.field_set_of_ne (hash : Hash) {field : Bytes} {name : String}
    (different : utf8 name ≠ field) (value : Bytes) :
    (hash.set field value).field name = hash.field name := by
  rw [Hash.field, Hash.get_set_of_ne hash different, Hash.field]

def Session.ofHash (sessionID : Bytes) (vals : Hash) (connections : List Connection) :
    Session where
  sessionID := sessionID
  userID := hexDecodeString (vals.field "user_id")
  deviceID := hexDecodeString (vals.field "device_id")
  status := Status.ofText (vals.field "status")
  cryptoState := hexDecodeString (vals.field "crypto_state")
  createdAt := parseInt (vals.field "created_at")
  lastActive := parseInt (vals.field "last_active")
  expiresAt := parseInt (vals.field "expires_at")
  connections := connections

/-! ### Commands -/

inductive Command where
  | hGetAll (key : Bytes)
  | hSet (key field value : Bytes)
  | hSetFields (key : Bytes) (fields : List (Bytes × Bytes))
  | hDel (key field : Bytes)
  | expire (key : Bytes)
  | del (key : Bytes)
  | sAdd (key member : Bytes)
  | sRem (key member : Bytes)
  | sMembers (key : Bytes)
  | now
  | timeNow
  | rand
  | pgCreate (session : NewSession)
  | pgGet (sessionID : Bytes)
  | pgUpdateStatus (sessionID : Bytes) (status : Status)
  | pgUpdateCryptoState (sessionID : Bytes) (cryptoState : Slice)
  | pgDelete (sessionID : Bytes)
  | lapse (key : Bytes)

/-- `now` is `time.Now().Unix()`, `timeNow` is `time.Now()`. -/
abbrev Reply : Command → Type
  | .hGetAll _ => Except Bytes Hash
  | .hSet _ _ _ => Except Bytes Unit
  | .hSetFields _ _ => Except Bytes Unit
  | .hDel _ _ => Except Bytes Unit
  | .expire _ => Except Bytes Unit
  | .del _ => Except Bytes Unit
  | .sAdd _ _ => Except Bytes Unit
  | .sRem _ _ => Except Bytes Unit
  | .sMembers _ => Except Bytes (List Bytes)
  | .now => Int
  | .timeNow => Time
  | .rand => Except Bytes Bytes
  | .pgCreate _ => Except Bytes Unit
  | .pgGet _ => Except Bytes (Option Row)
  | .pgUpdateStatus _ _ => Except Bytes Unit
  | .pgUpdateCryptoState _ _ => Except Bytes Unit
  | .pgDelete _ => Except Bytes Unit
  | .lapse _ => Unit

/-- Redis hashes and sets, whose keys are disjoint, and the PostgreSQL table. -/
structure State where
  hashes : Bytes → Hash
  sets : Bytes → List Bytes
  pg : List Row

def State.setHash (state : State) (key : Bytes) (hash : Hash) : State :=
  { state with hashes := fun other => if other = key then hash else state.hashes other }

def State.setMembers (state : State) (key : Bytes) (members : List Bytes) : State :=
  { state with sets := fun other => if other = key then members else state.sets other }

/-- `SADD` of one member. -/
def State.addMember (state : State) (key member : Bytes) : State :=
  if (state.sets key).contains member then state
  else state.setMembers key (member :: state.sets key)

/-- `SREM` of one member. -/
def State.removeMember (state : State) (key member : Bytes) : State :=
  state.setMembers key ((state.sets key).filter fun present => present ≠ member)

section Members

variable (state : State) (key member other present : Bytes)

theorem State.mem_addMember :
    present ∈ (state.addMember key member).sets other ↔
      present ∈ state.sets other ∨ (other = key ∧ present = member) := by
  unfold State.addMember
  split
  · next contained =>
    refine ⟨.inl, ?_⟩
    rintro (isMember | ⟨rfl, rfl⟩)
    · exact isMember
    · exact List.contains_iff_mem.mp contained
  · by_cases same : other = key
    · simp [State.setMembers, same, or_comm]
    · simp [State.setMembers, same]

theorem State.mem_removeMember :
    present ∈ (state.removeMember key member).sets other ↔
      present ∈ state.sets other ∧ ¬(other = key ∧ present = member) := by
  unfold State.removeMember State.setMembers
  by_cases same : other = key <;> simp [same]

end Members

/-- What the environment decides about one command. `storedAt` is the database
clock of a statement that reads it. -/
inductive Choice where
  | ok
  | fail (error : Bytes)
  | time (now : Int)
  | clock (now : Time)
  | storedAt (now : Time)
  | random (bytes : Bytes)
  | noRandom (error : Bytes)

/-- The table after a statement. -/
def tableAfter (rows : List Row) : Except Bytes (List Row) → List Row
  | .ok changed => changed
  | .error _ => rows

def exec : (command : Command) → Choice → State → Option (Reply command × State)
  | .hGetAll key, .ok, state => some (.ok (state.hashes key), state)
  | .hGetAll _, .fail error, state => some (.error error, state)
  | .hSet key field value, .ok, state =>
      some (.ok (), state.setHash key ((state.hashes key).set field value))
  | .hSet _ _ _, .fail error, state => some (.error error, state)
  | .hSetFields key fields, .ok, state =>
      some (.ok (), state.setHash key ((state.hashes key).setAll fields))
  | .hSetFields _ _, .fail error, state => some (.error error, state)
  | .hDel key field, .ok, state =>
      some (.ok (), state.setHash key ((state.hashes key).del field))
  | .hDel _ _, .fail error, state => some (.error error, state)
  | .expire _, .ok, state => some (.ok (), state)
  | .expire _, .fail error, state => some (.error error, state)
  | .del key, .ok, state => some (.ok (), state.setHash key [])
  | .del _, .fail error, state => some (.error error, state)
  | .sAdd key member, .ok, state => some (.ok (), state.addMember key member)
  | .sAdd _ _, .fail error, state => some (.error error, state)
  | .sRem key member, .ok, state => some (.ok (), state.removeMember key member)
  | .sRem _ _, .fail error, state => some (.error error, state)
  | .sMembers key, .ok, state => some (.ok (state.sets key), state)
  | .sMembers _, .fail error, state => some (.error error, state)
  | .now, .time now, state => some (now, state)
  | .timeNow, .clock now, state => some (now, state)
  | .rand, .random bytes, state => if bytes.length = 16 then some (.ok bytes, state) else none
  | .rand, .noRandom error, state => some (.error error, state)
  | .pgCreate session, .ok, state =>
      let result := PGStore.create state.pg session
      some (result.map fun _ => (), { state with pg := tableAfter state.pg result })
  | .pgCreate _, .fail error, state => some (.error error, state)
  | .pgGet sessionID, .ok, state => some (.ok (PGStore.find state.pg sessionID), state)
  | .pgGet _, .fail error, state => some (.error error, state)
  | .pgUpdateStatus sessionID status, .storedAt now, state =>
      let result := PGStore.updateStatus state.pg sessionID status now
      some (result.map fun _ => (), { state with pg := tableAfter state.pg result })
  | .pgUpdateStatus _ _, .fail error, state => some (.error error, state)
  | .pgUpdateCryptoState sessionID cryptoState, .storedAt now, state =>
      let result := PGStore.updateCryptoState state.pg sessionID cryptoState now
      some (result.map fun _ => (), { state with pg := tableAfter state.pg result })
  | .pgUpdateCryptoState _ _, .fail error, state => some (.error error, state)
  | .pgDelete sessionID, .ok, state =>
      some (.ok (), { state with pg := PGStore.delete state.pg sessionID })
  | .pgDelete _, .fail error, state => some (.error error, state)
  | .lapse key, .ok, state => some ((), state.setHash key [])
  | _, _, _ => none

/-- What an executed command does to the hash under one key. -/
inductive HashStep (before : Hash) (key : Bytes) :
    (command : Command) → Reply command → Hash → Prop
  | kept (command : Command) (reply : Reply command) : HashStep before key command reply before
  | set (field value : Bytes) :
      HashStep before key (.hSet key field value) (.ok ()) (before.set field value)
  | setAll (fields : List (Bytes × Bytes)) :
      HashStep before key (.hSetFields key fields) (.ok ()) (before.setAll fields)
  | removed (field : Bytes) : HashStep before key (.hDel key field) (.ok ()) (before.del field)
  | deleted : HashStep before key (.del key) (.ok ()) []
  | lapsed : HashStep before key (.lapse key) () []

@[simp] theorem State.setHash_hashes (state : State) (key : Bytes) (hash : Hash) (other : Bytes) :
    (state.setHash key hash).hashes other = if other = key then hash else state.hashes other := rfl

@[simp] theorem State.addMember_hashes (state : State) (key member : Bytes) :
    (state.addMember key member).hashes = state.hashes := by
  unfold State.addMember
  split <;> rfl

/-- A command that writes one hash. -/
theorem HashStep.of_setHash {state : State} {key target : Bytes} {hash : Hash} {command : Command}
    {reply : Reply command}
    (step : key = target → HashStep (state.hashes key) key command reply hash) :
    HashStep (state.hashes key) key command reply ((state.setHash target hash).hashes key) := by
  rw [State.setHash_hashes]
  split
  · next same => exact step same
  · exact .kept _ _

/-- **One command, one hash.** -/
theorem exec_hashes {command : Command} {choice : Choice} {state after : State}
    {reply : Reply command} (executed : exec command choice state = some (reply, after))
    (key : Bytes) : HashStep (state.hashes key) key command reply (after.hashes key) := by
  cases command with
  | hSet target field value =>
      cases choice with
      | ok => cases executed; exact .of_setHash fun same => same ▸ .set field value
      | fail error => cases executed; exact .kept _ _
      | _ => cases executed
  | hSetFields target fields =>
      cases choice with
      | ok => cases executed; exact .of_setHash fun same => same ▸ .setAll fields
      | fail error => cases executed; exact .kept _ _
      | _ => cases executed
  | hDel target field =>
      cases choice with
      | ok => cases executed; exact .of_setHash fun same => same ▸ .removed field
      | fail error => cases executed; exact .kept _ _
      | _ => cases executed
  | del target =>
      cases choice with
      | ok => cases executed; exact .of_setHash fun same => same ▸ .deleted
      | fail error => cases executed; exact .kept _ _
      | _ => cases executed
  | lapse target =>
      cases choice with
      | ok => cases executed; exact .of_setHash fun same => same ▸ .lapsed
      | _ => cases executed
  | sAdd target member =>
      cases choice with
      | ok =>
          cases executed
          rw [State.addMember_hashes]
          exact .kept _ _
      | fail error => cases executed; exact .kept _ _
      | _ => cases executed
  | rand =>
      cases choice with
      | random bytes =>
          simp only [exec] at executed
          split at executed
          · cases executed; exact .kept _ _
          · cases executed
      | noRandom error => cases executed; exact .kept _ _
      | _ => cases executed
  | _ => cases choice <;> cases executed <;> exact .kept _ _

abbrev Code (Result : Type) := Program Command Reply Result

/-! ### The store -/

/-- `json.Unmarshal` of a stored connection; `none` is an error. -/
abbrev DecodeConn := Bytes → Option ConnJSON

namespace RedisStore

/-- `RedisStore.GetConnections`. -/
def getConnections (decodeConn : DecodeConn) (sessionID : Bytes) :
    Code (Except Bytes (List Connection)) := do
  match ← (Program.issue (Command.hGetAll (connKey sessionID)) : Code (Except Bytes Hash)) with
  | .error error => return .error error
  | .ok vals =>
      return .ok (vals.filterMap fun (connectionID, raw) =>
        (decodeConn raw).map fun fields => { toConnJSON := fields, connectionID })

/-- `RedisStore.Get`. An error while reading the connections is ignored. -/
def get (decodeConn : DecodeConn) (sessionID : Bytes) : Code (Except Bytes Session) := do
  match ← (Program.issue (Command.hGetAll (sessionKey sessionID)) :
      Code (Except Bytes Hash)) with
  | .error error => return .error (utf8 "redis hgetall: " ++ error)
  | .ok vals =>
      if vals = [] then
        return .error (utf8 "session not found: " ++ hexEncode sessionID)
      else
        match ← getConnections decodeConn sessionID with
        | .error _ => return .ok (Session.ofHash sessionID vals [])
        | .ok connections => return .ok (Session.ofHash sessionID vals connections)

def statusField : Bytes := utf8 "status"

/-- `RedisStore.UpdateStatus`. -/
def updateStatus (sessionID : Bytes) (status : Status) : Code (Except Bytes Unit) :=
  Program.issue (Command.hSet (sessionKey sessionID) statusField status.text)

/-- The error of a pipeline is the first error of its commands. -/
def firstError : List (Except Bytes Unit) → Except Bytes Unit
  | [] => .ok ()
  | .error error :: _ => .error error
  | .ok _ :: replies => firstError replies

/-- The fields that `RedisStore.Create` stores. -/
def createFields (session : NewSession) : List (Bytes × Bytes) :=
  [(utf8 "user_id", hexEncode session.userID.bytes),
    (utf8 "device_id", hexEncode session.deviceID.bytes),
    (statusField, session.status.text),
    (utf8 "crypto_state", hexEncode session.cryptoState.bytes),
    (utf8 "created_at", decimalInt session.createdAt.unix.toInt),
    (utf8 "last_active", decimalInt session.lastActive.unix.toInt),
    (utf8 "expires_at", decimalInt session.expiresAt.unix.toInt)]

theorem createFields_nodup (session : NewSession) :
    ((createFields session).map Prod.fst).Nodup := by
  have names : (createFields session).map Prod.fst =
      [utf8 "user_id", utf8 "device_id", statusField, utf8 "crypto_state", utf8 "created_at",
        utf8 "last_active", utf8 "expires_at"] := rfl
  rw [names]
  decide

/-- Every field that `Create` stores is found. -/
theorem field_create (hash : Hash) (session : NewSession) {name : String} {value : Bytes}
    (member : (utf8 name, value) ∈ createFields session) :
    (hash.setAll (createFields session)).field name = value := by
  rw [Hash.field, Hash.get_setAll hash (createFields_nodup session) member, Option.getD_some]

/-- `RedisStore.Create`. -/
def create (session : NewSession) : Code (Except Bytes Unit) := do
  let key := sessionKey session.sessionID
  let set ← (Program.issue (Command.hSetFields key (createFields session)) :
    Code (Except Bytes Unit))
  let expire ← (Program.issue (Command.expire key) : Code (Except Bytes Unit))
  let add ← (Program.issue (Command.sAdd (userSessionsKey session.userID.bytes)
    (hexEncode session.sessionID)) : Code (Except Bytes Unit))
  return firstError [set, expire, add]

/-- `RedisStore.UpdateCryptoState`. -/
def updateCryptoState (sessionID : Bytes) (cryptoState : Slice) : Code (Except Bytes Unit) :=
  Program.issue (Command.hSet (sessionKey sessionID) (utf8 "crypto_state")
    (hexEncode cryptoState.bytes))

/-- `RedisStore.UpdateLastActive`. -/
def updateLastActive (sessionID : Bytes) : Code (Except Bytes Unit) := do
  let now ← (Program.issue Command.now : Code Int)
  let set ← (Program.issue (Command.hSet (sessionKey sessionID) (utf8 "last_active")
    (utf8 (toString now))) : Code (Except Bytes Unit))
  let expire ← (Program.issue (Command.expire (sessionKey sessionID)) : Code (Except Bytes Unit))
  return firstError [set, expire]

/-- `RedisStore.Delete`. -/
def delete (decodeConn : DecodeConn) (sessionID : Bytes) : Code (Except Bytes Unit) := do
  match ← get decodeConn sessionID with
  | .error error => return .error error
  | .ok session =>
      let deleted ← (Program.issue (Command.del (sessionKey sessionID)) :
        Code (Except Bytes Unit))
      let connections ← (Program.issue (Command.del (connKey sessionID)) :
        Code (Except Bytes Unit))
      let member ← (Program.issue (Command.sRem (userSessionsKey session.userID)
        (hexEncode sessionID)) : Code (Except Bytes Unit))
      return firstError [deleted, connections, member]

/-- `RedisStore.RemoveConnection`. -/
def removeConnection (sessionID connectionID : Bytes) : Code (Except Bytes Unit) :=
  Program.issue (Command.hDel (connKey sessionID) connectionID)

/-- `RedisStore.GetUserSessions`. -/
def getUserSessions (userID : Bytes) : Code (Except Bytes (List Bytes)) := do
  match ← (Program.issue (Command.sMembers (userSessionsKey userID)) :
      Code (Except Bytes (List Bytes))) with
  | .error error => return .error error
  | .ok members => return .ok (members.map hexDecodeString)

end RedisStore

/-! ### The manager -/

/-- The errors of `TransitionSession`. -/
inductive TransitionSessionError where
  | store (text : Bytes)
  | transition (error : TransitionError)
deriving DecidableEq

/-- `Manager.TransitionSession`. The flag says whether the manager has a
PostgreSQL store; its errors are ignored. A destroyed session is `nil`. -/
def transitionSession (decodeConn : DecodeConn) (pg : Bool) (sessionID : Bytes) (event : Event) :
    Code (Except TransitionSessionError (Option Session)) := do
  match ← RedisStore.get decodeConn sessionID with
  | .error error => return .error (.store error)
  | .ok session =>
      match transition session.status event with
      | .error error => return .error (.transition error)
      | .ok result =>
          if result.destroyed then
            match ← RedisStore.delete decodeConn sessionID with
            | .error error => return .error (.store (utf8 "delete session: " ++ error))
            | .ok _ =>
                if pg then
                  let _ ← (Program.issue (Command.pgDelete sessionID) : Code (Except Bytes Unit))
                return .ok none
          else
            match ← RedisStore.updateStatus sessionID result.next with
            | .error error => return .error (.store (utf8 "redis update status: " ++ error))
            | .ok _ =>
                if event = .packetReceived then
                  let _ ← RedisStore.updateLastActive sessionID
                if pg then
                  let _ ← (Program.issue (Command.pgUpdateStatus sessionID result.next) :
                    Code (Except Bytes Unit))
                return .ok (some { session with status := result.next })

end FProto.Sessions
