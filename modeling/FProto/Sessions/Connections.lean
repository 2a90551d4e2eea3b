import FProto.Foundation.Json
import FProto.Sessions.RedisStore

/-!
Owns the JSON form of a stored connection in `proto-core/session/redis_store.go`
and `RedisStore.AddConnection`.

`json.Unmarshal` matches member names without case, skips members it does not
know, lets the last of several members win, ignores `null`, and fails on a
value of another type or out of range. A connection that was stored is read
back with U+FFFD for bytes that are no UTF-8.
-/

namespace FProto.Sessions

open FProto.Foundation

/-- What `AddConnection` reads of the connection it is given. -/
structure NewConnection where
  connectionID : Bytes
  transport : Bytes
  gatewayID : Bytes
  remoteAddr : Bytes
  connectedAt : Time
  lastPacketSeq : UInt64
deriving DecidableEq

/-- The value that `AddConnection` stores. -/
def NewConnection.toConnJSON (conn : NewConnection) : ConnJSON where
  transport := conn.transport
  gatewayID := conn.gatewayID
  remoteAddr := conn.remoteAddr
  connectedAt := conn.connectedAt.unix.toInt
  lastPacketSeq := conn.lastPacketSeq

namespace ConnJSON

/-- The fields of `connJSON`. -/
inductive Field where
  | transport
  | gatewayID
  | remoteAddr
  | connectedAt
  | lastPacketSeq
deriving DecidableEq

def Field.all : List Field := [.transport, .gatewayID, .remoteAddr, .connectedAt, .lastPacketSeq]

/-- The `json` tag of a field. -/
def Field.tag : Field → Bytes
  | .transport => utf8 "transport"
  | .gatewayID => utf8 "gateway_id"
  | .remoteAddr => utf8 "remote_addr"
  | .connectedAt => utf8 "connected_at"
  | .lastPacketSeq => utf8 "last_packet_seq"

/-- `json.Marshal` of one field. -/
def text (fields : ConnJSON) : Field → Bytes
  | .transport => Json.quote fields.transport
  | .gatewayID => Json.quote fields.gatewayID
  | .remoteAddr => Json.quote fields.remoteAddr
  | .connectedAt => decimalInt fields.connectedAt
  | .lastPacketSeq => decimal fields.lastPacketSeq.toNat

/-- `json.Marshal`. -/
def marshal (fields : ConnJSON) : Bytes :=
  Json.printObject (Field.all.map fun field => (field.tag, fields.text field))

/-- `foldName`: upper case, with the two characters beyond ASCII whose case
folds to a letter. Other characters fold to no character of a tag. -/
def foldName : Bytes → Bytes
  | 0xC5 :: 0xBF :: rest => 83 :: foldName rest
  | 0xE2 :: 0x84 :: 0xAA :: rest => 75 :: foldName rest
  | byte :: rest => (if 97 ≤ byte ∧ byte ≤ 122 then byte - 32 else byte) :: foldName rest
  | [] => []

/-- The field that a member name stands for. -/
def Field.ofName (name : Bytes) : Option Field :=
  Field.all.find? fun field => foldName field.tag = foldName name

def naturalOf (digits : Bytes) : Option Nat :=
  if digits ≠ [] ∧ digits.all isDigit then some (digitsValue 0 digits) else none

/-- `strconv.ParseInt` of a JSON number. -/
def int64Of : Bytes → Option Int
  | 45 :: digits =>
      (naturalOf digits).bind fun value =>
        if value ≤ 9223372036854775808 then some (-(value : Int)) else none
  | digits =>
      (naturalOf digits).bind fun value =>
        if value ≤ 9223372036854775807 then some (value : Int) else none

/-- `strconv.ParseUint` of a JSON number. -/
def uint64Of (digits : Bytes) : Option UInt64 :=
  (naturalOf digits).bind fun value =>
    if value ≤ 18446744073709551615 then some (UInt64.ofNat value) else none

/-- Decode one value into its field; `none` is a type or range error. -/
def assign (fields : ConnJSON) (field : Field) : Json → Option ConnJSON
  | .null => some fields
  | .string content =>
      match field with
      | .transport => some { fields with transport := content }
      | .gatewayID => some { fields with gatewayID := content }
      | .remoteAddr => some { fields with remoteAddr := content }
      | _ => none
  | .number literal =>
      match field with
      | .connectedAt => (int64Of literal).map fun value => { fields with connectedAt := value }
      | .lastPacketSeq => (uint64Of literal).map fun value => { fields with lastPacketSeq := value }
      | _ => none
  | _ => none

/-- Decode the members of an object in order. -/
def assignAll (fields : ConnJSON) : List (Bytes × Json) → Option ConnJSON
  | [] => some fields
  | (name, json) :: members =>
      match Field.ofName name with
      | none => fields.assignAll members
      | some field => (fields.assign field json).bind fun fields => fields.assignAll members

def zero : ConnJSON := ⟨[], [], [], 0, 0⟩

/-- `json.Unmarshal` into a zero `connJSON`. -/
def unmarshal : DecodeConn := fun raw =>
  match Json.parse raw with
  | some (.object members) => zero.assignAll members
  | some .null => some zero
  | _ => none

/-! ### Stored connections are read back -/

/-- The value with U+FFFD for bytes that are no UTF-8. -/
def toValid (fields : ConnJSON) : ConnJSON :=
  { fields with
    transport := Utf8.toValid fields.transport
    gatewayID := Utf8.toValid fields.gatewayID
    remoteAddr := Utf8.toValid fields.remoteAddr }

/-- What is read for one field. -/
def json (fields : ConnJSON) : Field → Json
  | .transport => .string (Utf8.toValid fields.transport)
  | .gatewayID => .string (Utf8.toValid fields.gatewayID)
  | .remoteAddr => .string (Utf8.toValid fields.remoteAddr)
  | .connectedAt => .number (decimalInt fields.connectedAt)
  | .lastPacketSeq => .number (decimal fields.lastPacketSeq.toNat)

theorem reads_text (fields : ConnJSON) (field : Field) :
    Json.Reads (fields.text field) (fields.json field) := by
  cases field with
  | transport => exact Json.reads_quote _
  | gatewayID => exact Json.reads_quote _
  | remoteAddr => exact Json.reads_quote _
  | connectedAt => exact Json.reads_decimalInt _
  | lastPacketSeq => exact Json.reads_decimal _

theorem naturalOf_decimal (value : Nat) : naturalOf (decimal value) = some value := by
  have digits : (decimal value).all isDigit = true :=
    List.all_eq_true.mpr fun _ => isDigit_of_mem_decimal
  rw [naturalOf, if_pos ⟨decimal_ne_nil value, digits⟩, digitsValue_decimal]

theorem uint64Of_decimal (value : UInt64) : uint64Of (decimal value.toNat) = some value := by
  have below := value.toNat_lt
  rw [uint64Of, naturalOf_decimal, Option.bind_some, if_pos (by omega), UInt64.ofNat_toNat]

theorem int64Of_decimalInt {value : Int} (above : -9223372036854775808 ≤ value)
    (below : value ≤ 9223372036854775807) : int64Of (decimalInt value) = some value := by
  by_cases negative : value < 0
  · rw [decimalInt_of_neg negative, int64Of, naturalOf_decimal, Option.bind_some,
      if_pos (by omega)]
    exact congrArg some (by omega)
  · have unsigned : int64Of (decimal value.toNat) =
        (naturalOf (decimal value.toNat)).bind fun value =>
          if value ≤ 9223372036854775807 then some (value : Int) else none := by
      unfold int64Of
      split
      · next digits signed =>
        have sign : isDigit 45 = true :=
          isDigit_of_mem_decimal (signed ▸ List.mem_cons_self : (45 : UInt8) ∈ decimal value.toNat)
        exact absurd sign (by decide)
      · rfl
    rw [decimalInt_of_nonneg (by omega), unsigned, naturalOf_decimal, Option.bind_some,
      if_pos (by omega)]
    exact congrArg some (by omega)

theorem Field.ofName_tag (field : Field) : Field.ofName field.tag = some field := by
  cases field <;> decide +kernel

theorem Field.toValid_tag (field : Field) : Utf8.toValid field.tag = field.tag := by
  cases field <;> decide +kernel

theorem parse_marshal (fields : ConnJSON) :
    Json.parse fields.marshal =
      some (.object (Field.all.map fun field => (field.tag, fields.json field))) := by
  have nonempty : Field.all.map (fun field => (field.tag, fields.text field, fields.json field)) ≠
      [] := List.cons_ne_nil _ _
  have parsed := Json.parse_printObject nonempty (by simp [reads_text])
  simp only [List.map_map, Function.comp_def, Field.toValid_tag] at parsed
  exact parsed

theorem assignAll_nil (fields : ConnJSON) : fields.assignAll [] = some fields := rfl

theorem assignAll_cons (fields : ConnJSON) (field : Field) (json : Json)
    (members : List (Bytes × Json)) :
    fields.assignAll ((field.tag, json) :: members) =
      (fields.assign field json).bind fun fields => fields.assignAll members := by
  rw [assignAll, Field.ofName_tag]

/-- **Connections are read back.** -/
theorem unmarshal_marshal {fields : ConnJSON} (above : -9223372036854775808 ≤ fields.connectedAt)
    (below : fields.connectedAt ≤ 9223372036854775807) :
    unmarshal fields.marshal = some fields.toValid := by
  rw [unmarshal, parse_marshal]
  simp only [Field.all, List.map_cons, List.map_nil, assignAll_cons, json, assign,
    int64Of_decimalInt above below, uint64Of_decimal, Option.map_some, Option.bind_some,
    assignAll_nil, toValid]

theorem unmarshal_stored (conn : NewConnection) :
    unmarshal conn.toConnJSON.marshal = some conn.toConnJSON.toValid :=
  unmarshal_marshal conn.connectedAt.unix.le_toInt
    (Int.le_of_lt_add_one conn.connectedAt.unix.toInt_lt)

end ConnJSON

/-- `RedisStore.AddConnection`. The value always has a JSON form. -/
def RedisStore.addConnection (sessionID : Bytes) (conn : NewConnection) :
    Code (Except Bytes Unit) :=
  Program.issue (Command.hSet (connKey sessionID) conn.connectionID conn.toConnJSON.marshal)

end FProto.Sessions
