import FProto.Foundation.Base64
import FProto.Foundation.ExpiringMap
import FProto.Redis.Keys
import FProto.Sessions.Connections

/-!
Owns `server/internal/senderkeys/store.go`: the JSON form of a cached key and
the four operations of the cache on Redis.

A Redis hash is a key of an expiring map: `HGET` finds, `HSET` puts, `EXPIRE`
touches, `HDEL` removes and `DEL` clears. The two commands of the pipeline in
`Set` are executed one by one, so other clients and time may come between them.

**Main result.** To its callers the cache is a map from groups and users to keys
in which a group lapses as a whole: `cache_is_expiring_map`.
-/

namespace FProto.SenderKeys

open FProto.Foundation
open FProto.Redis
open FProto.Sessions.ConnJSON (foldName naturalOf naturalOf_decimal)

/-! ### The JSON form of a key -/

structure CachedKey where
  keyID : UInt32
  chainKey : Slice
  signingKey : Slice
deriving DecidableEq

namespace CachedKey

inductive Field where
  | keyID
  | chainKey
  | signingKey
deriving DecidableEq

def Field.all : List Field := [.keyID, .chainKey, .signingKey]

/-- The `json` tag of a field. -/
def Field.tag : Field → Bytes
  | .keyID => utf8 "key_id"
  | .chainKey => utf8 "chain_key"
  | .signingKey => utf8 "signing_key"

/-- `json.Marshal` of a byte slice. -/
def sliceText : Slice → Bytes
  | none => utf8 "null"
  | some content => 34 :: Base64.encode content ++ [34]

/-- `json.Marshal` of one field. -/
def text (ck : CachedKey) : Field → Bytes
  | .keyID => decimal ck.keyID.toNat
  | .chainKey => sliceText ck.chainKey
  | .signingKey => sliceText ck.signingKey

/-- `json.Marshal`, which has no error here. -/
def marshal (ck : CachedKey) : Bytes :=
  Json.printObject (Field.all.map fun field => (field.tag, ck.text field))

/-- The field that a member name stands for. -/
def Field.ofName (name : Bytes) : Option Field :=
  Field.all.find? fun field => foldName field.tag = foldName name

/-- A slice while an object is decoded into it: its content, and what lies behind
it in its array. A later array for the same field is written over both. -/
abbrev Target := Option (Bytes × Bytes)

/-- One element of a JSON array; `null` leaves the byte that was there. -/
def elementOf (old : UInt8) : Json → Option UInt8
  | .null => some old
  | .number literal =>
      (naturalOf literal).bind fun value => if value ≤ 255 then some (UInt8.ofNat value) else none
  | _ => none

def elementsOf : Bytes → List Json → Option Bytes
  | _, [] => some []
  | memory, element :: elements => do
      let byte ← elementOf (memory.headD 0) element
      let bytes ← elementsOf memory.tail elements
      return byte :: bytes

/-- Decode a value into a slice; `none` is an error. -/
def sliceOf (target : Target) : Json → Option Target
  | .null => some none
  | .string text => (Base64.decode text).map fun content => some (content, [])
  | .array [] => some (some ([], []))
  | .array elements =>
      let memory := target.elim [] fun (content, behind) => content ++ behind
      (elementsOf memory elements).map fun content =>
        some (content, memory.drop elements.length)
  | _ => none

/-- A `CachedKey` while an object is decoded into it. -/
structure Draft where
  keyID : UInt32
  chainKey : Target
  signingKey : Target

namespace Draft

def zero : Draft := ⟨0, none, none⟩

/-- Decode one value into its field; `none` is an error. -/
def assign (draft : Draft) (field : Field) (json : Json) : Option Draft :=
  match field with
  | .keyID =>
      match json with
      | .null => some draft
      | .number literal =>
          (naturalOf literal).bind fun value =>
            if value ≤ 4294967295 then some { draft with keyID := UInt32.ofNat value } else none
      | _ => none
  | .chainKey => (sliceOf draft.chainKey json).map fun slice => { draft with chainKey := slice }
  | .signingKey =>
      (sliceOf draft.signingKey json).map fun slice => { draft with signingKey := slice }

/-- Decode the members of an object in order. -/
def assignAll (draft : Draft) : List (Bytes × Json) → Option Draft
  | [] => some draft
  | (name, json) :: members =>
      match Field.ofName name with
      | none => draft.assignAll members
      | some field => (draft.assign field json).bind fun draft => draft.assignAll members

def key (draft : Draft) : CachedKey where
  keyID := draft.keyID
  chainKey := draft.chainKey.map Prod.fst
  signingKey := draft.signingKey.map Prod.fst

end Draft

/-- `json.Unmarshal` into a zero `CachedKey`. -/
def unmarshal (data : Bytes) : Option CachedKey :=
  match Json.parse data with
  | some (.object members) => (Draft.zero.assignAll members).map Draft.key
  | some .null => some Draft.zero.key
  | _ => none

/-! ### Keys are read back -/

/-- What is read for a byte slice. -/
def sliceJson : Slice → Json
  | none => .null
  | some content => .string (Base64.encode content)

/-- What is read for one field. -/
def json (ck : CachedKey) : Field → Json
  | .keyID => .number (decimal ck.keyID.toNat)
  | .chainKey => sliceJson ck.chainKey
  | .signingKey => sliceJson ck.signingKey

theorem plain_of_isText {byte : UInt8} (isText : Base64.isText byte = true) : Json.Plain byte := by
  have each : ∀ value < 256, Base64.isText (UInt8.ofNat value) = true →
      UInt8.ofNat value < 0x80 ∧ Json.escapeByte (UInt8.ofNat value) = [UInt8.ofNat value] := by
    decide +kernel
  have here := each byte.toNat byte.toNat_lt
  rw [UInt8.ofNat_toNat] at here
  exact here isText

theorem reads_sliceText (slice : Slice) : Json.Reads (sliceText slice) (sliceJson slice) := by
  cases slice with
  | none => exact Json.reads_null
  | some content =>
      exact Json.reads_plain fun byte member =>
        plain_of_isText (Base64.isText_of_mem_encode content byte member)

theorem reads_text (ck : CachedKey) (field : Field) :
    Json.Reads (ck.text field) (ck.json field) := by
  cases field with
  | keyID => exact Json.reads_decimal _
  | chainKey => exact reads_sliceText _
  | signingKey => exact reads_sliceText _

theorem Field.ofName_tag (field : Field) : Field.ofName field.tag = some field := by
  cases field <;> decide +kernel

theorem Field.toValid_tag (field : Field) : Utf8.toValid field.tag = field.tag := by
  cases field <;> decide +kernel

theorem parse_marshal (ck : CachedKey) :
    Json.parse ck.marshal =
      some (.object (Field.all.map fun field => (field.tag, ck.json field))) := by
  have nonempty : Field.all.map (fun field => (field.tag, ck.text field, ck.json field)) ≠ [] :=
    List.cons_ne_nil _ _
  have parsed := Json.parse_printObject nonempty (by simp [reads_text])
  simp only [List.map_map, Function.comp_def, Field.toValid_tag] at parsed
  exact parsed

theorem sliceOf_json (target : Target) (slice : Slice) :
    sliceOf target (sliceJson slice) = some (slice.map fun content => (content, [])) := by
  cases slice with
  | none => rfl
  | some content =>
      simp only [sliceJson, sliceOf, Base64.decode_encode]
      rfl

theorem Draft.assign_keyID (draft : Draft) (keyID : UInt32) :
    draft.assign .keyID (.number (decimal keyID.toNat)) = some { draft with keyID } := by
  have below := keyID.toNat_lt
  simp only [assign, naturalOf_decimal, Option.bind_some]
  rw [if_pos (by omega), UInt32.ofNat_toNat]

theorem Draft.assign_chainKey (draft : Draft) (slice : Slice) :
    draft.assign .chainKey (sliceJson slice) =
      some { draft with chainKey := slice.map fun content => (content, []) } := by
  rw [assign, sliceOf_json, Option.map_some]

theorem Draft.assign_signingKey (draft : Draft) (slice : Slice) :
    draft.assign .signingKey (sliceJson slice) =
      some { draft with signingKey := slice.map fun content => (content, []) } := by
  rw [assign, sliceOf_json, Option.map_some]

theorem Draft.assignAll_nil (draft : Draft) : draft.assignAll [] = some draft := rfl

theorem Draft.assignAll_cons (draft : Draft) (field : Field) (json : Json)
    (members : List (Bytes × Json)) :
    draft.assignAll ((field.tag, json) :: members) =
      (draft.assign field json).bind fun draft => draft.assignAll members := by
  rw [assignAll, Field.ofName_tag]

/-- **Keys are read back**, with `nil` and empty slices told apart. -/
@[simp] theorem unmarshal_marshal (ck : CachedKey) : unmarshal ck.marshal = some ck := by
  obtain ⟨keyID, chainKey, signingKey⟩ := ck
  rw [unmarshal, parse_marshal]
  simp only [Field.all, List.map_cons, List.map_nil, json, Draft.assignAll_cons,
    Draft.assign_keyID, Draft.assign_chainKey, Draft.assign_signingKey, Option.bind_some,
    Draft.assignAll_nil, Option.map_some, Draft.key]
  cases chainKey <;> cases signingKey <;> rfl

end CachedKey

/-! ### The operations -/

/-- What an operation can fail with. -/
inductive CacheError where
  | redis (error : Bytes)
  | unmarshal
deriving DecidableEq

/-- `cacheTTL` in milliseconds, the unit of the clock. -/
def cacheTTL : Nat := 3600000

/-- A call of the cache, or time that passes. -/
inductive CacheCall where
  | set (groupID userID : Bytes) (ck : CachedKey)
  | get (groupID userID : Bytes)
  | delete (groupID userID : Bytes)
  | deleteAll (groupID : Bytes)
  | wait (duration : Nat)
deriving DecidableEq

/-- What a call returns. -/
inductive CacheResult where
  | key (result : Except CacheError (Option CachedKey))
  | done (result : Except CacheError Unit)
deriving DecidableEq

/-- Programs that issue Redis commands. -/
abbrev RedisCode (Result : Type) : Type :=
  Program (Access Bytes Bytes Bytes) (Access.Reply CacheError) Result

namespace Cache

/-- `Cache.Set`. `Exec` sends both commands and returns the first error. -/
def set (groupID userID : Bytes) (ck : CachedKey) : RedisCode (Except CacheError Unit) :=
  .call (.put (cacheKey groupID) (hexEncode userID) ck.marshal) fun stored =>
    .call (.touch (cacheKey groupID) cacheTTL) fun kept => .done (stored.bind fun _ => kept)

/-- `Cache.Get`. A missing field is `redis.Nil`, which is no error. -/
def get (groupID userID : Bytes) : RedisCode (Except CacheError (Option CachedKey)) :=
  .call (.find (cacheKey groupID) (hexEncode userID)) fun found =>
    .done
      (match found with
      | .error error => .error error
      | .ok none => .ok none
      | .ok (some data) =>
          (CachedKey.unmarshal data).elim (.error .unmarshal) fun ck => .ok (some ck))

/-- `Cache.Delete`. -/
def delete (groupID userID : Bytes) : RedisCode (Except CacheError Unit) :=
  .call (.remove (cacheKey groupID) (hexEncode userID)) .done

/-- `Cache.DeleteAll`. -/
def deleteAll (groupID : Bytes) : RedisCode (Except CacheError Unit) :=
  .call (.clear (cacheKey groupID)) .done

def code : CacheCall → RedisCode CacheResult
  | .set groupID userID ck => set groupID userID ck >>= fun result => .done (.done result)
  | .get groupID userID => get groupID userID >>= fun result => .done (.key result)
  | .delete groupID userID => delete groupID userID >>= fun result => .done (.done result)
  | .deleteAll groupID => deleteAll groupID >>= fun result => .done (.done result)
  | .wait duration => .call (.wait duration) fun _ => .done (.done (.ok ()))

/-- Any number of callers, on one Redis. -/
def system := Access.system code

end Cache

/-! ### What the cache is for -/

/-- Programs on a map from groups and users to keys. -/
abbrev KeyCode (Result : Type) : Type :=
  Program (Access Bytes Bytes CachedKey) (Access.Reply CacheError) Result

/-- The map of the keys: it is set in two steps, and read, deleted and cleared in
one. -/
def KeyMap.code : CacheCall → KeyCode CacheResult
  | .set groupID userID ck =>
      .call (.put groupID userID ck) fun stored =>
        .call (.touch groupID cacheTTL) fun kept => .done (.done (stored.bind fun _ => kept))
  | .get groupID userID => .call (.find groupID userID) fun found => .done (.key found)
  | .delete groupID userID => .call (.remove groupID userID) fun result => .done (.done result)
  | .deleteAll groupID => .call (.clear groupID) fun result => .done (.done result)
  | .wait duration => .call (.wait duration) fun _ => .done (.done (.ok ()))

def KeyMap.system := Access.system KeyMap.code

/-- Groups and users in hexadecimal, keys in JSON. -/
def cacheEncoding : Encoding Bytes Bytes CachedKey Bytes Bytes Bytes CacheError where
  key := cacheKey
  field := hexEncode
  value := CachedKey.marshal
  decode data := (CachedKey.unmarshal data).elim (.error .unmarshal) .ok
  key_injective := cacheKey_injective
  field_injective := hexEncode_injective
  decode_value ck := by rw [CachedKey.unmarshal_marshal]; rfl

/-- The code of the cache is the code of the map with its arguments encoded. -/
theorem code_eq_translate (call : CacheCall) :
    Cache.code call =
      (KeyMap.code call).translate cacheEncoding.access cacheEncoding.read := by
  cases call with
  | set groupID userID ck => rfl
  | get groupID userID =>
      refine congrArg (Program.call _) (funext fun found => ?_)
      rcases found with error | missing | data
      · rfl
      · rfl
      · have decoded : ((CachedKey.unmarshal data).elim (.error .unmarshal) fun ck => .ok (some ck) :
            Except CacheError (Option CachedKey)) = (cacheEncoding.decode data).map some := by
          simp only [cacheEncoding]
          cases CachedKey.unmarshal data <;> rfl
        exact congrArg (fun result => Program.done (CacheResult.key result)) decoded
  | delete groupID userID => rfl
  | deleteAll groupID => rfl
  | wait duration => rfl

def cacheSimulation : Simulation Cache.system KeyMap.system :=
  cacheEncoding.simulation code_eq_translate

/-- **The cache is an expiring map.** In every schedule of any number of concurrent
calls on an empty Redis, with time passing in between, commands that fail and
answers that are lost, the calls return what they return on the map of the keys. -/
theorem cache_is_expiring_map (schedule : List (Event CacheCall (Fate CacheError))) :
    ((Pool.start .empty).run Cache.system schedule).map Pool.outcomes =
      ((Pool.start .empty).run KeyMap.system schedule).map Pool.outcomes :=
  cacheSimulation.outcomes_eq cacheEncoding.represents_empty schedule

end FProto.SenderKeys
