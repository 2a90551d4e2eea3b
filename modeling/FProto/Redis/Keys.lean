import FProto.Sessions.RedisStore
import FProto.Sync.Handler

/-!
Owns the keys of the Redis database that sessions, dedup marks and sender keys share:
`sessionKey`, `connKey` and `userSessionsKey` of proto-core, `dedupKey` of the sync service
and `cacheKey` of the sender keys.

**Main result.** A key determines which of the five builders made it and from which
arguments, so that operations on one resource leave every other one alone
(`redis_keys_never_collide`).
-/

namespace FProto.Redis

open FProto.Foundation
open FProto.Sessions
open FProto.Sync

/-- `cacheKey` of `server/internal/senderkeys/store.go`. -/
def cacheKey (groupID : Bytes) : Bytes :=
  utf8 "group:" ++ hexEncode groupID ++ utf8 ":sender_keys"

theorem cacheKey_injective : Function.Injective cacheKey := by
  intro left right same
  exact hexEncode_injective (List.append_cancel_left (List.append_cancel_right same))

/-- What is stored under a key. -/
inductive Resource where
  | session (sessionID : Bytes)
  | connections (sessionID : Bytes)
  | userSessions (userID : Bytes)
  | dedupMark (userID messageID : Bytes)
  | senderKeys (groupID : Bytes)
deriving DecidableEq

namespace Resource

def key : Resource → Bytes
  | .session sessionID => sessionKey sessionID
  | .connections sessionID => connKey sessionID
  | .userSessions userID => userSessionsKey userID
  | .dedupMark userID messageID => dedupKey userID messageID
  | .senderKeys groupID => cacheKey groupID

/-- The first letter of a key: `s`, `u`, `d` or `g`. -/
def initial : Resource → UInt8
  | .session _ => 115
  | .connections _ => 115
  | .userSessions _ => 117
  | .dedupMark _ _ => 100
  | .senderKeys _ => 103

theorem head_key (resource : Resource) : resource.key.head? = some resource.initial := by
  cases resource <;> rfl

/-- Keys that are equal start with the same letter. -/
theorem initial_eq {resource other : Resource} (same : resource.key = other.key) :
    resource.initial = other.initial := by
  have heads := head_key resource
  rw [same, head_key] at heads
  exact (Option.some.inj heads).symm

/-- **A key determines its builder and all arguments of it.** -/
theorem key_injective : Function.Injective key := by
  intro resource other same
  -- the letter separates the builders, except for the two that start with a session
  have letter := initial_eq same
  cases resource with
  | session sessionID =>
      cases other with
      | session otherID => rw [sessionKey_injective same]
      | connections otherID => exact absurd same.symm (connKey_ne_sessionKey otherID sessionID)
      | userSessions _ | dedupMark _ _ | senderKeys _ => exact absurd letter (by simp [initial])
  | connections sessionID =>
      cases other with
      | session otherID => exact absurd same (connKey_ne_sessionKey sessionID otherID)
      | connections otherID => rw [connKey_injective same]
      | userSessions _ | dedupMark _ _ | senderKeys _ => exact absurd letter (by simp [initial])
  | userSessions userID =>
      cases other with
      | userSessions otherID => rw [userSessionsKey_injective same]
      | session _ | connections _ | dedupMark _ _ | senderKeys _ =>
          exact absurd letter (by simp [initial])
  | dedupMark userID messageID =>
      cases other with
      | dedupMark otherUser otherMessage =>
          obtain ⟨rfl, rfl⟩ := dedupKey_inj same
          rfl
      | session _ | connections _ | userSessions _ | senderKeys _ =>
          exact absurd letter (by simp [initial])
  | senderKeys groupID =>
      cases other with
      | senderKeys otherID => rw [cacheKey_injective same]
      | session _ | connections _ | userSessions _ | dedupMark _ _ =>
          exact absurd letter (by simp [initial])

end Resource

/-! ### The shared database -/

section Database

variable {Value : Type}

/-- An operation on a resource: what it leaves under the key, given what was there. -/
structure Operation (Value : Type) where
  resource : Resource
  change : Option Value → Option Value

def Operation.apply (database : Bytes → Option Value) (operation : Operation Value) :
    Bytes → Option Value :=
  Function.update database operation.resource.key
    (operation.change (database operation.resource.key))

theorem Operation.apply_of_ne {operation : Operation Value} {resource : Resource}
    (different : operation.resource ≠ resource) (database : Bytes → Option Value) :
    operation.apply database resource.key = database resource.key :=
  Function.update_of_ne (fun same => different (Resource.key_injective same.symm)) _ _

theorem run_of_ne {operations : List (Operation Value)} {resource : Resource}
    (different : ∀ operation ∈ operations, operation.resource ≠ resource)
    (database : Bytes → Option Value) :
    operations.foldl Operation.apply database resource.key = database resource.key := by
  induction operations generalizing database with
  | nil => rfl
  | cons operation operations inductionHypothesis =>
      obtain ⟨first, later⟩ := List.forall_mem_cons.mp different
      rw [List.foldl_cons, inductionHypothesis later, Operation.apply_of_ne first]

end Database

/-- The five builders are injective in all their arguments and never give the same key,
and whatever is done to other resources leaves what is stored for a resource. -/
theorem redis_keys_never_collide :
    Function.Injective Resource.key ∧
    ∀ (Value : Type) (database : Bytes → Option Value) (resource : Resource)
      (operations : List (Operation Value)),
      (∀ operation ∈ operations, operation.resource ≠ resource) →
      operations.foldl Operation.apply database resource.key = database resource.key :=
  ⟨Resource.key_injective, fun _ database _ _ different => run_of_ne different database⟩

end FProto.Redis
