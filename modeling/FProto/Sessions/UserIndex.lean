import FProto.Sessions.Effects

/-!
Owns when the Redis set of a user's session ids is consistent with the session
records.

`Create` adds an id to the set and `Delete` removes it. A record that expires
or that a transition moves to `expired` stays in the set, a record that
`UpdateCryptoState` makes out of nothing is in none, and in a pipeline either
of the two writes can fail alone.
-/

namespace FProto.Sessions

open FProto.Foundation
open RedisStore (statusField createFields firstError)

/-! ### The property -/

/-- Every user's list has exactly the ids of the sessions of that user that `Get`
returns and that are not expired. -/
def IndexConsistent (ledger : Ledger) : Prop :=
  ∀ userID ids after,
    (RedisStore.getUserSessions userID).run exec [.ok] ledger.state = some (.ok ids, after) →
    ∀ sessionID, sessionID ∈ ids ↔
      ∃ session final,
        (RedisStore.get ConnJSON.unmarshal sessionID).run exec [.ok, .ok] ledger.state =
            some (.ok session, final) ∧
          session.userID = userID ∧ session.status ≠ .expired

/-- The record is one that the list of the user is to have. -/
def Lists (hash : Hash) (userID : Bytes) : Prop :=
  hash ≠ [] ∧ hexDecodeString (hash.field "user_id") = userID ∧
    Status.ofText (hash.field "status") ≠ .expired

/-- The condition on the commands of `CreateSession`: the two writes of `Create`
both work, on an id that is in no other user's list, or both fail, or change
nothing. -/
def CreateKeeps (state : State) (userID : Bytes) (log : Log) : Prop :=
  ∀ sessionID, log.head? = some ⟨.rand, .ok sessionID⟩ →
    let stored := ∃ fields, ⟨.hSetFields (sessionKey sessionID) fields, .ok ()⟩ ∈ log
    let added := ⟨.sAdd (userSessionsKey userID) (hexEncode sessionID), .ok ()⟩ ∈ log
    (stored ∧ added →
      ∀ owner, Lists (state.hashes (sessionKey sessionID)) owner → owner = userID) ∧
    (¬(stored ↔ added) → Lists (state.hashes (sessionKey sessionID)) userID)

/-- The condition on the commands of `TransitionSession`: the record and its entry
in the list are both removed or neither is, and the session does not become
expired. -/
def TransitionKeeps (sessionID : Bytes) (log : Log) : Prop :=
  (⟨.del (sessionKey sessionID), .ok ()⟩ ∈ log ↔
    ∃ userID, ⟨.sRem (userSessionsKey userID) (hexEncode sessionID), .ok ()⟩ ∈ log) ∧
  ⟨.hSet (sessionKey sessionID) statusField (Status.text .expired), .ok ()⟩ ∉ log

/-- The condition on an event. Crypto state is stored in a record that is there,
and no record lapses that a list has. -/
def KeepsIndex (manager : Manager) (ledger : Ledger) : SerialEvent → Prop
  | .call call choices =>
      let log := (manager.code call).log exec choices ledger.state
      match call with
      | .createSession userID _ => CreateKeeps ledger.state userID.bytes log
      | .transitionSession sessionID _ => TransitionKeeps sessionID log
      | .updateCryptoState sessionID cryptoState =>
          ⟨.hSet (sessionKey sessionID) cryptoField (hexEncode cryptoState.bytes), .ok ()⟩ ∈ log →
            HasRecord ledger.state sessionID
      | _ => True
  | .lapse sessionID => ∀ userID, ¬Lists (ledger.state.hashes (sessionKey sessionID)) userID

/-! ### Sets and records -/

def Indexed (state : State) (userID sessionID : Bytes) : Prop :=
  hexEncode sessionID ∈ state.sets (userSessionsKey userID)

def IndexLaw (state : State) : Prop :=
  ∀ userID sessionID,
    Indexed state userID sessionID ↔ Lists (state.hashes (sessionKey sessionID)) userID

/-- Every member of a set is an encoded id. -/
def MembersEncoded (state : State) : Prop :=
  ∀ key, ∀ member ∈ state.sets key, ∃ sessionID, member = hexEncode sessionID

theorem indexConsistent_iff {ledger : Ledger} (encoded : MembersEncoded ledger.state) :
    IndexConsistent ledger ↔ IndexLaw ledger.state := by
  have listed : ∀ userID sessionID,
      (∃ session final,
        (RedisStore.get ConnJSON.unmarshal sessionID).run exec [.ok, .ok] ledger.state =
            some (.ok session, final) ∧
          session.userID = userID ∧ session.status ≠ .expired) ↔
        Lists (ledger.state.hashes (sessionKey sessionID)) userID := by
    intro userID sessionID
    constructor
    · rintro ⟨session, final, ran, owner, live⟩
      obtain ⟨-, -, stored⟩ := get_executes (executes_of_run ran)
      obtain ⟨present, connections, rfl⟩ := stored session rfl
      exact ⟨present, owner, live⟩
    · rintro ⟨present, owner, live⟩
      exact ⟨_, _, get_run present, owner, live⟩
  have members : ∀ userID sessionID,
      sessionID ∈ (ledger.state.sets (userSessionsKey userID)).map hexDecodeString ↔
        Indexed ledger.state userID sessionID := by
    intro userID sessionID
    rw [List.mem_map]
    constructor
    · rintro ⟨member, isMember, rfl⟩
      obtain ⟨sessionID, rfl⟩ := encoded _ member isMember
      rw [hexDecodeString_hexEncode]
      exact isMember
    · intro isMember
      exact ⟨_, isMember, hexDecodeString_hexEncode sessionID⟩
  constructor
  · intro consistent userID sessionID
    rw [← members, ← listed]
    exact consistent userID _ ledger.state rfl sessionID
  · intro law userID ids after ran sessionID
    cases ran
    rw [members, listed]
    exact law userID sessionID

/-- The lists are consistent again exactly when they are about the session that
was written to. -/
theorem indexLaw_of_frame (sessionID : Bytes) {state after : State} (law : IndexLaw state)
    (hashes : ∀ other, other ≠ sessionID →
      after.hashes (sessionKey other) = state.hashes (sessionKey other))
    (sets : ∀ userID other, other ≠ sessionID →
      (Indexed after userID other ↔ Indexed state userID other)) :
    IndexLaw after ↔ ∀ userID,
      Indexed after userID sessionID ↔ Lists (after.hashes (sessionKey sessionID)) userID := by
  constructor
  · exact fun after userID => after userID sessionID
  · intro here userID other
    by_cases same : other = sessionID
    · rw [same]
      exact here userID
    · rw [sets userID other same, hashes other same]
      exact law userID other

/-- A record without a list, or in the list of its owner. -/
theorem lists_of_stored {state : State} {sessionID : Bytes} {session : Session}
    (stored : Stored state sessionID session) (userID : Bytes) :
    Lists (state.hashes (sessionKey sessionID)) userID ↔
      session.userID = userID ∧ session.status ≠ .expired := by
  obtain ⟨present, connections, rfl⟩ := stored
  exact and_iff_right present

theorem lists_create (hash : Hash) {session : NewSession} (live : session.status ≠ .expired)
    (userID : Bytes) :
    Lists (hash.setAll (createFields session)) userID ↔ userID = session.userID.bytes := by
  have present : hash.setAll (createFields session) ≠ [] := List.cons_ne_nil _ _
  have stored : ∀ (name : String) value, (utf8 name, value) ∈ createFields session →
      (hash.setAll (createFields session)).field name = value :=
    fun _ _ => RedisStore.field_create hash session
  have user := stored "user_id" (hexEncode session.userID.bytes) (by simp [createFields])
  have status := stored "status" session.status.text (by simp [createFields, statusField])
  rw [Lists, user, status, hexDecodeString_hexEncode, Status.ofText_text]
  simp [present, live, eq_comm]

/-- Fields other than the owner and the status make no difference. -/
theorem lists_set {hash : Hash} (present : hash ≠ []) {field : Bytes}
    (notUser : utf8 "user_id" ≠ field) (notStatus : utf8 "status" ≠ field) (value userID : Bytes) :
    Lists (hash.set field value) userID ↔ Lists hash userID := by
  have nonempty : hash.set field value ≠ [] := List.cons_ne_nil _ _
  rw [Lists, Lists, Hash.field_set_of_ne hash notUser, Hash.field_set_of_ne hash notStatus,
    and_iff_right nonempty, and_iff_right present]

theorem lists_nil (userID : Bytes) : ¬Lists [] userID := fun lists => lists.1 rfl

/-! ### One event -/

theorem Quiet.not_mem {log : Log} (quiet : Quiet log) {command : Command} {reply : Reply command}
    (writes : wrote command reply = true) : ⟨command, reply⟩ ∉ log := by
  intro member
  have silent := (Bool.or_eq_false_iff.mp (quiet _ member)).1
  rw [writes] at silent
  cases silent

section Steps

variable {manager : Manager} {state after : State} {late : Log}

/-- The condition by the replies to the two writes. -/
theorem createKeeps_iff {userID deviceID : Slice} {drawn : Bytes} {now : Time}
    {set expire add : Except Bytes Unit} {tail : Log} (quiet : Quiet tail) :
    CreateKeeps state userID.bytes (⟨.rand, .ok drawn⟩ :: ⟨.timeNow, now⟩ ::
        createLog (manager.newSession userID deviceID drawn now) set expire add ++ tail) ↔
      (set = .ok () ∧ add = .ok () →
        ∀ owner, Lists (state.hashes (sessionKey drawn)) owner → owner = userID.bytes) ∧
      (¬(set = .ok () ↔ add = .ok ()) →
        Lists (state.hashes (sessionKey drawn)) userID.bytes) := by
  have notSet : ∀ fields, ⟨.hSetFields (sessionKey drawn) fields, .ok ()⟩ ∉ tail :=
    fun _ => quiet.not_mem rfl
  have notAdd : ⟨.sAdd (userSessionsKey userID.bytes) (hexEncode drawn), .ok ()⟩ ∉ tail :=
    quiet.not_mem rfl
  simp [CreateKeeps, createLog, Manager.newSession, notSet, notAdd,
    eq_comm (a := Except.ok ())]

theorem Lists.unique {hash : Hash} {first second : Bytes} (left : Lists hash first)
    (right : Lists hash second) : first = second :=
  left.2.1.symm.trans right.2.1

theorem index_create {userID deviceID : Slice} {result : Except Bytes NewSession}
    (law : IndexLaw state)
    (effect : CreateEffect manager userID deviceID state late result after) :
    IndexLaw after ↔ CreateKeeps state userID.bytes late := by
  cases effect with
  | noRandom error => exact iff_of_true law fun _ impossible => by simp at impossible
  | stored drawn now set expire add tail result quiet =>
      have indexed : ∀ owner, Indexed (state.afterCreate
          (manager.newSession userID deviceID drawn now) set add) owner drawn ↔
            Lists (state.hashes (sessionKey drawn)) owner ∨
              (add = .ok () ∧ owner = userID.bytes) := by
        intro owner
        rw [Indexed, State.mem_afterCreate, ← law owner drawn, Indexed]
        simp [Manager.newSession, userSessionsKey_injective.eq_iff]
      have created : ∀ owner, Lists ((state.hashes (sessionKey drawn)).setAll
          (createFields (manager.newSession userID deviceID drawn now))) owner ↔
            owner = userID.bytes := lists_create _ nofun
      rw [createKeeps_iff quiet, indexLaw_of_frame drawn law]
      · simp only [indexed]
        cases set with
        | error error =>
            rw [State.afterCreate_failed]
            cases add with
            | error error => simp
            | ok _ => simp
        | ok _ =>
            have written := State.afterCreate_self state
              (manager.newSession userID deviceID drawn now) add ()
            have lists : ∀ owner, Lists ((state.afterCreate
                (manager.newSession userID deviceID drawn now) (.ok ()) add).hashes
                  (sessionKey drawn)) owner ↔ owner = userID.bytes := fun owner =>
              (congrArg (Lists · owner) written).to_iff.trans (created owner)
            simp only [lists]
            cases add with
            | error error =>
                simp only [reduceCtorEq, false_and, or_false, and_false, iff_false,
                  not_true_eq_false, not_false_eq_true, forall_true_left, false_imp_iff, true_and]
                exact ⟨fun same => (same _).mpr rfl,
                  fun listed owner => ⟨fun other => other.unique listed, fun same => same ▸ listed⟩⟩
            | ok _ => simp
      · exact fun other different =>
          State.afterCreate_of_ne _ _ _ _ (sessionKey_injective.ne different)
      · intro owner other different
        rw [Indexed, State.mem_afterCreate]
        exact or_iff_left fun impossible => different (hexEncode_injective impossible.2.2)

theorem index_delete {sessionID : Bytes} {session : Session} (law : IndexLaw state)
    (stored : Stored state sessionID session) (live : session.status ≠ .expired)
    (record connections member : Except Bytes Unit) :
    IndexLaw (state.afterDelete sessionID session.userID record connections member) ↔
      (record = .ok () ↔ member = .ok ()) := by
  have indexed : ∀ owner, Indexed
      (state.afterDelete sessionID session.userID record connections member) owner sessionID ↔
        session.userID = owner ∧ ¬(member = .ok ()) := by
    intro owner
    rw [Indexed, State.mem_afterDelete, ← Indexed, law, lists_of_stored stored]
    rw [userSessionsKey_injective.eq_iff, and_iff_left live]
    constructor
    · rintro ⟨owned, kept⟩
      exact ⟨owned, fun done => kept ⟨done, owned.symm, rfl⟩⟩
    · rintro ⟨owned, kept⟩
      exact ⟨owned, fun removed => kept removed.1⟩
  rw [indexLaw_of_frame sessionID law]
  · simp only [indexed]
    cases record with
    | error error =>
        simp [State.afterDelete_failed, lists_of_stored stored, live]
    | ok _ =>
        simp [State.afterDelete_self, iff_false_intro (lists_nil _)]
  · exact fun other different => State.afterDelete_of_ne _ _ _ _ _ _ different
  · intro owner other different
    rw [Indexed, State.mem_afterDelete]
    exact and_iff_left fun impossible => different (hexEncode_injective impossible.2.2)

theorem lists_touch {target : Bytes} {hash changed : Hash} {isPacket : Bool} {touch : Log}
    (touched : TouchTail target hash isPacket touch changed) (present : hash ≠ []) (userID : Bytes) :
    Lists changed userID ↔ Lists hash userID := by
  cases touched with
  | absent => exact Iff.rfl
  | failed => exact Iff.rfl
  | done now expire => exact lists_set present (by decide) (by decide) _ _

theorem lists_status (hash : Hash) (status : Status) (userID : Bytes) :
    Lists (hash.set statusField status.text) userID ↔
      hexDecodeString (hash.field "user_id") = userID ∧ status ≠ .expired := by
  have nonempty : hash.set statusField status.text ≠ [] := List.cons_ne_nil _ _
  have stored : (hash.set statusField status.text).field "status" = status.text :=
    Hash.field_set_self hash "status" _
  rw [Lists, Hash.field_set_of_ne hash (by decide), stored, Status.ofText_text,
    and_iff_right nonempty]

theorem live_of_transition {current : Status} {event : Event} {result : TransitionResult}
    (allowed : transition current event = .ok result) : current ≠ .expired := by
  rcases (transition_ok allowed).1 with same | same | same <;> rw [same] <;> nofun

theorem index_moved {sessionID : Bytes} {session : Session} {status : Status} {isPacket : Bool}
    {touch : Log} {hash : Hash} {rows : List Row} (law : IndexLaw state)
    (stored : Stored state sessionID session) (live : session.status ≠ .expired)
    (touched : TouchTail sessionID ((state.hashes (sessionKey sessionID)).set statusField status.text)
      isPacket touch hash) :
    IndexLaw { state.setHash (sessionKey sessionID) hash with pg := rows } ↔ status ≠ .expired := by
  have hashes := State.setHash_hashes state (sessionKey sessionID) hash
  have listed : ∀ owner, Lists hash owner ↔ session.userID = owner ∧ status ≠ .expired := by
    intro owner
    rw [lists_touch touched (List.cons_ne_nil _ _), lists_status]
    obtain ⟨-, connections, rfl⟩ := stored
    exact Iff.rfl
  rw [indexLaw_of_frame sessionID law]
  · have indexed : ∀ owner, Indexed { state.setHash (sessionKey sessionID) hash with pg := rows }
        owner sessionID ↔ session.userID = owner := by
      intro owner
      exact (law owner sessionID).trans ((lists_of_stored stored owner).trans (and_iff_left live))
    dsimp only
    rw [hashes, if_pos rfl]
    simp only [indexed, listed]
    simp
  · intro other different
    exact (hashes _).trans (if_neg (sessionKey_injective.ne different))
  · exact fun _ _ _ => Iff.rfl

theorem transitionKeeps_quiet {log : Log} (sessionID : Bytes) (quiet : Quiet log) :
    TransitionKeeps sessionID log := by
  refine ⟨iff_of_false (quiet.not_mem rfl) ?_, quiet.not_mem rfl⟩
  rintro ⟨userID, member⟩
  exact quiet.not_mem rfl member

/-- The condition by the replies to the writes of `Delete`. -/
theorem transitionKeeps_delete (sessionID userID : Bytes)
    (record connections member : Except Bytes Unit) {reads tail : Log} (quiet : Quiet reads)
    (onlyPG : ∀ entry ∈ tail, entry.1 = .pgDelete sessionID) :
    TransitionKeeps sessionID
        (reads ++ deleteLog sessionID userID record connections member ++ tail) ↔
      (record = .ok () ↔ member = .ok ()) := by
  have notTail : ∀ {command : Command} {reply : Reply command},
      command ≠ .pgDelete sessionID → ⟨command, reply⟩ ∉ tail :=
    fun different isTail => different (onlyPG _ isTail)
  have removed : ∀ owner,
      ⟨.sRem (userSessionsKey owner) (hexEncode sessionID), .ok ()⟩ ∈
          reads ++ deleteLog sessionID userID record connections member ++ tail ↔
        owner = userID ∧ member = .ok () := by
    intro owner
    have notRead : ⟨.sRem (userSessionsKey owner) (hexEncode sessionID), .ok ()⟩ ∉ reads :=
      quiet.not_mem rfl
    have notLast : ⟨.sRem (userSessionsKey owner) (hexEncode sessionID), .ok ()⟩ ∉ tail :=
      notTail nofun
    simp [deleteLog, notRead, notLast, userSessionsKey_injective.eq_iff, eq_comm (a := Except.ok ())]
  have deleted : ⟨.del (sessionKey sessionID), .ok ()⟩ ∈
      reads ++ deleteLog sessionID userID record connections member ++ tail ↔ record = .ok () := by
    have notRead : ⟨.del (sessionKey sessionID), .ok ()⟩ ∉ reads := quiet.not_mem rfl
    have notLast : ⟨.del (sessionKey sessionID), .ok ()⟩ ∉ tail := notTail nofun
    simp [deleteLog, notRead, notLast, (connKey_ne_sessionKey _ _).symm, eq_comm (a := Except.ok ())]
  have noStatus : ⟨.hSet (sessionKey sessionID) statusField (Status.text .expired), .ok ()⟩ ∉
      reads ++ deleteLog sessionID userID record connections member ++ tail := by
    have notRead :
        ⟨.hSet (sessionKey sessionID) statusField (Status.text .expired), .ok ()⟩ ∉ reads :=
      quiet.not_mem rfl
    have notLast :
        ⟨.hSet (sessionKey sessionID) statusField (Status.text .expired), .ok ()⟩ ∉ tail :=
      notTail nofun
    simp [deleteLog, notRead, notLast]
  rw [TransitionKeeps, deleted, and_iff_left noStatus]
  simp only [removed, exists_eq_left]

theorem TouchTail.not_mem {target : Bytes} {hash changed : Hash} {isPacket : Bool} {touch : Log}
    (touched : TouchTail target hash isPacket touch changed) {command : Command}
    {reply : Reply command} (writes : wrote command reply = true)
    (different : ∀ value, command ≠ .hSet (sessionKey target) (utf8 "last_active") value) :
    ⟨command, reply⟩ ∉ touch := by
  intro member
  rcases touched.mem member with rfl | ⟨value, rfl⟩ | rfl
  · cases writes
  · exact different value rfl
  · cases writes

theorem transitionKeeps_moved {sessionID : Bytes} {status : Status} {reads touch tail : Log}
    {hash changed : Hash} {isPacket pg : Bool} {rows final : List Row} (quiet : Quiet reads)
    (touched : TouchTail sessionID hash isPacket touch changed)
    (durable : StatusTail sessionID status rows pg tail final) :
    TransitionKeeps sessionID
        (reads ++ ⟨.hSet (sessionKey sessionID) statusField status.text, .ok ()⟩ :: touch ++ tail) ↔
      status ≠ .expired := by
  have only : ∀ {command : Command} {reply : Reply command},
      ⟨command, reply⟩ ∈ reads ++
          ⟨.hSet (sessionKey sessionID) statusField status.text, .ok ()⟩ :: touch ++ tail →
      wrote command reply = true →
      (∀ value, command ≠ .hSet (sessionKey sessionID) (utf8 "last_active") value) →
      command ≠ .pgUpdateStatus sessionID status →
      command = .hSet (sessionKey sessionID) statusField status.text := by
    intro command reply member writes notTouch notStatus
    rw [List.append_assoc, List.cons_append, List.mem_append, List.mem_cons, List.mem_append]
      at member
    rcases member with isRead | isStore | isTouch | isTail
    · exact absurd isRead (quiet.not_mem writes)
    · exact congrArg Sigma.fst isStore
    · exact absurd isTouch (touched.not_mem writes notTouch)
    · exact absurd (durable.mem isTail) notStatus
  have otherField : statusField ≠ utf8 "last_active" := by decide
  constructor
  · rintro ⟨-, notExpired⟩ rfl
    exact notExpired (by simp)
  · intro live
    refine ⟨iff_of_false (fun member => ?_) ?_, fun member => ?_⟩
    · cases only member rfl nofun nofun
    · rintro ⟨userID, member⟩
      cases only member rfl nofun nofun
    · have same := only member rfl (fun _ same => otherField (Command.hSet.inj same).2.1) nofun
      exact live (Status.text_injective (Command.hSet.inj same).2.2).symm

theorem index_transition {pg : Bool} {sessionID : Bytes} {event : Event}
    {result : Except TransitionSessionError (Option Session)} (law : IndexLaw state)
    (effect : TransitionEffect pg sessionID event state late result after) :
    IndexLaw after ↔ TransitionKeeps sessionID late := by
  cases effect with
  | refused _ quiet error => exact iff_of_true law (transitionKeeps_quiet sessionID quiet)
  | deleteFailed reads quiet session stored _ allowed _ record connections member =>
      have keeps := transitionKeeps_delete sessionID session.userID record connections member quiet
        fun entry (isTail : entry ∈ []) => absurd isTail List.not_mem_nil
      rw [List.append_nil] at keeps
      rw [index_delete law stored (live_of_transition allowed), keeps]
  | destroyed reads quiet session stored _ allowed _ tail rows durable =>
      have deleted := (index_delete law stored (live_of_transition allowed) (.ok ()) (.ok ())
        (.ok ())).mpr Iff.rfl
      exact iff_of_true deleted
        ((transitionKeeps_delete _ _ _ _ _ quiet fun _ => durable.mem).mpr Iff.rfl)
  | moved reads quiet session stored status allowed touch hash touched tail rows durable =>
      rw [transitionKeeps_moved quiet touched durable]
      exact index_moved law stored (live_of_transition allowed) touched

/-- Writing the crypto state keeps the lists consistent exactly when there is a record:
without one it leaves a record that belongs to nobody. -/
theorem index_setCrypto (law : IndexLaw state) (sessionID value : Bytes) (rows : List Row) :
    IndexLaw { state.setField sessionID cryptoField value with pg := rows } ↔
      HasRecord state sessionID := by
  have hashes := State.setHash_hashes state (sessionKey sessionID)
    ((state.hashes (sessionKey sessionID)).set cryptoField value)
  rw [indexLaw_of_frame sessionID law]
  · have indexed : ∀ owner, Indexed { state.setField sessionID cryptoField value with pg := rows }
        owner sessionID ↔ Lists (state.hashes (sessionKey sessionID)) owner :=
      fun owner => law owner sessionID
    have written : (state.setField sessionID cryptoField value).hashes (sessionKey sessionID) = _ :=
      (hashes _).trans (if_pos rfl)
    simp only [indexed, written]
    constructor
    · intro same absent
      have ghost : Lists ((state.hashes (sessionKey sessionID)).set cryptoField value) [] := by
        rw [absent]
        refine ⟨List.cons_ne_nil _ _, ?_, ?_⟩
        · rw [Hash.field_set_of_ne _ (by decide)]
          rfl
        · rw [Hash.field_set_of_ne _ (by decide)]
          decide
      exact ((same []).mpr ghost).1 absent
    · intro present owner
      rw [lists_set present (by decide) (by decide)]
  · intro other different
    exact (hashes _).trans (if_neg (sessionKey_injective.ne different))
  · exact fun _ _ _ => Iff.rfl

theorem index_crypto {sessionID : Bytes} {cryptoState : Slice} {result : Except Bytes Unit}
    (law : IndexLaw state)
    (effect : CryptoEffect manager sessionID cryptoState state late result after) :
    IndexLaw after ↔
      (⟨.hSet (sessionKey sessionID) cryptoField (hexEncode cryptoState.bytes), .ok ()⟩ ∈ late →
        HasRecord state sessionID) := by
  have written := index_setCrypto law sessionID (hexEncode cryptoState.bytes)
  cases effect with
  | failed error => exact iff_of_true law (by simp)
  | redis noPg =>
      rw [forall_prop_of_true List.mem_cons_self]
      exact written state.pg
  | both _ rows statement =>
      rw [forall_prop_of_true List.mem_cons_self]
      cases result with
      | error error => exact written state.pg
      | ok _ => exact written rows

/-- **The step lemma.** An event keeps the lists consistent exactly under the
condition. -/
theorem index_next {ledger final : Ledger} {event : SerialEvent} (law : IndexLaw ledger.state)
    (stepped : manager.next ledger event = some final) :
    IndexLaw final.state ↔ KeepsIndex manager ledger event := by
  cases event with
  | call call choices =>
      obtain ⟨outcome, ran, -⟩ := Manager.next_call stepped
      have effect := code_executes (executes_of_run ran)
      have connections : ∀ id hash, IndexLaw (ledger.state.setHash (connKey id) hash) := by
        intro id hash userID other
        rw [State.setHash_hashes, if_neg (connKey_ne_sessionKey id other).symm]
        exact law userID other
      simp only [KeepsIndex]
      generalize Program.log _ _ choices ledger.state = late at effect ⊢
      generalize final.state = after at effect ⊢
      cases effect with
      | createSession effect => exact index_create law effect
      | getSession => exact iff_of_true law trivial
      | transitionSession effect => exact index_transition law effect
      | updateCryptoState effect => exact index_crypto law effect
      | registerConnection effect =>
          refine iff_of_true ?_ trivial
          cases effect with
          | added => exact connections _ _
          | _ => exact law
      | unregisterConnection effect =>
          refine iff_of_true ?_ trivial
          cases effect with
          | removed => exact connections _ _
          | failed => exact law
      | getUserSessions => exact iff_of_true law trivial
  | lapse sessionID =>
      obtain rfl := Option.some.inj stepped
      dsimp only [KeepsIndex]
      rw [indexLaw_of_frame sessionID law]
      · refine forall_congr' fun userID => ?_
        rw [State.setHash_hashes, if_pos rfl, iff_false_right (lists_nil userID)]
        exact not_congr (law userID sessionID)
      · intro other different
        rw [State.setHash_hashes, if_neg (sessionKey_injective.ne different)]
      · exact fun _ _ _ => Iff.rfl

/-- Only encoded ids are added to a set. -/
theorem membersEncoded_next {ledger final : Ledger} {event : SerialEvent}
    (encoded : MembersEncoded ledger.state) (stepped : manager.next ledger event = some final) :
    MembersEncoded final.state := by
  rcases Manager.next_cases stepped with
    ⟨call, choices, outcome, late, rfl, ran, effect, -⟩ | ⟨sessionID, rfl, state, -⟩
  · generalize final.state = after at effect ⊢
    have deleted : ∀ sessionID userID record connections member, MembersEncoded
        (ledger.state.afterDelete sessionID userID record connections member) := by
      intro sessionID userID record connections member key present isMember
      exact encoded key present ((State.mem_afterDelete _ _ _ _ _ _ _ _).mp isMember).1
    cases effect with
    | createSession effect =>
        cases effect with
        | noRandom => exact encoded
        | stored =>
            intro key present isMember
            rcases (State.mem_afterCreate _ _ _ _ _ _).mp isMember with old | ⟨-, -, new⟩
            · exact encoded key present old
            · exact ⟨_, new⟩
    | getSession => exact encoded
    | transitionSession effect =>
        cases effect with
        | refused => exact encoded
        | deleteFailed => exact deleted _ _ _ _ _
        | destroyed reads quiet session => exact deleted _ session.userID (.ok ()) (.ok ()) (.ok ())
        | moved => exact encoded
    | @updateCryptoState _ _ _ result _ effect =>
        cases effect with
        | failed => exact encoded
        | redis => exact encoded
        | both => cases result <;> exact encoded
    | registerConnection effect => cases effect <;> exact encoded
    | unregisterConnection effect => cases effect <;> exact encoded
    | getUserSessions => exact encoded
  · rw [state]
    exact encoded

end Steps

/-! ### Every run -/

/-- **When the lists of sessions are consistent.** All along a run of manager calls
and expiring session keys from empty stores, every user's list has exactly the
ids of that user's records that are not expired, if and only if every event
meets the condition. -/
theorem user_index_consistent_iff (manager : Manager) (events : List SerialEvent) :
    Always manager.next { state := State.empty } events IndexConsistent ↔
      EachStep manager.next { state := State.empty } events (KeepsIndex manager) := by
  have start : MembersEncoded State.empty := fun _ _ member => absurd member List.not_mem_nil
  have law : IndexLaw State.empty :=
    fun userID _ => iff_of_false List.not_mem_nil (lists_nil userID)
  refine always_iff_eachStep (fun ledger => MembersEncoded ledger.state) ?_ ?_ ?_ events
  · exact start
  · exact (indexConsistent_iff start).mpr law
  · intro ledger event final encoded consistent stepped
    have after := membersEncoded_next encoded stepped
    refine ⟨after, (indexConsistent_iff after).trans ?_⟩
    exact index_next ((indexConsistent_iff encoded).mp consistent) stepped

/-- After a logout the user's list still has the session, whose status is
`expired`. -/
theorem expired_session_listed :
    let manager : Manager := { pg := false, config := defaultConfig }
    let sessionID := List.replicate 16 7
    ∃ ledger session,
      run manager.next { state := State.empty }
          [.call (.createSession (some [1]) (some [2]))
              [.random sessionID, .clock (.ofUnix 0), .ok, .ok, .ok],
            .call (.transitionSession sessionID .handshakeOK) [.ok, .ok, .ok],
            .call (.transitionSession sessionID .explicitLogout) [.ok, .ok, .ok]] = some ledger ∧
        (RedisStore.getUserSessions [1]).run exec [.ok] ledger.state =
          some (.ok [sessionID], ledger.state) ∧
        (RedisStore.get ConnJSON.unmarshal sessionID).run exec [.ok, .ok] ledger.state =
          some (.ok session, ledger.state) ∧
        session.userID = [1] ∧ session.status = .expired := by
  refine ⟨_, _, rfl, rfl, rfl, rfl, rfl⟩

end FProto.Sessions
