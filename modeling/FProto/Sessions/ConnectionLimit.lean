import FProto.Sessions.Interleaving

/-!
Owns the limit on the connections of one session while calls of the session
manager interleave.

`RegisterConnection` counts the stored connections and stores its own in a
second command. Calls that count before one of them stores see the same free
place, so together they exceed the limit. The limit holds in every run in which
a call stores only while fewer connections were stored since it counted than it
found places.
-/

namespace FProto.Sessions

open FProto.Foundation

/-! ### Counting -/

/-- The entry stored a connection of the session. -/
def storesConnection (sessionID : Bytes) : Entry Command Reply → Bool
  | ⟨_, .hSet key _ _, .ok _⟩ => key == connKey sessionID
  | _ => false

theorem storesConnection_inv {sessionID : Bytes} {thread : Nat} {command : Command}
    {reply : Reply command} (stores : storesConnection sessionID ⟨thread, command, reply⟩ = true) :
    ∃ field value, (⟨thread, command, reply⟩ : Entry Command Reply) =
      ⟨thread, .hSet (connKey sessionID) field value, .ok ()⟩ := by
  cases command with
  | hSet key field value =>
      cases reply with
      | error error => cases stores
      | ok _ =>
          obtain rfl : key = connKey sessionID := beq_iff_eq.mp stores
          exact ⟨field, value, rfl⟩
  | _ => cases stores

/-- The number of stored connections is within the limit. -/
def WithinLimit (manager : Manager) (sessionID : Bytes) (state : State) : Prop :=
  (state.hashes (connKey sessionID)).length ≤ manager.config.maxConnections

instance (manager : Manager) (sessionID : Bytes) (state : State) :
    Decidable (WithinLimit manager sessionID state) :=
  inferInstanceAs (Decidable (_ ≤ _))

/-- The condition on an event: a call that stores a connection found more places
than connections were stored since it counted them. -/
def RegistersInTime (manager : Manager) (sessionID : Bytes) (pool : ManagerPool) :
    Foundation.Event ManagerTask Choice → Prop
  | .step thread choice => ∀ call field value following earlier vals later,
      pool.threads[thread]? =
        some ⟨call, .call (.hSet (connKey sessionID) field value) following, true⟩ →
      choice = .ok →
      pool.world.trace = earlier ++ ⟨thread, .hGetAll (connKey sessionID), .ok vals⟩ :: later →
      (decodedConnections vals).length + later.countP (storesConnection sessionID) <
        manager.config.maxConnections
  | _ => True

/-- Every value is the JSON form of a connection. -/
def Readable (conns : Hash) : Prop := ∀ entry ∈ conns, (ConnJSON.unmarshal entry.2).isSome = true

theorem Readable.length_decodedConnections {conns : Hash} (readable : Readable conns) :
    (decodedConnections conns).length = conns.length := by
  refine List.filterMap_length_eq_length.mpr fun entry member => ?_
  rw [Option.isSome_map]
  exact readable entry member

theorem Readable.del {conns : Hash} (readable : Readable conns) (field : Bytes) :
    Readable (conns.del field) :=
  fun entry member => readable entry (List.mem_of_mem_filter member)

theorem Readable.set {conns : Hash} (readable : Readable conns) (field : Bytes) {value : Bytes}
    (isConn : (ConnJSON.unmarshal value).isSome = true) : Readable (conns.set field value) := by
  intro entry member
  rcases List.mem_cons.mp member with rfl | kept
  · exact isConn
  · exact readable.del field entry kept

theorem length_del_le (conns : Hash) (field : Bytes) :
    (conns.del field).length ≤ conns.length :=
  List.length_filter_le _ _

theorem length_set_le (conns : Hash) (field value : Bytes) :
    (conns.set field value).length ≤ conns.length + 1 :=
  Nat.succ_le_succ (length_del_le conns field)

/-- What an allowed command does to the connections of a session. -/
theorem exec_connections {manager : Manager} {task : ManagerTask} {past : Log} {command : Command}
    {choice : Choice} {state after : State} {reply : Reply command} (thread : Nat)
    (allowed : Allows manager task past command)
    (executed : exec command choice state = some (reply, after)) (sessionID : Bytes)
    (readable : Readable (state.hashes (connKey sessionID))) :
    Readable (after.hashes (connKey sessionID)) ∧
      (after.hashes (connKey sessionID)).length ≤ (state.hashes (connKey sessionID)).length +
        if storesConnection sessionID ⟨thread, command, reply⟩ then 1 else 0 := by
  have step := exec_hashes executed (connKey sessionID)
  generalize after.hashes (connKey sessionID) = hash at step ⊢
  cases step with
  | kept => exact ⟨readable, Nat.le_add_right _ _⟩
  | set field value =>
      obtain ⟨conn, vals, -, -, -, rfl, rfl⟩ := allowed.connection_inv
      refine ⟨readable.set _ (by rw [ConnJSON.unmarshal_stored]; rfl), ?_⟩
      simpa [storesConnection] using length_set_le _ _ _
  | setAll fields =>
      obtain ⟨session, sameKey, -⟩ := allowed.record_inv
      exact absurd sameKey (connKey_ne_sessionKey _ _)
  | removed field => exact ⟨readable.del field, Nat.le_add_right_of_le (length_del_le _ _)⟩
  | deleted => exact ⟨fun _ member => absurd member List.not_mem_nil, Nat.zero_le _⟩
  | lapsed => exact ⟨fun _ member => absurd member List.not_mem_nil, Nat.zero_le _⟩

/-! ### Every run -/

/-- The invariant: every read bounds the number of connections now by what it
found and what was stored since. -/
structure Counted (manager : Manager) (sessionID : Bytes) (pool : ManagerPool) : Prop where
  obeying : pool.Obeying (Allows manager)
  readable : Readable (pool.world.state.hashes (connKey sessionID))
  reads : ∀ earlier thread vals later,
    pool.world.trace = earlier ++ ⟨thread, .hGetAll (connKey sessionID), .ok vals⟩ :: later →
    Readable vals ∧ (pool.world.state.hashes (connKey sessionID)).length ≤
      vals.length + later.countP (storesConnection sessionID)
  within : WithinLimit manager sessionID pool.world.state

section Steps

variable {manager : Manager} {sessionID : Bytes} {pool after : ManagerPool}
  {event : Foundation.Event ManagerTask Choice} {thread : Nat} {choice : Choice}
  {call : ManagerTask} {command : Command} {following : Reply command → Code Outcome}
  {reply : Reply command} {state : State}

/-- What the reads say after a command. -/
theorem Counted.reads_step (counted : Counted manager sessionID pool)
    (found : pool.threads[thread]? = some ⟨call, .call command following, true⟩)
    (executed : exec command choice pool.world.state = some (reply, state))
    {earlier later : List (Entry Command Reply)} {reader : Nat} {vals : Hash}
    (isRead : pool.world.trace ++ [⟨thread, command, reply⟩] =
      earlier ++ ⟨reader, .hGetAll (connKey sessionID), .ok vals⟩ :: later) :
    Readable vals ∧ (state.hashes (connKey sessionID)).length ≤
      vals.length + later.countP (storesConnection sessionID) := by
  obtain ⟨-, grows⟩ := exec_connections thread (counted.obeying.allows found) executed sessionID
    counted.readable
  rcases concat_eq_append_cons isRead with ⟨rfl, -, isLast⟩ | ⟨before, rfl, isTrace⟩
  · cases isLast
    obtain ⟨rfl, found⟩ := exec_hGetAll executed
    obtain rfl := found vals rfl
    exact ⟨counted.readable, Nat.le_add_right _ _⟩
  · obtain ⟨readable, bound⟩ := counted.reads earlier reader vals before isTrace
    refine ⟨readable, ?_⟩
    rw [List.countP_append, List.countP_singleton]
    omega

/-- The limit after a command that is in time. -/
theorem Counted.within_step (counted : Counted manager sessionID pool)
    (found : pool.threads[thread]? = some ⟨call, .call command following, true⟩)
    (executed : exec command choice pool.world.state = some (reply, state))
    (inTime : RegistersInTime manager sessionID pool (.step thread choice)) :
    WithinLimit manager sessionID state := by
  have within := counted.within
  have allowed := counted.obeying.allows found
  obtain ⟨-, grows⟩ := exec_connections thread allowed executed sessionID counted.readable
  unfold WithinLimit at within ⊢
  cases stores : storesConnection sessionID ⟨thread, command, reply⟩ with
  | false =>
      rw [stores] at grows
      simp only [Bool.false_eq_true, if_false] at grows
      omega
  | true =>
      rw [stores] at grows
      simp only [if_true] at grows
      obtain ⟨field, value, isStore⟩ := storesConnection_inv stores
      cases isStore
      obtain ⟨conn, vals, -, isPast, -⟩ := allowed.connection_inv
      have read : ⟨.hGetAll (connKey sessionID), .ok vals⟩ ∈ ownPast pool.world.trace thread := by
        rw [isPast]
        exact List.mem_cons_self
      obtain ⟨earlier, later, isTrace⟩ := List.append_of_mem (mem_ownPast.mp read)
      obtain ⟨readable, bound⟩ := counted.reads earlier thread vals later isTrace
      have isOk : choice = .ok := by
        cases choice with
        | ok => rfl
        | _ => cases executed
      have places := inTime call field value following earlier vals later found isOk isTrace
      rw [readable.length_decodedConnections] at places
      omega

/-- **The step lemma.** -/
theorem Counted.next (counted : Counted manager sessionID pool)
    (inTime : RegistersInTime manager sessionID pool event)
    (stepped : pool.next manager.system event = some after) : Counted manager sessionID after := by
  have obeying := obeying_next counted.obeying stepped
  rcases Pool.next_cases stepped with
    ⟨_, -, -, rfl⟩ |
    ⟨thread, choice, call, command, following, reply, state, rfl, found, executed, rfl⟩ |
    ⟨_, _, _, _, -, -, rfl⟩
  · exact ⟨obeying, counted.readable, counted.reads, counted.within⟩
  · exact ⟨obeying,
      (exec_connections thread (counted.obeying.allows found) executed sessionID
        counted.readable).1,
      fun _ _ _ _ isRead => counted.reads_step found executed isRead,
      counted.within_step found executed inTime⟩
  · exact ⟨obeying, counted.readable, counted.reads, counted.within⟩

end Steps

/-- **When the connection limit holds.** Start with connections of the session that
can be read and are within the limit. All along a run of concurrent calls of
the manager the number of stored connections stays within the limit, if
every call that stores a connection had found more places than connections
were stored since. -/
theorem connection_limit_of_inTime (manager : Manager) (sessionID : Bytes) (initial : State)
    (readable : Readable (initial.hashes (connKey sessionID)))
    (within : WithinLimit manager sessionID initial)
    (events : List (Foundation.Event ManagerTask Choice))
    (inTime : EachStep (fun pool event => pool.next manager.system event) (Pool.start initial)
      events (RegistersInTime manager sessionID)) :
    Always (fun pool event => pool.next manager.system event) (Pool.start initial) events
      (fun pool => WithinLimit manager sessionID pool.world.state) := by
  have start : Counted manager sessionID (Pool.start initial) :=
    { obeying := Pool.start_obeying initial
      readable := readable
      reads := fun earlier _ _ later isRead => by simp [Pool.start] at isRead
      within := within }
  have counted := always_of_eachStep start
    (fun _ _ _ counted inTime stepped => counted.next inTime stepped) inTime
  exact fun past middle isPast ran => (counted past middle isPast ran).within

def sampleConnection (connectionID : Bytes) : NewConnection where
  connectionID := connectionID
  transport := utf8 "quic"
  gatewayID := utf8 "gw"
  remoteAddr := utf8 "10.0.0.1:5222"
  connectedAt := Time.ofUnix 0
  lastPacketSeq := 0

def sampleManager : Manager where
  pg := false
  config := { defaultConfig with maxConnections := 1 }

/-- One gateway takes the only place. -/
theorem connection_limit_of_inTime_single :
    ∃ pool, (Pool.start State.empty).run sampleManager.system
        [.spawn (.call (.registerConnection [1] (sampleConnection (utf8 "a")))), .step 0 .ok,
          .step 0 .ok] = some pool ∧
      (pool.world.state.hashes (connKey [1])).length = 1 ∧
      WithinLimit sampleManager [1] pool.world.state := by
  have inTime : EachStep (fun pool event => pool.next sampleManager.system event)
      (Pool.start State.empty)
      [.spawn (.call (.registerConnection [1] (sampleConnection (utf8 "a")))), .step 0 .ok,
        .step 0 .ok] (RegistersInTime sampleManager [1]) := by
    refine eachStep_concat.mpr ⟨eachStep_concat.mpr ⟨eachStep_concat.mpr ⟨eachStep_nil, ?_⟩, ?_⟩, ?_⟩
    · exact fun _ _ _ _ => trivial
    · intro middle after ran _ call field value following earlier vals later found
      obtain rfl := Option.some.inj ran
      cases found
    · intro middle after ran _ call field value following earlier vals later found _ isTrace
      obtain rfl := Option.some.inj ran
      -- The only entry of the trace is the read, which found the empty hash.
      cases earlier with
      | nil =>
          cases isTrace
          decide
      | cons _ _ =>
          have long := congrArg List.length isTrace
          rw [List.cons_append, List.length_cons, List.length_append, List.length_cons] at long
          cases long
  refine ⟨_, rfl, rfl, ?_⟩
  exact connection_limit_of_inTime sampleManager [1] State.empty
    (fun _ member => absurd member List.not_mem_nil) (by decide) _ inTime _ _ List.prefix_rfl rfl

/-- Two gateways read the empty place and both store their connection. -/
theorem connection_limit_exceeded :
    ∃ pool, (Pool.start State.empty).run sampleManager.system
        [.spawn (.call (.registerConnection [1] (sampleConnection (utf8 "a")))),
          .spawn (.call (.registerConnection [1] (sampleConnection (utf8 "b")))),
          .step 0 .ok, .step 1 .ok, .step 0 .ok, .step 1 .ok] = some pool ∧
      WithinLimit sampleManager [1] State.empty ∧
      ¬WithinLimit sampleManager [1] pool.world.state := by
  refine ⟨_, rfl, by decide, by decide⟩

end FProto.Sessions
