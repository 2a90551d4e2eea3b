import FProto.Sessions.Interleaving
import FProto.Sessions.Terminal

/-!
Owns the way out of `connecting`: under any interleaving of the calls of a
session manager a session leaves that status only by a handshake, and never
comes back to it.

A call acts on the status that it read, which may be stale when it stores the
next one. The invariant therefore explains every status that was ever read, not
only the stored one.
-/

namespace FProto.Sessions

open FProto.Foundation
open RedisStore (statusField createFields)

/-! ### What is recorded -/

/-- No two calls draw the same session identifier. -/
def FreshIDs (trace : List TraceEntry) : Prop :=
  ∀ first second sessionID, ⟨first, .rand, .ok sessionID⟩ ∈ trace →
    ⟨second, .rand, .ok sessionID⟩ ∈ trace → first = second

/-- A `TransitionSession` call with `EventHandshakeOK` read the status `connecting`
of the session and afterwards stored `active`. -/
def Shook (pool : ManagerPool) (sessionID : Bytes) : Prop :=
  ∃ past index vals thread, past ++ [storeEntry index sessionID .active] <+: pool.world.trace ∧
    readEntry index sessionID vals ∈ past ∧
    Status.ofText (vals.field "status") = .connecting ∧
    pool.threads[index]? = some thread ∧
    thread.call = .call (.transitionSession sessionID .handshakeOK)

/-- Some call issued the command that stores the whole record of the session. -/
def RecordStored (trace : List TraceEntry) (sessionID : Bytes) : Prop :=
  ∃ thread fields reply,
    (⟨thread, .hSetFields (sessionKey sessionID) fields, reply⟩ : TraceEntry) ∈ trace

/-- Some call stored a status of the session. -/
def Moved (trace : List TraceEntry) (sessionID : Bytes) : Prop :=
  ∃ thread status, storeEntry thread sessionID status ∈ trace

/-- A status of a session, stored now or read earlier, is `connecting` from the
record, or there was a handshake. -/
def Explained (pool : ManagerPool) (sessionID : Bytes) (stored : Option Bytes) : Prop :=
  ∀ text, stored = some text → RecordStored pool.world.trace sessionID ∧
    (text = Status.connecting.text ∨ Shook pool sessionID)

/-- The invariant of a pool. -/
structure Handshaken (manager : Manager) (pool : ManagerPool) : Prop where
  obeying : pool.Obeying (Allows manager)
  stored : ∀ sessionID, Explained pool sessionID (pool.world.state.status sessionID)
  read : ∀ thread sessionID vals, readEntry thread sessionID vals ∈ pool.world.trace →
    Explained pool sessionID (vals.get statusField)
  moved : FreshIDs pool.world.trace → ∀ sessionID, Moved pool.world.trace sessionID →
    pool.world.state.status sessionID ≠ some Status.connecting.text

theorem start_handshaken (manager : Manager) {state : State}
    (unused : ∀ sessionID, state.status sessionID = none) :
    Handshaken manager (Pool.start state) where
  obeying := Pool.start_obeying state
  stored sessionID text isText := by
    have none : state.status sessionID = some text := isText
    rw [unused] at none
    cases none
  read _ _ _ member := absurd member List.not_mem_nil
  moved _ _ moved := by
    obtain ⟨_, _, member⟩ := moved
    exact absurd member List.not_mem_nil

/-! ### What an event keeps -/

section Steps

variable {manager : Manager} {pool after : ManagerPool}
  {event : Foundation.Event ManagerTask Choice}

theorem Shook.next {sessionID : Bytes} (shook : Shook pool sessionID)
    (stepped : pool.next manager.system event = some after) : Shook after sessionID := by
  obtain ⟨past, index, vals, thread, isPast, read, connecting, found, call⟩ := shook
  obtain ⟨later, located, sameCall⟩ := Pool.call_of_next found stepped
  exact ⟨past, index, vals, later, isPast.trans (Pool.trace_of_next stepped), read, connecting,
    located, sameCall.trans call⟩

theorem RecordStored.grow {trace longer : List TraceEntry} {sessionID : Bytes}
    (recorded : RecordStored trace sessionID) (grows : trace <+: longer) :
    RecordStored longer sessionID := by
  obtain ⟨thread, fields, reply, member⟩ := recorded
  exact ⟨thread, fields, reply, grows.subset member⟩

theorem FreshIDs.shrink {trace longer : List TraceEntry} (fresh : FreshIDs longer)
    (grows : trace <+: longer) : FreshIDs trace :=
  fun first second sessionID drawn again =>
    fresh first second sessionID (grows.subset drawn) (grows.subset again)

theorem Explained.next {sessionID : Bytes} {stored : Option Bytes}
    (explained : Explained pool sessionID stored)
    (stepped : pool.next manager.system event = some after) :
    Explained after sessionID stored := by
  intro text isText
  obtain ⟨recorded, known⟩ := explained text isText
  exact ⟨recorded.grow (Pool.trace_of_next stepped), known.imp_right fun shook => shook.next stepped⟩

/-- The status from which the machine allows a transition was in the hash. -/
theorem get_of_transition {vals : Hash} {event : Event} {result : TransitionResult}
    (allowed : transition (Status.ofText (vals.field "status")) event = .ok result) :
    vals.get statusField = some (vals.field "status") := by
  have name : utf8 "status" = statusField := rfl
  rw [Hash.field, name] at allowed ⊢
  cases found : vals.get statusField with
  | none =>
      rw [found] at allowed
      cases allowed
  | some text => rfl

/-- Out of `connecting` only the handshake leads on. -/
theorem transition_connecting {event : Event} {next : Status}
    (allowed : transition .connecting event = .ok { next := next }) :
    event = .handshakeOK ∧ next = .active := by
  cases event <;> cases allowed
  exact ⟨rfl, rfl⟩

/-- The stores of a status all follow the record. -/
theorem Handshaken.recorded_of_moved (handshaken : Handshaken manager pool) {sessionID : Bytes}
    (moved : Moved pool.world.trace sessionID) : RecordStored pool.world.trace sessionID := by
  obtain ⟨thread, status, member⟩ := moved
  obtain ⟨past, rest, split⟩ := List.append_of_mem member
  have isPast : past ++ [storeEntry thread sessionID status] <+: pool.world.trace :=
    ⟨rest, by rw [split]; simp⟩
  obtain ⟨running, -, allowed⟩ := handshaken.obeying.entries past _ isPast
  obtain ⟨event, vals, next, -, read, transitions, -⟩ := allowed.status_inv
  have readBefore : readEntry thread sessionID vals ∈ pool.world.trace :=
    isPast.subset (List.mem_append_left _ (mem_ownPast.mp read))
  exact (handshaken.read thread sessionID vals readBefore _ (get_of_transition transitions)).1

variable {thread : Nat} {choice : Choice} {call : ManagerTask} {command : Command}
  {following : Reply command → Code Outcome} {reply : Reply command} {state : State}

/-- What a call stores as the status: the next one, from a status that was
explained when the call read it. -/
theorem Handshaken.store (handshaken : Handshaken manager pool) {sessionID : Bytes} {status : Status}
    (found : pool.threads[thread]? = some ⟨call, .call command following, true⟩)
    (isStore : (⟨thread, command, reply⟩ : TraceEntry) = storeEntry thread sessionID status)
    (stepped : pool.next manager.system event = some after)
    (grown : after.world.trace = pool.world.trace ++ [⟨thread, command, reply⟩]) :
    status ≠ .connecting ∧ RecordStored after.world.trace sessionID ∧ Shook after sessionID := by
  cases isStore
  obtain ⟨event, vals, next, isCall, read, transitions, sameText⟩ :=
    (handshaken.obeying.allows found).status_inv
  obtain rfl := Status.text_injective sameText
  have readBefore : readEntry thread sessionID vals ∈ pool.world.trace := mem_ownPast.mp read
  obtain ⟨recorded, known⟩ :=
    handshaken.read thread sessionID vals readBefore _ (get_of_transition transitions)
  refine ⟨fun connecting => ?_, recorded.grow (Pool.trace_of_next stepped), ?_⟩
  · rcases (transition_ok transitions).2 rfl with same | same | same <;>
      rw [connecting] at same <;> cases same
  · rcases known with connecting | shook
    · have wasConnecting : Status.ofText (vals.field "status") = .connecting := by
        rw [connecting]
        exact Status.ofText_text .connecting
      rw [wasConnecting] at transitions
      obtain ⟨rfl, rfl⟩ := transition_connecting transitions
      obtain ⟨later, located, sameCall⟩ := Pool.call_of_next found stepped
      refine ⟨pool.world.trace, thread, vals, later, ?_, readBefore, wasConnecting, located,
        sameCall.trans isCall⟩
      rw [grown]
      exact List.prefix_rfl
    · exact shook.next stepped

/-- A record is stored before any of its statuses. -/
theorem Handshaken.not_recorded (handshaken : Handshaken manager pool) {sessionID : Bytes}
    {fields : List (Bytes × Bytes)}
    {following : Reply (.hSetFields (sessionKey sessionID) fields) → Code Outcome}
    (found : pool.threads[thread]? =
      some ⟨call, .call (.hSetFields (sessionKey sessionID) fields) following, true⟩)
    (fresh : FreshIDs pool.world.trace) : ¬RecordStored pool.world.trace sessionID := by
  rintro ⟨other, stored, reply, member⟩
  obtain ⟨past, rest, split⟩ := List.append_of_mem member
  obtain ⟨running, -, allowed⟩ :=
    handshaken.obeying.entries past _ ⟨rest, by rw [split, List.append_assoc]; rfl⟩
  obtain ⟨earlier, sameKey, -, -, drawn, -⟩ := allowed.record_inv
  obtain ⟨session, ownKey, -, -, drawnNow, first⟩ := (handshaken.obeying.allows found).record_inv
  rw [← sessionKey_injective sameKey] at drawn
  rw [← sessionKey_injective ownKey] at drawnNow
  have drawnBefore : (⟨other, .rand, .ok sessionID⟩ : TraceEntry) ∈ pool.world.trace := by
    rw [split]
    exact List.mem_append_left _ (mem_ownPast.mp drawn)
  -- The two calls drew one identifier, so they are one call, which stored its record already.
  obtain rfl := fresh _ _ _ drawnBefore (mem_ownPast.mp drawnNow)
  exact first _ (mem_ownPast.mpr member) _ _ rfl

/-- The stored statuses after a command. -/
theorem Handshaken.stored_step (handshaken : Handshaken manager pool)
    (found : pool.threads[thread]? = some ⟨call, .call command following, true⟩)
    (executed : exec command choice pool.world.state = some (reply, state))
    (stepped : pool.next manager.system event = some after)
    (grown : after.world.trace = pool.world.trace ++ [⟨thread, command, reply⟩])
    (sessionID : Bytes) : Explained after sessionID (state.status sessionID) := by
  rcases exec_status executed thread sessionID with
    kept | gone | ⟨status, isStore, -⟩ | ⟨fields, isRecord, stored⟩
  · rw [kept]
    exact (handshaken.stored sessionID).next stepped
  · rw [gone]
    exact fun _ impossible => by cases impossible
  · obtain ⟨-, recorded, shook⟩ := handshaken.store found isStore stepped grown
    exact fun _ _ => ⟨recorded, .inr shook⟩
  · cases isRecord
    obtain ⟨session, -, rfl, connecting, -⟩ := (handshaken.obeying.allows found).record_inv
    have isField : (statusField, session.status.text) ∈ createFields session := by
      simp [createFields]
    intro text isText
    refine ⟨⟨thread, createFields session, .ok (), ?_⟩, .inl ?_⟩
    · rw [grown]
      exact List.mem_append_right _ List.mem_cons_self
    · rw [stored, Hash.get_setAll _ (RedisStore.createFields_nodup session) isField,
        connecting] at isText
      exact (Option.some.inj isText).symm

/-- A status that was stored keeps `connecting` away. -/
theorem Handshaken.moved_step (handshaken : Handshaken manager pool)
    (found : pool.threads[thread]? = some ⟨call, .call command following, true⟩)
    (executed : exec command choice pool.world.state = some (reply, state))
    (stepped : pool.next manager.system event = some after)
    (grown : after.world.trace = pool.world.trace ++ [⟨thread, command, reply⟩])
    (fresh : FreshIDs pool.world.trace) {sessionID : Bytes}
    (moved : Moved after.world.trace sessionID) :
    state.status sessionID ≠ some Status.connecting.text := by
  have ofStore : ∀ status : Status,
      (⟨thread, command, reply⟩ : TraceEntry) = storeEntry thread sessionID status →
      state.status sessionID ≠ some Status.connecting.text := by
    intro status isStore
    rw [status_of_store executed isStore]
    intro same
    exact (handshaken.store found isStore stepped grown).1
      (Status.text_injective (Option.some.inj same))
  obtain ⟨other, status, member⟩ := moved
  rw [grown] at member
  rcases List.mem_append.mp member with early | last
  · have movedBefore : Moved pool.world.trace sessionID := ⟨other, status, early⟩
    rcases exec_status executed thread sessionID with
      kept | gone | ⟨status, isStore, -⟩ | ⟨fields, isRecord, -⟩
    · rw [kept]
      exact handshaken.moved fresh sessionID movedBefore
    · rw [gone]
      exact fun impossible => by cases impossible
    · exact ofStore status isStore
    · cases isRecord
      exact absurd (handshaken.recorded_of_moved movedBefore) (handshaken.not_recorded found fresh)
  · have isStore := (List.mem_singleton.mp last).symm
    obtain rfl : thread = other := congrArg Foundation.Entry.thread isStore
    exact ofStore status isStore

/-- **The step lemma.** -/
theorem Handshaken.next (handshaken : Handshaken manager pool)
    (stepped : pool.next manager.system event = some after) : Handshaken manager after := by
  have obeying := obeying_next handshaken.obeying stepped
  have stays : after.world = pool.world → Handshaken manager after := by
    intro same
    refine ⟨obeying, fun sessionID => ?_, fun thread sessionID vals member => ?_, ?_⟩
    · rw [same]
      exact (handshaken.stored sessionID).next stepped
    · rw [same] at member
      exact (handshaken.read thread sessionID vals member).next stepped
    · rw [same]
      exact handshaken.moved
  rcases Pool.next_cases stepped with
    ⟨_, -, -, rfl⟩ |
    ⟨thread, choice, call, command, following, reply, state, -, found, executed, isAfter⟩ |
    ⟨_, _, _, _, -, -, rfl⟩
  · exact stays rfl
  · have grown : after.world.trace = pool.world.trace ++ [⟨thread, command, reply⟩] := by
      rw [isAfter]
      rfl
    have left : after.world.state = state := by
      rw [isAfter]
      rfl
    refine ⟨obeying, fun sessionID => ?_, fun reader sessionID vals member => ?_,
      fun fresh sessionID moved => ?_⟩
    · rw [left]
      exact handshaken.stored_step found executed stepped grown sessionID
    · rw [grown] at member
      rcases List.mem_append.mp member with early | last
      · exact (handshaken.read reader sessionID vals early).next stepped
      · cases List.mem_singleton.mp last
        rw [exec_hGetAll_ok executed]
        exact (handshaken.stored sessionID).next stepped
    · rw [left]
      exact handshaken.moved_step found executed stepped grown
        (fresh.shrink (Pool.trace_of_next stepped)) moved
  · exact stays rfl

end Steps

/-! ### Every run -/

/-- **No session leaves `connecting` without a handshake.** In every state that any
interleaving of the calls reaches from stores without session statuses, as long
as every identifier is drawn once:

* a session whose status is `active`, `sleeping` or `expired` went through a
  handshake that read `connecting` and stored `active`;
* a session whose status was another one than `connecting` after some of the
  events does not have the status `connecting`. -/
theorem no_bypass_of_handshake (manager : Manager) (initial : State)
    (unused : ∀ sessionID, initial.status sessionID = none)
    (events : List (Foundation.Event ManagerTask Choice)) (pool : ManagerPool)
    (ran : (Pool.start initial).run manager.system events = some pool)
    (fresh : FreshIDs pool.world.trace) :
    (∀ sessionID (status : Status), status = .active ∨ status = .sleeping ∨ status = .expired →
      pool.world.state.status sessionID = some status.text → Shook pool sessionID) ∧
    ∀ past (middle : ManagerPool), past <+: events →
      (Pool.start initial).run manager.system past = some middle →
      ∀ sessionID text, middle.world.state.status sessionID = some text →
        text ≠ Status.connecting.text →
        pool.world.state.status sessionID ≠ some Status.connecting.text := by
  have reached : ∀ {events : List (Foundation.Event ManagerTask Choice)} {pool : ManagerPool},
      (Pool.start initial).run manager.system events = some pool → Handshaken manager pool :=
    run_invariant (fun _ _ _ handshaken stepped => handshaken.next stepped)
      (start_handshaken manager unused)
  refine ⟨fun sessionID status live isStatus => ?_,
    fun past middle isPast middleRan sessionID text isText left => ?_⟩
  · rcases ((reached ran).stored sessionID _ isStatus).2 with connecting | shook
    · have same := Status.text_injective connecting
      rcases live with rfl | rfl | rfl <;> cases same
    · exact shook
  · have grows := Pool.trace_of_prefix isPast middleRan ran
    rcases ((reached middleRan).stored sessionID text isText).2 with connecting | shook
    · exact absurd connecting left
    · obtain ⟨before, index, _, _, isBefore, -⟩ := shook
      have stored : storeEntry index sessionID .active ∈ pool.world.trace :=
        grows.subset (isBefore.subset (List.mem_append_right _ List.mem_cons_self))
      exact (reached ran).moved fresh sessionID ⟨index, .active, stored⟩

/-- A session is created and shakes hands. -/
def handshakeSchedule : List (Foundation.Event ManagerTask Choice) :=
  [.spawn (.call (.createSession none none)), .step 0 (.random (List.replicate 16 7)),
    .step 0 (.clock (Time.ofUnix 0)), .step 0 .ok,
    .spawn (.call (.transitionSession (List.replicate 16 7) .handshakeOK)),
    .step 1 .ok, .step 1 .ok, .step 1 .ok]

theorem no_bypass_of_handshake_active :
    ∃ pool, (Pool.start State.empty).run (Manager.mk false defaultConfig).system
        handshakeSchedule = some pool ∧
      FreshIDs pool.world.trace ∧
      pool.world.state.status (List.replicate 16 7) = some Status.active.text ∧
      Shook pool (List.replicate 16 7) := by
  obtain ⟨pool, ran⟩ : ∃ pool, (Pool.start State.empty).run (Manager.mk false defaultConfig).system
      handshakeSchedule = some pool := ⟨_, rfl⟩
  have active : pool.world.state.status (List.replicate 16 7) = some Status.active.text := by
    obtain rfl := Option.some.inj ran
    rfl
  have drawnBy : (pool.world.trace.all fun entry =>
      match entry.command with
      | .rand => entry.thread == 0
      | _ => true) = true := by
    obtain rfl := Option.some.inj ran
    rfl
  have fresh : FreshIDs pool.world.trace := by
    have first : ∀ thread sessionID, ⟨thread, .rand, .ok sessionID⟩ ∈ pool.world.trace →
        thread = 0 :=
      fun _ _ member => beq_iff_eq.mp (List.all_eq_true.mp drawnBy _ member)
    intro thread other sessionID drawn again
    rw [first thread sessionID drawn, first other sessionID again]
  exact ⟨pool, ran, fresh, active,
    (no_bypass_of_handshake _ _ (fun _ => rfl) _ pool ran fresh).1 _ .active (.inl rfl) active⟩

end FProto.Sessions
