import FProto.Sessions.RedisStore

/-!
Owns what concurrent `TransitionSession` calls do to a session that has
expired. Their Redis commands interleave in any order and keys lapse at any
moment.

A call reads the status, decides, and writes in separate commands. A call that
reads after `expired` was stored finds no transition, so it writes nothing; a
call that read before and writes after overwrites the status. The status stays
expired exactly in the runs where no call does that.
-/

namespace FProto.Sessions

open FProto.Foundation
open RedisStore (statusField)

/-! ### The system -/

/-- A transition of any session, or the end of a key's time to live. -/
inductive Call where
  | transitionSession (pg : Bool) (sessionID : Bytes) (event : Event)
  | lapse (key : Bytes)

abbrev Result := Except TransitionSessionError (Option Session)

def code (decodeConn : DecodeConn) : Call → Code Result
  | .transitionSession pg sessionID event => transitionSession decodeConn pg sessionID event
  | .lapse key => do
      let _ ← (Program.issue (Command.lapse key) : Code Unit)
      return .ok none

def manager (decodeConn : DecodeConn) : System Command Reply Result State Choice Call where
  exec := exec
  code := code decodeConn
  admits _ _ := true

/-- The stored status of a session. -/
def State.status (state : State) (sessionID : Bytes) : Option Bytes :=
  (state.hashes (sessionKey sessionID)).get statusField

abbrev TraceEntry := Foundation.Entry Command Reply

/-- A thread read the hash of a session. -/
def readEntry (thread : Nat) (sessionID : Bytes) (vals : Hash) : TraceEntry :=
  ⟨thread, .hGetAll (sessionKey sessionID), .ok vals⟩

/-- A thread stored a status of a session. -/
def storeEntry (thread : Nat) (sessionID : Bytes) (status : Status) : TraceEntry :=
  ⟨thread, .hSet (sessionKey sessionID) statusField status.text, .ok ()⟩

/-- Some call stored `expired`. -/
def StoredExpired (trace : List TraceEntry) (sessionID : Bytes) : Prop :=
  ∃ thread, storeEntry thread sessionID .expired ∈ trace

/-- Once `expired` was stored, the stored status is not a live one. -/
def StaysExpired (world : World Command Reply State) : Prop :=
  ∀ sessionID, StoredExpired world.trace sessionID →
    world.state.status sessionID ≠ some Status.active.text ∧
      world.state.status sessionID ≠ some Status.sleeping.text

/-- The thread read the session before some call stored `expired`. -/
def ReadBeforeExpired (world : World Command Reply State) (thread : Nat) (sessionID : Bytes) :
    Prop :=
  ∃ earlier later vals, world.trace = earlier ++ later ∧
    readEntry thread sessionID vals ∈ earlier ∧ StoredExpired later sessionID

/-- The condition on an event: a call does not store a live status of a session
that it read before `expired` was stored. -/
def NoStaleStore (pool : Pool Command Reply Result State Call) : Foundation.Event Call Choice → Prop
  | .step thread choice => ∀ call sessionID (status : Status) following,
      pool.threads[thread]? =
        some ⟨call, .call (.hSet (sessionKey sessionID) statusField status.text) following, true⟩ →
      choice = .ok → (status = .active ∨ status = .sleeping) →
      ¬ReadBeforeExpired pool.world thread sessionID
  | _ => True

/-! ### What a command does to a status -/

theorem status_setHash_self (state : State) (sessionID : Bytes) (hash : Hash) :
    (state.setHash (sessionKey sessionID) hash).status sessionID = hash.get statusField := by
  simp [State.status, State.setHash]

/-- A status is kept, or its key is deleted, or it is stored, or the whole record
is. -/
theorem exec_status {command : Command} {choice : Choice} {state after : State}
    {reply : Reply command} (executed : exec command choice state = some (reply, after))
    (thread : Nat) (sessionID : Bytes) :
    after.status sessionID = state.status sessionID ∨ after.status sessionID = none ∨
      (∃ status, (⟨thread, command, reply⟩ : TraceEntry) = storeEntry thread sessionID status ∧
        after.status sessionID = some status.text) ∨
      ∃ fields, (⟨thread, command, reply⟩ : TraceEntry) =
          ⟨thread, .hSetFields (sessionKey sessionID) fields, .ok ()⟩ ∧
        after.status sessionID =
          ((state.hashes (sessionKey sessionID)).setAll fields).get statusField := by
  have step := exec_hashes executed (sessionKey sessionID)
  unfold State.status
  generalize after.hashes (sessionKey sessionID) = hash at step ⊢
  cases step with
  | kept => exact .inl rfl
  | set field value =>
      by_cases same : statusField = field
      · subst same
        refine .inr (.inr (.inl ⟨Status.ofText value, ?_, ?_⟩))
        · rw [storeEntry, Status.text_ofText]
        · rw [Hash.get_set_self, Status.text_ofText]
      · exact .inl (Hash.get_set_of_ne _ same value)
  | setAll fields => exact .inr (.inr (.inr ⟨fields, rfl, rfl⟩))
  | removed field =>
      by_cases same : statusField = field
      · subst same
        exact .inr (.inl (Hash.get_del_self _ _))
      · exact .inl (Hash.get_del_of_ne _ same)
  | deleted => exact .inr (.inl rfl)
  | lapsed => exact .inr (.inl rfl)

theorem exec_hGetAll_ok {sessionID : Bytes} {choice : Choice} {state after : State} {vals : Hash}
    (executed : exec (.hGetAll (sessionKey sessionID)) choice state = some (.ok vals, after)) :
    vals.get statusField = state.status sessionID := by
  cases choice with
  | ok => cases executed; rfl
  | _ => cases executed

/-! ### Every store follows a read -/

/-- The read that a store of a status goes back to. -/
def Justified (past : List TraceEntry) (thread : Nat) (sessionID : Bytes) (status : Status) :
    Prop :=
  ∃ vals event, readEntry thread sessionID vals ∈ past ∧
    transition (Status.ofText (vals.field "status")) event = .ok { next := status }

/-- The discipline of the calls: every store follows a read of its own thread
from which the machine allows it, and no call stores a whole record. -/
def discipline : Discipline Command Reply State where
  Invariant world :=
    (∀ past thread sessionID status,
      past ++ [storeEntry thread sessionID status] <+: world.trace →
        Justified past thread sessionID status) ∧
    ∀ entry ∈ world.trace, ∀ key fields, entry.command ≠ .hSetFields key fields
  Evolves _ _ := True
  evolves_refl _ := trivial
  evolves_trans _ _ := trivial

section Programs

variable {decodeConn : DecodeConn} {thread : Nat} {Value : Type}
  {post : Value → World Command Reply State → Prop} {world : World Command Reply State}

theorem Justified.grow {past trace : List TraceEntry} {sessionID : Bytes} {status : Status}
    (justified : Justified past thread sessionID status) (grows : past <+: trace) :
    Justified trace thread sessionID status := by
  obtain ⟨vals, event, member, allowed⟩ := justified
  exact ⟨vals, event, grows.subset member, allowed⟩

/-- One command, which is justified if it stores a status. -/
theorem sound_call {command : Command} {next : Reply command → Code Value}
    (justified : ∀ sessionID (status : Status),
      command = .hSet (sessionKey sessionID) statusField status.text →
      Justified world.trace thread sessionID status)
    (following : ∀ reply (after : World Command Reply State), world.trace <+: after.trace →
      (⟨thread, command, reply⟩ : TraceEntry) ∈ after.trace →
      discipline.Sound exec thread post (next reply) after)
    (noRecord : ∀ key fields, command ≠ .hSetFields key fields := by nofun) :
    discipline.Sound exec thread post (.call command next) world := by
  intro before later invariant choice reply state executed
  refine ⟨⟨?_, ?_⟩, trivial, following reply _ ?_ ?_⟩
  · intro past other sessionID status isPast
    rcases List.prefix_concat_iff.mp isPast with same | isEarly
    · obtain ⟨rfl, sameEntry⟩ := List.append_inj' same rfl
      have entryEq : storeEntry other sessionID status = ⟨thread, command, reply⟩ :=
        List.singleton_inj.mp sameEntry
      have threadEq : other = thread := congrArg Foundation.Entry.thread entryEq
      have commandEq := (congrArg Foundation.Entry.command entryEq).symm
      rw [threadEq]
      exact (justified sessionID status commandEq).grow later.trace
    · exact invariant.1 past other sessionID status isEarly
  · intro entry member
    rcases List.mem_append.mp member with early | last
    · exact invariant.2 entry early
    · rw [List.mem_singleton.mp last]
      exact noRecord
  · exact later.trace.trans (List.prefix_append _ _)
  · exact List.mem_append_right _ (List.mem_singleton_self _)

theorem sound_done {result : Value} (always : ∀ after, post result after) :
    discipline.Sound exec thread post (.done result) world :=
  fun after _ _ => always after

/-- What a successful `Get` tells its caller. -/
theorem get_sound (sessionID : Bytes) :
    discipline.Sound exec thread
      (fun result after => ∀ session, result = .ok session →
        ∃ vals, readEntry thread sessionID vals ∈ after.trace ∧
          session.status = Status.ofText (vals.field "status"))
      (RedisStore.get decodeConn sessionID) world := by
  rw [RedisStore.get, Program.issue_bind]
  refine sound_call (fun _ _ impossible => nomatch impossible) fun reply read _ member => ?_
  cases reply with
  | error error => exact sound_done fun _ _ impossible => nomatch impossible
  | ok vals =>
      dsimp only
      split
      · exact sound_done fun _ _ impossible => nomatch impossible
      · refine sound_call (fun _ _ impossible => nomatch impossible) fun reply final grows _ => ?_
        cases reply with
        | error error =>
            intro after later _ session isSession
            obtain rfl := Except.ok.inj isSession
            exact ⟨vals, later.trace.subset (grows.subset member), rfl⟩
        | ok connections =>
            intro after later _ session isSession
            obtain rfl := Except.ok.inj isSession
            exact ⟨vals, later.trace.subset (grows.subset member), rfl⟩

theorem delete_sound (sessionID : Bytes) :
    discipline.Sound exec thread (fun _ _ => True) (RedisStore.delete decodeConn sessionID)
      world := by
  unfold RedisStore.delete
  refine (get_sound sessionID).bind fun result after _ _ _ => ?_
  cases result with
  | error error => exact sound_done fun _ => trivial
  | ok session =>
      refine sound_call (fun _ _ impossible => nomatch impossible) fun _ _ _ _ => ?_
      refine sound_call (fun _ _ impossible => nomatch impossible) fun _ _ _ _ => ?_
      refine sound_call (fun _ _ impossible => nomatch impossible) fun _ _ _ _ => ?_
      exact sound_done fun _ => trivial

theorem updateLastActive_sound (sessionID : Bytes) :
    discipline.Sound exec thread (fun _ _ => True) (RedisStore.updateLastActive sessionID)
      world := by
  have otherField : utf8 "last_active" ≠ statusField := by decide
  refine sound_call (fun _ _ impossible => nomatch impossible) fun now _ _ _ => ?_
  refine sound_call (fun _ _ same => ?_) fun _ _ _ _ => ?_
  · injection same with _ fieldEq
    exact absurd fieldEq otherField
  · refine sound_call (fun _ _ impossible => nomatch impossible) fun _ _ _ _ => ?_
    exact sound_done fun _ => trivial

/-- The durable store is told at the end, if there is one. -/
theorem recorded_sound (pg : Bool) {command : Command} (result : Value)
    (noStatus : ∀ sessionID (status : Status),
      command ≠ .hSet (sessionKey sessionID) statusField status.text)
    (noRecord : ∀ key fields, command ≠ .hSetFields key fields) :
    discipline.Sound exec thread (fun _ _ => True)
      (if pg then do
        let _ ← (Program.issue command : Code (Reply command))
        return result
      else return result : Code Value) world := by
  cases pg with
  | false => exact sound_done fun _ => trivial
  | true =>
      refine sound_call (fun sessionID status same => ?_) (fun _ _ _ _ => ?_) noRecord
      · exact absurd same (noStatus sessionID status)
      · exact sound_done fun _ => trivial

/-- A status that the machine allowed from the one that was read. -/
theorem justified_of_read {sessionID : Bytes} {session : Session} {event : Event}
    {outcome : TransitionResult} {vals : Hash}
    (member : readEntry thread sessionID vals ∈ world.trace)
    (status : session.status = Status.ofText (vals.field "status"))
    (allowed : transition session.status event = .ok outcome) (kept : ¬outcome.destroyed = true)
    {otherID : Bytes} {other : Status}
    (same : Command.hSet (sessionKey sessionID) statusField outcome.next.text =
      .hSet (sessionKey otherID) statusField other.text) :
    Justified world.trace thread otherID other := by
  injection same with keyEq _ textEq
  obtain rfl := sessionKey_injective keyEq
  have nextEq : outcome.next = other := Status.text_injective textEq
  refine ⟨vals, event, member, ?_⟩
  rw [← status, allowed]
  cases outcome
  simp_all

theorem transitionSession_sound (pg : Bool) (sessionID : Bytes) (event : Event) :
    discipline.Sound exec thread (fun _ _ => True)
      (transitionSession decodeConn pg sessionID event) world := by
  have finished : ∀ (result : Result) (after : World Command Reply State),
      discipline.Sound exec thread (fun _ _ => True) (.done result) after :=
    fun _ _ => sound_done fun _ => trivial
  unfold transitionSession
  refine (get_sound sessionID).bind fun result read _ _ known => ?_
  cases result with
  | error error => exact finished _ _
  | ok session =>
      obtain ⟨vals, member, status⟩ := known session rfl
      dsimp only
      split
      · exact finished _ _
      · next outcome allowed =>
        split
        · refine (delete_sound sessionID).bind fun result deleted _ _ _ => ?_
          cases result with
          | error error => exact finished _ _
          | ok _ => exact recorded_sound pg _ (by simp) (by simp)
        · next kept =>
          rw [RedisStore.updateStatus, Program.issue_bind]
          refine sound_call (fun _ _ same => justified_of_read member status allowed kept same)
            fun reply stored _ _ => ?_
          cases reply with
          | error error => exact finished _ _
          | ok _ =>
              dsimp only
              split
              · refine (updateLastActive_sound sessionID).bind fun _ active _ _ _ => ?_
                exact recorded_sound pg _ (by simp) (by simp)
              · exact recorded_sound pg _ (by simp) (by simp)

end Programs

theorem code_sound (decodeConn : DecodeConn) (call : Call) (thread : Nat)
    (world : World Command Reply State) :
    discipline.Sound exec thread (fun _ _ => True) (code decodeConn call) world := by
  cases call with
  | transitionSession pg sessionID event => exact transitionSession_sound pg sessionID event
  | lapse key =>
      exact sound_call (fun _ _ impossible => nomatch impossible)
        fun _ _ _ _ => sound_done fun _ => trivial

/-! ### What a read finds -/

/-- Reads after `expired` was stored find no live status. -/
def ReadsExpired (trace : List TraceEntry) : Prop :=
  ∀ past thread sessionID vals, past ++ [readEntry thread sessionID vals] <+: trace →
    StoredExpired past sessionID →
    vals.get statusField = none ∨ vals.get statusField = some Status.expired.text

/-- After `expired` only statuses that the machine moves to are stored. -/
def StoredMoved (world : World Command Reply State) : Prop :=
  ∀ sessionID, StoredExpired world.trace sessionID →
    world.state.status sessionID = none ∨
      ∃ status : Status, (status = .active ∨ status = .sleeping ∨ status = .expired) ∧
        world.state.status sessionID = some status.text

section Steps

variable {world : World Command Reply State} {thread : Nat} {command : Command}
  {choice : Choice} {reply : Reply command} {state : State}

/-- Without a live status only `expired` and a deleted session are left. -/
theorem StoredMoved.none_or_expired (moved : StoredMoved world) (stays : StaysExpired world)
    {sessionID : Bytes} (stored : StoredExpired world.trace sessionID) :
    world.state.status sessionID = none ∨
      world.state.status sessionID = some Status.expired.text := by
  rcases moved sessionID stored with gone | ⟨status, rfl | rfl | rfl, found⟩
  · exact .inl gone
  · exact absurd found (stays sessionID stored).1
  · exact absurd found (stays sessionID stored).2
  · exact .inr found

theorem storedExpired_record {sessionID : Bytes} :
    StoredExpired (world.record thread command reply state).trace sessionID ↔
      StoredExpired world.trace sessionID ∨
        (⟨thread, command, reply⟩ : TraceEntry) = storeEntry thread sessionID .expired := by
  constructor
  · rintro ⟨other, member⟩
    rcases List.mem_append.mp member with old | new
    · exact .inl ⟨other, old⟩
    · have same := List.mem_singleton.mp new
      have threadEq : other = thread := congrArg Foundation.Entry.thread same
      rw [threadEq] at same
      exact .inr same.symm
  · rintro (⟨other, member⟩ | same)
    · exact ⟨other, List.mem_append_left _ member⟩
    · exact ⟨thread, List.mem_append_right _ (List.mem_singleton.mpr same.symm)⟩

/-- A store that succeeds has stored its status. -/
theorem status_of_store {sessionID : Bytes} {status : Status}
    (executed : exec command choice world.state = some (reply, state))
    (isStore : (⟨thread, command, reply⟩ : TraceEntry) = storeEntry thread sessionID status) :
    state.status sessionID = some status.text := by
  cases isStore
  cases choice with
  | ok =>
      cases executed
      rw [status_setHash_self, Hash.get_set_self]
  | _ => cases executed

/-- The store that was executed last was justified. -/
theorem justified_of_store {sessionID : Bytes} {status : Status}
    (invariant : discipline.Invariant (world.record thread command reply state))
    (isStore : (⟨thread, command, reply⟩ : TraceEntry) = storeEntry thread sessionID status) :
    Justified world.trace thread sessionID status := by
  refine invariant.1 world.trace thread sessionID status ?_
  rw [← isStore]
  exact List.prefix_rfl

/-- Under the discipline a status is kept, deleted or stored alone. -/
theorem status_record (invariant : discipline.Invariant (world.record thread command reply state))
    (executed : exec command choice world.state = some (reply, state)) (sessionID : Bytes) :
    state.status sessionID = world.state.status sessionID ∨ state.status sessionID = none ∨
      ∃ status, (⟨thread, command, reply⟩ : TraceEntry) = storeEntry thread sessionID status ∧
        state.status sessionID = some status.text := by
  rcases exec_status executed thread sessionID with kept | gone | stored | ⟨fields, isRecord, -⟩
  · exact .inl kept
  · exact .inr (.inl gone)
  · exact .inr (.inr stored)
  · have last : (⟨thread, command, reply⟩ : TraceEntry) ∈
        (world.record thread command reply state).trace :=
      List.mem_append_right _ (List.mem_singleton_self _)
    exact absurd (congrArg Foundation.Entry.command isRecord) (invariant.2 _ last _ fields)

theorem StoredMoved.record (moved : StoredMoved world)
    (invariant : discipline.Invariant (world.record thread command reply state))
    (executed : exec command choice world.state = some (reply, state)) :
    StoredMoved (world.record thread command reply state) := by
  intro sessionID stored
  have ofStore : ∀ status : Status,
      (⟨thread, command, reply⟩ : TraceEntry) = storeEntry thread sessionID status →
      status = .active ∨ status = .sleeping ∨ status = .expired := by
    intro status isStore
    obtain ⟨vals, event, -, allowed⟩ := justified_of_store invariant isStore
    exact (transition_ok allowed).2 rfl
  rcases storedExpired_record.mp stored with old | new
  · rcases status_record invariant executed sessionID with kept | gone | ⟨status, isStore, found⟩
    · rw [World.record_state, kept]
      exact moved sessionID old
    · exact .inl gone
    · exact .inr ⟨status, ofStore status isStore, found⟩
  · exact .inr ⟨.expired, ofStore .expired new, status_of_store executed new⟩

theorem readsExpired_record (reads : ReadsExpired world.trace) (moved : StoredMoved world)
    (stays : StaysExpired world)
    (executed : exec command choice world.state = some (reply, state)) :
    ReadsExpired (world.record thread command reply state).trace := by
  intro past other sessionID vals isPast stored
  rcases List.prefix_concat_iff.mp isPast with same | isEarly
  · obtain ⟨rfl, sameEntry⟩ := List.append_inj' same rfl
    have entryEq := List.singleton_inj.mp sameEntry
    cases entryEq
    rw [exec_hGetAll_ok executed]
    exact moved.none_or_expired stays stored
  · exact reads past other sessionID vals isEarly stored

/-- A live status is stored after `expired` only by a call that read before. -/
theorem readBeforeExpired_of_store {sessionID : Bytes} {status : Status}
    (reads : ReadsExpired world.trace) (justified : Justified world.trace thread sessionID status)
    (stored : StoredExpired world.trace sessionID) :
    ReadBeforeExpired world thread sessionID := by
  obtain ⟨vals, event, member, allowed⟩ := justified
  obtain ⟨past, later, split⟩ := List.append_of_mem member
  have notBefore : ¬StoredExpired past sessionID := by
    intro before
    have isPast : past ++ [readEntry thread sessionID vals] <+: world.trace :=
      ⟨later, by rw [split, List.append_assoc]; rfl⟩
    have start := (transition_ok allowed).1
    have name : utf8 "status" = statusField := rfl
    rcases reads past thread sessionID vals isPast before with missing | expired
    · rw [Hash.field, name, missing] at start
      exact absurd start (by decide)
    · rw [Hash.field, name, expired] at start
      exact absurd start (by decide)
  refine ⟨past ++ [readEntry thread sessionID vals], later, vals, ?_, ?_, ?_⟩
  · rw [split, List.append_assoc]
    rfl
  · exact List.mem_append_right _ (List.mem_singleton_self _)
  · obtain ⟨other, storeMember⟩ := stored
    rw [split] at storeMember
    rcases List.mem_append.mp storeMember with before | after
    · exact absurd ⟨other, before⟩ notBefore
    · rcases List.mem_cons.mp after with isRead | isLater
      · cases isRead
      · exact ⟨other, isLater⟩

/-- **The step lemma.** A command keeps the law exactly when it is not a store of
a live status by a call that read before `expired` was stored. -/
theorem staysExpired_record_iff (reads : ReadsExpired world.trace) (stays : StaysExpired world)
    (invariant : discipline.Invariant (world.record thread command reply state))
    (executed : exec command choice world.state = some (reply, state)) :
    StaysExpired (world.record thread command reply state) ↔
      ∀ sessionID (status : Status),
        (⟨thread, command, reply⟩ : TraceEntry) = storeEntry thread sessionID status →
        (status = .active ∨ status = .sleeping) → ¬ReadBeforeExpired world thread sessionID := by
  constructor
  · intro after sessionID status isStore live before
    obtain ⟨earlier, later, vals, split, -, other, member⟩ := before
    have stored : StoredExpired world.trace sessionID :=
      ⟨other, by rw [split]; exact List.mem_append_right _ member⟩
    have found := status_of_store executed isStore
    have notLive := after sessionID (storedExpired_record.mpr (.inl stored))
    rcases live with rfl | rfl
    · exact notLive.1 found
    · exact notLive.2 found
  · intro harmless sessionID stored
    rw [World.record_state]
    rcases storedExpired_record.mp stored with old | new
    · rcases status_record invariant executed sessionID with kept | gone | ⟨status, isStore, found⟩
      · rw [kept]
        exact stays sessionID old
      · rw [gone]
        exact ⟨nofun, nofun⟩
      · have notLive : ¬(status = .active ∨ status = .sleeping) := fun live =>
          harmless sessionID status isStore live
            (readBeforeExpired_of_store reads (justified_of_store invariant isStore) old)
        rw [found]
        refine ⟨fun same => notLive (.inl ?_), fun same => notLive (.inr ?_)⟩
        · exact Status.text_injective (Option.some.inj same)
        · exact Status.text_injective (Option.some.inj same)
    · rw [status_of_store executed new]
      exact ⟨by decide, by decide⟩

end Steps

/-! ### Every run -/

/-- The condition on the next command of a thread, in terms of what is executed. -/
theorem noStaleStore_step_iff {pool : Pool Command Reply Result State Call} {thread : Nat}
    {choice : Choice} {call : Call} {command : Command} {following : Reply command → Code Result}
    {reply : Reply command} {state : State}
    (found : pool.threads[thread]? = some ⟨call, .call command following, true⟩)
    (executed : exec command choice pool.world.state = some (reply, state)) :
    NoStaleStore pool (.step thread choice) ↔
      ∀ sessionID (status : Status),
        (⟨thread, command, reply⟩ : TraceEntry) = storeEntry thread sessionID status →
        (status = .active ∨ status = .sleeping) →
        ¬ReadBeforeExpired pool.world thread sessionID := by
  constructor
  · intro noStale sessionID status isStore live
    cases isStore
    cases choice with
    | ok => exact noStale call sessionID status following found rfl live
    | _ => cases executed
  · intro harmless otherCall sessionID status rest located works live
    rw [found] at located
    cases located
    subst works
    cases executed
    exact harmless sessionID status rfl live

/-- **When an expired session stays expired.** All along every run of concurrent
`TransitionSession` calls, from any Redis state, a session whose status was
once stored as `expired` never has the status `active` or `sleeping` again, if
and only if no call stores such a status of a session that it read before
`expired` was stored. -/
theorem expired_terminal_iff (decodeConn : DecodeConn) (state : State)
    (events : List (Foundation.Event Call Choice)) :
    Always (fun pool event => pool.next (manager decodeConn) event) (Pool.start state) events
        (fun pool => StaysExpired pool.world) ↔
      EachStep (fun pool event => pool.next (manager decodeConn) event) (Pool.start state) events
        NoStaleStore := by
  refine always_iff_eachStep
    (fun pool => pool.Disciplined discipline (manager decodeConn) (fun _ _ _ => True) ∧
      ReadsExpired pool.world.trace ∧ StoredMoved pool.world) ⟨?_, ?_, ?_⟩ ?_ ?_ events
  · exact Pool.start_disciplined ⟨fun past _ _ _ isPast => absurd isPast.length_le (by simp),
      fun _ member => absurd member List.not_mem_nil⟩
  · exact fun past _ _ _ isPast => absurd isPast.length_le (by simp [Pool.start])
  · rintro _ ⟨_, member⟩
    exact absurd member List.not_mem_nil
  · rintro _ ⟨_, member⟩
    exact absurd member List.not_mem_nil
  · rintro pool event after ⟨disciplined, reads, moved⟩ stays stepped
    have afterDisciplined := disciplined.next
      (fun call index world _ _ _ => code_sound decodeConn call index world) stepped
    rcases Pool.next_cases stepped with
      ⟨call, rfl, -, rfl⟩ |
      ⟨thread, choice, call, command, following, reply, left, rfl, found, executed, rfl⟩ |
      ⟨thread, call, program, running, rfl, -, rfl⟩
    · exact ⟨⟨afterDisciplined, reads, moved⟩, iff_of_true stays trivial⟩
    · have invariant := afterDisciplined.invariant
      refine ⟨⟨afterDisciplined, readsExpired_record reads moved stays executed,
        moved.record invariant executed⟩, ?_⟩
      rw [noStaleStore_step_iff found executed]
      exact staysExpired_record_iff reads stays invariant executed
    · exact ⟨⟨afterDisciplined, reads, moved⟩, iff_of_true stays trivial⟩

/-- A packet races a logout: both calls read `active`, the logout stores
`expired`, and the packet stores `active`. -/
theorem expired_session_revived :
    let state : State :=
      { hashes := fun key =>
          if key = sessionKey [1] then
            [(utf8 "user_id", utf8 "aa"), (utf8 "status", utf8 "active")]
          else []
        sets := fun _ => []
        pg := [] }
    let events : List (Foundation.Event Call Choice) :=
      [.spawn (.transitionSession false [1] .packetReceived),
        .spawn (.transitionSession false [1] .explicitLogout),
        .step 0 .ok, .step 0 .ok, .step 1 .ok, .step 1 .ok, .step 1 .ok, .step 0 .ok]
    ∃ pool, (Pool.start state).run (manager fun _ => none) events = some pool ∧
      StoredExpired pool.world.trace [1] ∧
      pool.world.state.status [1] = some Status.active.text := by
  intro state events
  refine ⟨_, rfl, ⟨1, ?_⟩, rfl⟩
  exact List.mem_of_getElem? (show _[4]? = some (storeEntry 1 [1] .expired) from rfl)

end FProto.Sessions
