import FProto.Foundation.Bytes
import FProto.Foundation.Run

/-!
Owns `GRPCStreamConn` and `GRPCClientConn` of `proto-core/transport/grpc_transport.go`:
calls that run at the same time, each of which selects between a buffered channel and the
context of the connection.

A call starts, and later its `select` takes any case that is ready; until one is ready the
call blocks. A message in `sendCh` remembers the `WriteMessage` it comes from. Does not
own: `Done`, `Type` and `RemoteAddr`, and the gRPC server.

**Main result.** After `Close` the context is always ready, and `sendCh` is as long as it
has room. A `WriteMessage` that starts then is sure to be refused exactly when the buffer
is full (`closed_write_rejected_iff`).
-/

namespace FProto.Transport.Grpc

open FProto.Foundation

/-! ### Connections -/

/-- The two classes, which differ in the text of their error. -/
inductive Kind where
  | streamConn
  | clientConn
deriving DecidableEq

def Kind.closedText : Kind → String
  | .streamConn => "grpc stream closed"
  | .clientConn => "grpc client closed"

/-- A message in `sendCh`, with the number of the call that wrote it. -/
structure Item where
  call : Nat
  data : Bytes
deriving DecidableEq

structure Conn where
  recvCh : List Bytes
  sendCh : List Item
  /-- `ctx` is done. -/
  cancelled : Bool
deriving DecidableEq

/-- The capacity of both channels. -/
def chanCap : Nat := 16

inductive Call where
  | writeMessage (data : Bytes)
  | drain
  | feed (data : Bytes)
  | readMessage
  | close
deriving DecidableEq

/-- What a call returns. -/
inductive Result where
  | sent
  | failed (text : String)
  | drained (item : Item)
  | eof
  | fed
  | dropped
  | received (data : Bytes)
  | closed
deriving DecidableEq

namespace Conn

/-- `case <-g.ctx.Done()`. -/
def onDone (conn : Conn) (result : Result) : List (Result × Conn) :=
  if conn.cancelled then [(result, conn)] else []

/-- `case g.sendCh <- data`. -/
def onSend (conn : Conn) (number : Nat) (data : Bytes) : List (Result × Conn) :=
  if conn.sendCh.length < chanCap then
    [(.sent, { conn with sendCh := conn.sendCh ++ [⟨number, data⟩] })]
  else []

/-- `case data := <-g.sendCh`. -/
def onDrain (conn : Conn) : List (Result × Conn) :=
  match conn.sendCh with
  | [] => []
  | item :: rest => [(.drained item, { conn with sendCh := rest })]

/-- `case g.recvCh <- data`. -/
def onFeed (conn : Conn) (data : Bytes) : List (Result × Conn) :=
  if conn.recvCh.length < chanCap then [(.fed, { conn with recvCh := conn.recvCh ++ [data] })]
  else []

/-- `case data := <-g.recvCh`. -/
def onReceive (conn : Conn) : List (Result × Conn) :=
  match conn.recvCh with
  | [] => []
  | data :: rest => [(.received data, { conn with recvCh := rest })]

/-- The cases of a call that are ready, with what each of them does. `Close` does not
select: it cancels the context. -/
def ready (kind : Kind) (number : Nat) (conn : Conn) : Call → List (Result × Conn)
  | .writeMessage data => conn.onSend number data ++ conn.onDone (.failed kind.closedText)
  | .drain => conn.onDrain ++ conn.onDone .eof
  | .feed data => conn.onFeed data ++ conn.onDone .dropped
  | .readMessage => conn.onReceive ++ conn.onDone (.failed kind.closedText)
  | .close => [(.closed, { conn with cancelled := true })]

end Conn

/-! ### Interleavings -/

/-- A call, whether it started after a `Close` had returned, and what it has returned. -/
structure Record where
  call : Call
  afterClose : Bool
  result : Option Result
deriving DecidableEq

/-- A connection and the calls made on it, in the order of their starts. -/
structure System where
  conn : Conn
  calls : List Record
deriving DecidableEq

inductive Event where
  | start (call : Call)
  /-- The `select` of a call takes one of the ready cases. -/
  | select (number choice : Nat)
  /-- The context that the connection was made with is cancelled. -/
  | cancelParent
deriving DecidableEq

namespace System

/-- `NewGRPCStreamConn` and `NewGRPCClientConn`. -/
def new : System := ⟨⟨[], [], false⟩, []⟩

def closeReturned (system : System) : Bool :=
  system.calls.any fun record => record.result = some .closed

def result (system : System) (number : Nat) : Option Result :=
  system.calls[number]?.bind Record.result

/-- A call returns. -/
def finish (system : System) (number : Nat) (record : Record) (result : Result) (conn : Conn) :
    System :=
  ⟨conn, system.calls.set number { record with result := some result }⟩

/-- One step; `none` when the call is not under way or the case is not ready. -/
def next (kind : Kind) (system : System) : Event → Option System
  | .start call =>
      some { system with calls := system.calls ++ [⟨call, system.closeReturned, none⟩] }
  | .select number choice =>
      match system.calls[number]? with
      | none => none
      | some record =>
          if record.result.isSome then none
          else
            (Conn.ready kind number system.conn record.call)[choice]?.map fun taken =>
              system.finish number record taken.1 taken.2
  | .cancelParent => some { system with conn := { system.conn with cancelled := true } }

end System

/-! ### What a ready case does -/

section Cases

variable {kind : Kind} {number : Nat} {conn after : Conn} {call : Call} {result expected : Result}
  {data : Bytes}

theorem mem_onDone : (result, after) ∈ conn.onDone expected ↔
    conn.cancelled = true ∧ result = expected ∧ after = conn := by
  unfold Conn.onDone
  split <;> simp_all

theorem mem_onSend : (result, after) ∈ conn.onSend number data ↔
    conn.sendCh.length < chanCap ∧ result = .sent ∧
      after = { conn with sendCh := conn.sendCh ++ [⟨number, data⟩] } := by
  unfold Conn.onSend
  by_cases room : conn.sendCh.length < chanCap <;> simp [room]

theorem mem_onDrain : (result, after) ∈ conn.onDrain ↔
    ∃ item rest, conn.sendCh = item :: rest ∧ result = .drained item ∧
      after = { conn with sendCh := rest } := by
  unfold Conn.onDrain
  split <;> simp_all

theorem mem_onFeed : (result, after) ∈ conn.onFeed data ↔
    conn.recvCh.length < chanCap ∧ result = .fed ∧
      after = { conn with recvCh := conn.recvCh ++ [data] } := by
  unfold Conn.onFeed
  by_cases room : conn.recvCh.length < chanCap <;> simp [room]

theorem mem_onReceive : (result, after) ∈ conn.onReceive ↔
    ∃ received rest, conn.recvCh = received :: rest ∧ result = .received received ∧
      after = { conn with recvCh := rest } := by
  unfold Conn.onReceive
  split <;> simp_all

/-- A ready case never revives the context, puts nothing into `sendCh` but what its own
call sends, and drains only what is there. -/
structure Taken (number : Nat) (conn : Conn) (result : Result) (after : Conn) : Prop where
  stays : conn.cancelled = true → after.cancelled = true
  cancels : result = .closed → after.cancelled = true
  queued : ∀ item ∈ after.sendCh, item ∈ conn.sendCh ∨ item.call = number ∧ result = .sent
  drained : ∀ item, result = .drained item → item ∈ conn.sendCh

/-- A case that touches neither `sendCh` nor the context. -/
theorem taken_of_same (sameSend : after.sendCh = conn.sendCh)
    (sameDone : after.cancelled = conn.cancelled) (notClosed : result ≠ .closed)
    (notDrained : ∀ item, result ≠ .drained item) : Taken number conn result after where
  stays isDone := sameDone.trans isDone
  cancels isClosed := absurd isClosed notClosed
  queued _ member := .inl (sameSend ▸ member)
  drained item isDrained := absurd isDrained (notDrained item)

theorem taken_of_onDone (notClosed : expected ≠ .closed)
    (notDrained : ∀ item, expected ≠ .drained item)
    (member : (result, after) ∈ conn.onDone expected) : Taken number conn result after := by
  obtain ⟨-, rfl, rfl⟩ := mem_onDone.mp member
  exact taken_of_same rfl rfl notClosed notDrained

theorem taken_of_onSend (member : (result, after) ∈ conn.onSend number data) :
    Taken number conn result after := by
  obtain ⟨-, rfl, rfl⟩ := mem_onSend.mp member
  refine ⟨id, (fun isClosed => by cases isClosed), ?_, (fun _ isDrained => by cases isDrained)⟩
  intro item isItem
  rcases List.mem_append.mp isItem with old | new
  · exact .inl old
  · rw [List.mem_singleton.mp new]
    exact .inr ⟨rfl, rfl⟩

theorem taken_of_onDrain (member : (result, after) ∈ conn.onDrain) :
    Taken number conn result after := by
  obtain ⟨first, rest, isQueue, rfl, rfl⟩ := mem_onDrain.mp member
  refine ⟨id, (fun isClosed => by cases isClosed), ?_, ?_⟩
  · intro item isItem
    rw [isQueue]
    exact .inl (List.mem_cons_of_mem _ isItem)
  · intro item isDrained
    cases isDrained
    rw [isQueue]
    exact List.mem_cons_self

theorem taken_of_ready (member : (result, after) ∈ Conn.ready kind number conn call) :
    Taken number conn result after := by
  cases call with
  | writeMessage data =>
      rcases List.mem_append.mp member with sent | done
      · exact taken_of_onSend sent
      · exact taken_of_onDone (by simp) (by simp) done
  | drain =>
      rcases List.mem_append.mp member with drained | done
      · exact taken_of_onDrain drained
      · exact taken_of_onDone (by simp) (by simp) done
  | feed data =>
      rcases List.mem_append.mp member with fed | done
      · obtain ⟨-, rfl, rfl⟩ := mem_onFeed.mp fed
        exact taken_of_same rfl rfl (by simp) (by simp)
      · exact taken_of_onDone (by simp) (by simp) done
  | readMessage =>
      rcases List.mem_append.mp member with received | done
      · obtain ⟨data, rest, -, rfl, rfl⟩ := mem_onReceive.mp received
        exact taken_of_same rfl rfl (by simp) (by simp)
      · exact taken_of_onDone (by simp) (by simp) done
  | close =>
      obtain ⟨rfl, rfl⟩ := Prod.mk.inj (List.mem_singleton.mp member)
      exact ⟨fun _ => rfl, fun _ => rfl, fun _ isItem => .inl isItem,
        (fun _ isDrained => by cases isDrained)⟩

end Cases

/-! ### What a step does -/

section Steps

variable {kind : Kind} {number choice : Nat} {system after : System} {event : Event}

/-- The step of a `select`. -/
theorem select_eq_some_iff : system.next kind (.select number choice) = some after ↔
    ∃ record result conn, system.calls[number]? = some record ∧ record.result = none ∧
      (Conn.ready kind number system.conn record.call)[choice]? = some (result, conn) ∧
      after = system.finish number record result conn := by
  cases isRecord : system.calls[number]? with
  | none => simp [System.next, isRecord]
  | some record =>
      cases isResult : record.result with
      | some result => simp [System.next, isRecord, isResult]
      | none =>
          simp only [System.next, isRecord, isResult, Option.isSome_none, Bool.false_eq_true,
            if_false, Option.map_eq_some_iff]
          constructor
          · rintro ⟨⟨result, conn⟩, taken, rfl⟩
            exact ⟨record, result, conn, rfl, isResult, taken, rfl⟩
          · rintro ⟨other, result, conn, same, -, taken, rfl⟩
            obtain rfl := Option.some.inj same
            exact ⟨(result, conn), taken, rfl⟩

theorem result_finish_self {record : Record} (isRecord : system.calls[number]? = some record)
    (result : Result) (conn : Conn) :
    (system.finish number record result conn).result number = some result := by
  have inside := (List.getElem?_eq_some_iff.mp isRecord).1
  simp [System.result, System.finish, inside]

theorem result_finish_of_ne {other : Nat} (different : other ≠ number) (record : Record)
    (result : Result) (conn : Conn) :
    (system.finish number record result conn).result other = system.result other := by
  simp [System.result, System.finish, List.getElem?_set_ne (Ne.symm different)]

/-- A call that starts has returned nothing. -/
theorem result_start (record : Record) (pending : record.result = none) :
    System.result { system with calls := system.calls ++ [record] } number =
      system.result number := by
  show ((system.calls ++ [record])[number]?).bind Record.result =
    (system.calls[number]?).bind Record.result
  by_cases inside : number < system.calls.length
  · rw [List.getElem?_append_left inside]
  · have beyond : system.calls.length ≤ number := Nat.le_of_not_lt inside
    rw [List.getElem?_append_right beyond, List.getElem?_eq_none beyond]
    cases number - system.calls.length with
    | zero => exact pending
    | succ _ => rfl

/-- What a call has returned stays. -/
theorem result_final {result : Result} (stepped : system.next kind event = some after)
    (returned : system.result number = some result) : after.result number = some result := by
  cases event with
  | start call =>
      obtain rfl := Option.some.inj stepped
      rw [result_start _ rfl]
      exact returned
  | select other choice =>
      obtain ⟨record, taken, conn, isRecord, pending, -, rfl⟩ := select_eq_some_iff.mp stepped
      by_cases same : number = other
      · subst same
        rw [System.result, isRecord, Option.bind_some, pending] at returned
        cases returned
      · rw [result_finish_of_ne same]
        exact returned
  | cancelParent =>
      obtain rfl := Option.some.inj stepped
      exact returned

end Steps

/-! ### Every interleaving -/

/-- What holds after every interleaving: a call that started after a `Close` had returned
finds the context done, and what is or was in `sendCh` comes from a `WriteMessage` that
returned no error. -/
structure System.Sound (system : System) : Prop where
  closed : ∀ number, system.result number = some .closed → system.conn.cancelled = true
  late : ∀ record ∈ system.calls, record.afterClose = true → system.conn.cancelled = true
  queued : ∀ item ∈ system.conn.sendCh, system.result item.call = some .sent
  drained : ∀ number item, system.result number = some (.drained item) →
    system.result item.call = some .sent

section Runs

variable {kind : Kind} {number choice : Nat} {system after : System} {event : Event}

theorem System.Sound.cancelled_of_closeReturned (sound : system.Sound)
    (returned : system.closeReturned = true) : system.conn.cancelled = true := by
  obtain ⟨record, member, isClosed⟩ := List.any_eq_true.mp returned
  obtain ⟨number, inside, isRecord⟩ := List.mem_iff_getElem.mp member
  apply sound.closed number
  rw [System.result, List.getElem?_eq_getElem inside, isRecord]
  simpa using isClosed

theorem System.Sound.start (sound : system.Sound) (call : Call) :
    System.Sound
      { system with calls := system.calls ++ [⟨call, system.closeReturned, none⟩] } := by
  have same := fun number => @result_start number system ⟨call, system.closeReturned, none⟩ rfl
  refine ⟨?_, ?_, ?_, ?_⟩
  · intro number isClosed
    rw [same] at isClosed
    exact sound.closed number isClosed
  · intro record member isLate
    rcases List.mem_append.mp member with old | new
    · exact sound.late record old isLate
    · rw [List.mem_singleton.mp new] at isLate
      exact sound.cancelled_of_closeReturned isLate
  · intro item member
    rw [same]
    exact sound.queued item member
  · intro number item isDrained
    rw [same] at isDrained ⊢
    exact sound.drained number item isDrained

theorem System.Sound.select (sound : system.Sound)
    (stepped : system.next kind (.select number choice) = some after) : after.Sound := by
  have final := fun call => @result_final kind call system after (.select number choice) .sent
    stepped
  obtain ⟨record, result, conn, isRecord, pending, taken, rfl⟩ := select_eq_some_iff.mp stepped
  have effect := taken_of_ready (List.mem_of_getElem? taken)
  have own := result_finish_self isRecord result conn
  refine ⟨?_, ?_, ?_, ?_⟩
  · intro other isClosed
    by_cases same : other = number
    · rw [same, own] at isClosed
      exact effect.cancels (Option.some.inj isClosed)
    · rw [result_finish_of_ne same] at isClosed
      exact effect.stays (sound.closed other isClosed)
  · intro found member isLate
    apply effect.stays
    rcases List.mem_or_eq_of_mem_set member with old | rfl
    · exact sound.late found old isLate
    · exact sound.late record (List.mem_of_getElem? isRecord) isLate
  · intro item member
    rcases effect.queued item member with old | ⟨isOwn, isSent⟩
    · exact final item.call (sound.queued item old)
    · rw [isOwn, own, isSent]
  · intro other item isDrained
    apply final item.call
    by_cases same : other = number
    · rw [same, own] at isDrained
      exact sound.queued item (effect.drained item (Option.some.inj isDrained))
    · rw [result_finish_of_ne same] at isDrained
      exact sound.drained other item isDrained

/-- One step. -/
theorem System.Sound.next (sound : system.Sound)
    (stepped : system.next kind event = some after) : after.Sound := by
  cases event with
  | start call =>
      obtain rfl := Option.some.inj stepped
      exact sound.start call
  | select number choice => exact sound.select stepped
  | cancelParent =>
      obtain rfl := Option.some.inj stepped
      exact ⟨fun _ _ => rfl, fun _ _ _ => rfl, sound.queued, sound.drained⟩

theorem sound_new : System.new.Sound where
  closed number isClosed := by simp [System.result, System.new] at isClosed
  late record member := by simp [System.new] at member
  queued item member := by simp [System.new] at member
  drained number item isDrained := by simp [System.result, System.new] at isDrained

/-- A whole run. -/
theorem System.Sound.run (sound : system.Sound) {events : List Event}
    (ran : Foundation.run (System.next kind) system events = some after) : after.Sound :=
  run_invariant (fun _ _ _ held stepped => held.next stepped) sound ran

theorem result_final_run {result : Result} {events : List Event}
    (ran : run (System.next kind) system events = some after)
    (returned : system.result number = some result) : after.result number = some result :=
  @run_invariant _ _ _ (fun state => state.result number = some result)
    (fun _ _ _ held stepped => result_final stepped held) system after events returned ran

/-! ### Writes to a closed connection -/

/-- A call of `WriteMessage` that started after a `Close` had returned and is about to
select. -/
def System.LateWrite (system : System) (number : Nat) : Prop :=
  ∃ data, system.calls[number]? = some ⟨.writeMessage data, true, none⟩

/-- The call returns, whichever ready case its `select` takes it returns the error, and
`Drain` never returns its data. -/
def Rejects (kind : Kind) (system : System) (number : Nat) : Prop :=
  (∃ choice after, system.next kind (.select number choice) = some after) ∧
    ∀ choice after, system.next kind (.select number choice) = some after →
      after.result number = some (.failed kind.closedText) ∧
        ∀ later final, run (System.next kind) after later = some final →
          ∀ drainer item, final.result drainer = some (.drained item) → item.call ≠ number

/-- With room in the buffer the first ready case sends. -/
theorem select_of_room {data : Bytes} {afterClose : Bool}
    (isRecord : system.calls[number]? = some ⟨.writeMessage data, afterClose, none⟩)
    (room : system.conn.sendCh.length < chanCap) :
    ∃ after, system.next kind (.select number 0) = some after ∧
      after.result number = some .sent := by
  have first : (Conn.ready kind number system.conn (.writeMessage data))[0]? =
      some (.sent, { system.conn with sendCh := system.conn.sendCh ++ [⟨number, data⟩] }) := by
    simp [Conn.ready, Conn.onSend, room]
  exact ⟨_, select_eq_some_iff.mpr ⟨_, _, _, isRecord, rfl, first, rfl⟩,
    result_finish_self isRecord _ _⟩

/-- With a full buffer and the context done, only the context is ready. -/
theorem ready_of_full {conn : Conn} {data : Bytes} (full : chanCap ≤ conn.sendCh.length)
    (done : conn.cancelled = true) :
    Conn.ready kind number conn (.writeMessage data) = [(.failed kind.closedText, conn)] := by
  simp [Conn.ready, Conn.onSend, Conn.onDone, Nat.not_lt.mpr full, done]

/-- `Drain` returns no data of a call that returned an error. -/
theorem not_drained_of_failed {text : String} {later : List Event} {final : System}
    (sound : system.Sound) (failed : system.result number = some (.failed text))
    (ran : run (System.next kind) system later = some final) {drainer : Nat} {item : Item}
    (isDrained : final.result drainer = some (.drained item)) : item.call ≠ number := by
  intro same
  have sent := (sound.run ran).drained drainer item isDrained
  rw [same, result_final_run ran failed] at sent
  cases sent

/-- After every interleaving, a `WriteMessage` that started after a `Close` had returned is
sure to be rejected exactly when the buffer is full. -/
theorem closed_write_rejected_iff {history : List Event}
    (ran : run (System.next kind) System.new history = some system)
    (isLate : system.LateWrite number) :
    Rejects kind system number ↔ chanCap ≤ system.conn.sendCh.length := by
  have sound := sound_new.run ran
  obtain ⟨data, isRecord⟩ := isLate
  constructor
  · intro rejects
    apply Nat.le_of_not_lt
    intro room
    obtain ⟨after, stepped, sent⟩ := @select_of_room kind number system data true isRecord room
    rw [(rejects.2 0 after stepped).1] at sent
    cases sent
  · intro full
    have done := sound.late _ (List.mem_of_getElem? isRecord) rfl
    have only := @ready_of_full kind number system.conn data full done
    constructor
    · exact ⟨0, _, select_eq_some_iff.mpr
        ⟨_, _, _, isRecord, rfl, congrArg (·[0]?) only, rfl⟩⟩
    · intro choice after stepped
      have soundAfter := sound.next stepped
      obtain ⟨record, result, conn, found, -, taken, rfl⟩ := select_eq_some_iff.mp stepped
      obtain rfl := Option.some.inj (isRecord.symm.trans found)
      have member := List.mem_of_getElem? taken
      rw [only] at member
      obtain ⟨rfl, rfl⟩ := Prod.mk.inj (List.mem_singleton.mp member)
      have failed := result_finish_self isRecord (.failed kind.closedText) system.conn
      refine ⟨failed, fun later final ranLater drainer item isDrained => ?_⟩
      exact not_drained_of_failed soundAfter failed ranLater isDrained

end Runs

/-- Sixteen writes that return, a `Close`, and a write that starts after it. -/
def fullThenClosed : List Event :=
  (List.range chanCap).flatMap (fun number => [.start (.writeMessage [7]), .select number 0]) ++
    [.start .close, .select 16 0, .start (.writeMessage [8])]

/-- The connection after `fullThenClosed`. -/
def fullClosedSystem : System :=
  ⟨⟨[], (List.range chanCap).map (⟨·, [7]⟩), true⟩,
    List.replicate chanCap ⟨.writeMessage [7], false, some .sent⟩ ++
      [⟨.close, false, some .closed⟩, ⟨.writeMessage [8], true, none⟩]⟩

theorem full_connection_rejects : Rejects .streamConn fullClosedSystem 17 :=
  (@closed_write_rejected_iff .streamConn 17 fullClosedSystem fullThenClosed (by decide)
    ⟨[8], by decide⟩).mpr (by decide)

/-- A `Close` that returns, then a `WriteMessage`, then a `Drain`; every `select` takes its
channel. -/
def closedThenWrite : List Event :=
  [.start .close, .select 0 0, .start (.writeMessage [7]), .select 1 0, .start .drain,
    .select 2 0]

/-- The connection after `closedThenWrite`: the write returned no error, and `Drain` its
data. -/
def acceptedSystem : System :=
  ⟨⟨[], [], true⟩,
    [⟨.close, false, some .closed⟩, ⟨.writeMessage [7], true, some .sent⟩,
      ⟨.drain, true, some (.drained ⟨1, [7]⟩)⟩]⟩

/-- Both classes accept a write after `Close`, and hand it out. -/
theorem closed_connection_accepts :
    run (System.next .streamConn) System.new closedThenWrite = some acceptedSystem ∧
      run (System.next .clientConn) System.new closedThenWrite = some acceptedSystem := by
  decide

end FProto.Transport.Grpc
