import FProto.Foundation.Bytes
import FProto.Foundation.Run
import Mathlib.Data.List.AList
import Mathlib.Data.List.MinMax
import Mathlib.Data.Prod.Lex

/-!
Owns `proto-core/transport/pool.go`: the pool of the connections of a session.

Every method holds the lock of the pool, so calls take effect one after the other.
A `range` over the map visits its entries in any order.

**Main result.** Over every sequence of calls the pool stays within its capacity and
holds what was added and not removed since, and `Best` finds a maximal entry in
whatever order it visits them: `pool_bounded_and_best_maximal`.
-/

namespace FProto.Transport

open FProto.Foundation

/-- `Type`: the named texts, and every other one. -/
inductive TransportType where
  | webSocket
  | quic
  | grpc
  | unnamed (text : Bytes)
      (foreign : text ≠ utf8 "websocket" ∧ text ≠ utf8 "quic" ∧ text ≠ utf8 "grpc")
deriving DecidableEq

/-- `transportPriority`. A key that is not in the map gives zero. -/
def transportPriority : TransportType → Nat
  | .quic => 3
  | .webSocket => 2
  | .grpc => 1
  | .unnamed _ _ => 0

/-- `DefaultMaxConns`. -/
def defaultMaxConns : Int := 5

structure PoolEntry (Conn : Type) where
  conn : Conn
  lastPacketSeq : UInt64 := 0

/-- An entry with its id. -/
abbrev PoolItem (Conn : Type) := (_ : Bytes) × PoolEntry Conn

structure ConnPool (Conn : Type) where
  conns : AList fun _ : Bytes => PoolEntry Conn
  maxConns : Int

variable {Conn : Type}

/-- `NewConnPool`. -/
def newConnPool (maxConns : Int) : ConnPool Conn where
  conns := ∅
  maxConns := if maxConns ≤ 0 then defaultMaxConns else maxConns

namespace ConnPool

/-- `Count`. -/
def count (pool : ConnPool Conn) : Nat :=
  pool.conns.entries.length

/-- `Add`. An id that is there already is overwritten, with its sequence number. -/
def add (pool : ConnPool Conn) (id : Bytes) (conn : Conn) : Except String Unit × ConnPool Conn :=
  if pool.maxConns ≤ pool.count then
    (.error ("connection pool full: max " ++ toString pool.maxConns), pool)
  else (.ok (), { pool with conns := pool.conns.insert id { conn := conn } })

/-- `Remove`. -/
def remove (pool : ConnPool Conn) (id : Bytes) : ConnPool Conn :=
  { pool with conns := pool.conns.erase id }

/-- `UpdateSeq`. -/
def updateSeq (pool : ConnPool Conn) (id : Bytes) (seq : UInt64) : ConnPool Conn :=
  match pool.conns.lookup id with
  | some entry => { pool with conns := pool.conns.insert id { entry with lastPacketSeq := seq } }
  | none => pool

/-- `All`, in the order in which the map is visited. -/
def all (order : List (PoolItem Conn)) : List Bytes :=
  order.map Sigma.fst

section Best

variable (type : Conn → TransportType)

/-- One iteration of the loop of `Best`. -/
def better (best : Option (PoolItem Conn)) (item : PoolItem Conn) : Option (PoolItem Conn) :=
  match best with
  | none => some item
  | some best =>
      if best.2.lastPacketSeq < item.2.lastPacketSeq then some item
      else if item.2.lastPacketSeq = best.2.lastPacketSeq then
        if transportPriority (type best.2.conn) < transportPriority (type item.2.conn) then
          some item
        else some best
      else some best

/-- `Best`, in the order in which the map is visited. -/
def best (order : List (PoolItem Conn)) : Option (Conn × Bytes) :=
  (order.foldl (better type) none).map fun item => (item.2.conn, item.1)

end Best

end ConnPool

/-- A call that changes a pool. -/
inductive PoolCall (Conn : Type) where
  | add (id : Bytes) (conn : Conn)
  | remove (id : Bytes)
  | updateSeq (id : Bytes) (seq : UInt64)

def ConnPool.next (pool : ConnPool Conn) : PoolCall Conn → ConnPool Conn
  | .add id conn => (pool.add id conn).2
  | .remove id => pool.remove id
  | .updateSeq id seq => pool.updateSeq id seq

/-- The pool after some calls. -/
def poolAfter (maxConns : Int) (calls : List (PoolCall Conn)) : ConnPool Conn :=
  calls.foldl ConnPool.next (newConnPool maxConns)

/-! ### The size of a map -/

section Size

variable {Key : Type} {Value : Key → Type} (map : AList Value)

theorem length_entries_eq : map.entries.length = map.keys.length :=
  (List.length_map _).symm

variable [DecidableEq Key]

/-- Storing a value adds at most one key. -/
theorem length_entries_insert_le (key : Key) (value : Value key) :
    (map.insert key value).entries.length ≤ map.entries.length + 1 := by
  rw [length_entries_eq, length_entries_eq, AList.keys_insert]
  exact Nat.succ_le_succ List.length_erase_le

/-- Storing a value under a key that is there adds none. -/
theorem length_entries_insert_of_mem {key : Key} (known : key ∈ map) (value : Value key) :
    (map.insert key value).entries.length = map.entries.length := by
  have held : key ∈ map.keys := AList.mem_keys.mp known
  have positive := List.length_pos_of_mem held
  rw [length_entries_eq, length_entries_eq, AList.keys_insert, List.length_cons,
    List.length_erase_of_mem held]
  omega

theorem length_entries_erase_le (key : Key) :
    (map.erase key).entries.length ≤ map.entries.length := by
  rw [length_entries_eq, length_entries_eq, AList.keys_erase]
  exact List.length_erase_le

end Size

/-! ### One call -/

namespace ConnPool

variable (pool : ConnPool Conn)

theorem add_eq_ok_iff {id : Bytes} {conn : Conn} :
    (pool.add id conn).1 = .ok () ↔ (pool.count : Int) < pool.maxConns := by
  rw [add]
  split
  · next full => exact iff_of_false (fun impossible => by cases impossible) (Int.not_lt.mpr full)
  · next space => exact iff_of_true rfl (Int.not_le.mp space)

theorem add_of_failed {id : Bytes} {conn : Conn} (failed : (pool.add id conn).1 ≠ .ok ()) :
    (pool.add id conn).2 = pool := by
  have full : pool.maxConns ≤ pool.count :=
    Int.not_lt.mp fun space => failed (pool.add_eq_ok_iff.mpr space)
  rw [add, if_pos full]

theorem updateSeq_of_unknown {id : Bytes} (unknown : id ∉ pool.conns) (seq : UInt64) :
    pool.updateSeq id seq = pool := by
  rw [updateSeq, AList.lookup_eq_none.mpr unknown]

theorem maxConns_next (call : PoolCall Conn) : (pool.next call).maxConns = pool.maxConns := by
  cases call with
  | add id conn =>
      show (pool.add id conn).2.maxConns = _
      rw [add]
      split <;> rfl
  | remove id => rfl
  | updateSeq id seq =>
      show (pool.updateSeq id seq).maxConns = _
      rw [updateSeq]
      split <;> rfl

/-- No call exceeds the capacity. -/
theorem count_next_le (within : (pool.count : Int) ≤ pool.maxConns) (call : PoolCall Conn) :
    ((pool.next call).count : Int) ≤ pool.maxConns := by
  cases call with
  | add id conn =>
      show ((pool.add id conn).2.count : Int) ≤ _
      rw [add]
      split
      · exact within
      · next space =>
        have grown := length_entries_insert_le pool.conns id { conn := conn }
        show ((pool.conns.insert id { conn := conn }).entries.length : Int) ≤ _
        rw [count] at space
        omega
  | remove id =>
      have shrunk := length_entries_erase_le pool.conns id
      show ((pool.conns.erase id).entries.length : Int) ≤ _
      rw [count] at within
      omega
  | updateSeq id seq =>
      show ((pool.updateSeq id seq).count : Int) ≤ _
      rw [updateSeq]
      split
      · next entry found =>
        have known : id ∈ pool.conns := AList.lookup_isSome.mp (by rw [found]; rfl)
        show ((pool.conns.insert id _).entries.length : Int) ≤ _
        rw [length_entries_insert_of_mem pool.conns known]
        exact within
      · exact within

/-- The call adds a connection under an id. -/
def Adds (id : Bytes) (call : PoolCall Conn) : Prop :=
  ∃ conn, call = .add id conn ∧ (pool.add id conn).1 = .ok ()

theorem mem_add_iff (id other : Bytes) (conn : Conn) :
    id ∈ (pool.add other conn).2.conns ↔
      (other = id ∧ (pool.add other conn).1 = .ok ()) ∨ id ∈ pool.conns := by
  by_cases accepted : (pool.add other conn).1 = .ok ()
  · have space : ¬pool.maxConns ≤ pool.count := Int.not_le.mpr (pool.add_eq_ok_iff.mp accepted)
    have stored : (pool.add other conn).2.conns = pool.conns.insert other { conn := conn } := by
      rw [add, if_neg space]
    rw [stored, AList.mem_insert, eq_comm]
    simp [accepted]
  · rw [pool.add_of_failed accepted]
    simp [accepted]

theorem mem_updateSeq_iff (id other : Bytes) (seq : UInt64) :
    id ∈ (pool.updateSeq other seq).conns ↔ id ∈ pool.conns := by
  rw [updateSeq]
  split
  · next entry found =>
    show id ∈ pool.conns.insert other _ ↔ _
    rw [AList.mem_insert, or_iff_right_iff_imp]
    intro same
    rw [same]
    exact AList.lookup_isSome.mp (by rw [found]; rfl)
  · rfl

/-- A call leaves an id in the pool when it adds it, or when the id was there and is
not removed. -/
theorem mem_next_iff (id : Bytes) (call : PoolCall Conn) :
    id ∈ (pool.next call).conns ↔
      pool.Adds id call ∨ id ∈ pool.conns ∧ call ≠ .remove id := by
  cases call with
  | add other conn =>
      show id ∈ (pool.add other conn).2.conns ↔ _
      have adds : pool.Adds id (.add other conn) ↔
          other = id ∧ (pool.add other conn).1 = .ok () := by
        constructor
        · intro ⟨_, isAdd, accepted⟩
          obtain ⟨rfl, rfl⟩ := PoolCall.add.inj isAdd
          exact ⟨rfl, accepted⟩
        · intro ⟨same, accepted⟩
          exact ⟨conn, by rw [same], same ▸ accepted⟩
      rw [mem_add_iff, adds]
      simp
  | remove other =>
      show id ∈ pool.conns.erase other ↔ _
      rw [AList.mem_erase]
      simp [Adds, and_comm, eq_comm]
  | updateSeq other seq =>
      show id ∈ (pool.updateSeq other seq).conns ↔ _
      rw [mem_updateSeq_iff]
      simp [Adds]

end ConnPool

/-! ### Every sequence of calls -/

section Runs

variable (maxConns : Int) (calls : List (PoolCall Conn))

/-- The capacity never changes and is never exceeded. -/
theorem poolAfter_within :
    (poolAfter maxConns calls).maxConns = (if maxConns ≤ 0 then defaultMaxConns else maxConns) ∧
      ((poolAfter maxConns calls).count : Int) ≤ (poolAfter maxConns calls).maxConns := by
  induction calls using List.reverseRecOn with
  | nil =>
      refine ⟨rfl, ?_⟩
      show (0 : Int) ≤ if maxConns ≤ 0 then defaultMaxConns else maxConns
      split
      · decide
      · omega
  | append_singleton calls call inductionHypothesis =>
      obtain ⟨same, within⟩ := inductionHypothesis
      have last : poolAfter maxConns (calls ++ [call]) = (poolAfter maxConns calls).next call := by
        rw [poolAfter, List.foldl_append]
        rfl
      rw [last, ConnPool.maxConns_next]
      exact ⟨same, ConnPool.count_next_le _ within call⟩

/-- The pool holds the ids that were added and not removed since. -/
theorem mem_poolAfter_iff (id : Bytes) :
    id ∈ (poolAfter maxConns calls).conns ↔
      ∃ before conn later, calls = before ++ .add id conn :: later ∧
        ((poolAfter maxConns before).add id conn).1 = .ok () ∧ .remove id ∉ later := by
  have startsEmpty : id ∉ (newConnPool maxConns : ConnPool Conn).conns := AList.notMem_empty id
  have history := has_foldl_iff (fun pool : ConnPool Conn => id ∈ pool.conns)
    (fun pool => pool.Adds id) (fun call => call = .remove id)
    (fun pool call => pool.mem_next_iff id call) startsEmpty calls
  rw [poolAfter, history]
  constructor
  · intro ⟨before, call, later, isCalls, ⟨conn, isAdd, accepted⟩, kept⟩
    exact ⟨before, conn, later, isAdd ▸ isCalls, accepted, fun removed => kept _ removed rfl⟩
  · intro ⟨before, conn, later, isCalls, accepted, kept⟩
    exact ⟨before, _, later, isCalls, ⟨conn, rfl, accepted⟩,
      fun call member isRemove => kept (isRemove ▸ member)⟩

end Runs

/-! ### The best connection -/

section Best

variable (type : Conn → TransportType)

/-- What `Best` compares: the sequence number, then the priority. -/
def PoolEntry.rank (entry : PoolEntry Conn) : ℕ ×ₗ ℕ :=
  toLex (entry.lastPacketSeq.toNat, transportPriority (type entry.conn))

theorem better_eq_argAux :
    ConnPool.better type =
      List.argAux fun item best : PoolItem Conn => best.2.rank type < item.2.rank type := by
  funext best item
  cases best with
  | none => rfl
  | some best =>
      have compares : best.2.rank type < item.2.rank type ↔
          best.2.lastPacketSeq < item.2.lastPacketSeq ∨
            item.2.lastPacketSeq = best.2.lastPacketSeq ∧
              transportPriority (type best.2.conn) < transportPriority (type item.2.conn) := by
        rw [PoolEntry.rank, PoolEntry.rank, Prod.Lex.toLex_lt_toLex, UInt64.lt_iff_toNat_lt,
          ← UInt64.toNat_inj, eq_comm]
      show ConnPool.better type (some best) item =
        if best.2.rank type < item.2.rank type then some item else some best
      rw [ConnPool.better]
      by_cases later : best.2.lastPacketSeq < item.2.lastPacketSeq
      · simp [compares, later]
      · by_cases same : item.2.lastPacketSeq = best.2.lastPacketSeq
        · simp [compares, same]
        · simp [compares, later, same]

/-- The loop keeps an item that is maximal among those it visited. -/
theorem best_eq_argmax (order : List (PoolItem Conn)) :
    ConnPool.best type order =
      (order.argmax fun item => item.2.rank type).map fun item => (item.2.conn, item.1) := by
  rw [ConnPool.best, better_eq_argAux, List.argmax]

end Best

/-- **The pool respects its capacity and picks a best connection.** For every sequence
of calls on a new pool and every order in which the map is visited: the capacity is
respected; the ids are those added and not removed since; a failed `Add` and an
`UpdateSeq` for an unknown id change nothing; `Best` reports nothing exactly when the
pool is empty, and otherwise a connection of the pool whose sequence number and
priority are maximal. -/
theorem pool_bounded_and_best_maximal (type : Conn → TransportType) (maxConns : Int)
    (calls : List (PoolCall Conn)) {order : List (PoolItem Conn)}
    (visited : order.Perm (poolAfter maxConns calls).conns.entries) :
    ((poolAfter maxConns calls).count : Int) ≤ (if maxConns ≤ 0 then 5 else maxConns) ∧
      (∀ id, id ∈ ConnPool.all order ↔
        ∃ before conn later, calls = before ++ .add id conn :: later ∧
          ((poolAfter maxConns before).add id conn).1 = .ok () ∧ .remove id ∉ later) ∧
      (∀ id conn, ((poolAfter maxConns calls).add id conn).1 ≠ .ok () →
        ((poolAfter maxConns calls).add id conn).2 = poolAfter maxConns calls) ∧
      (∀ id seq, id ∉ ConnPool.all order →
        (poolAfter maxConns calls).updateSeq id seq = poolAfter maxConns calls) ∧
      (ConnPool.best type order = none ↔ (poolAfter maxConns calls).count = 0) ∧
      ∀ conn id, ConnPool.best type order = some (conn, id) →
        ∃ entry, (poolAfter maxConns calls).conns.lookup id = some entry ∧ entry.conn = conn ∧
          ∀ other entry', (poolAfter maxConns calls).conns.lookup other = some entry' →
            entry'.rank type ≤ entry.rank type := by
  have isHeld : ∀ id, id ∈ ConnPool.all order ↔ id ∈ (poolAfter maxConns calls).conns := by
    intro id
    exact (visited.map Sigma.fst).mem_iff
  obtain ⟨capacity, within⟩ := poolAfter_within maxConns calls
  refine ⟨capacity ▸ within, ?_, ?_, ?_, ?_, ?_⟩
  · intro id
    rw [isHeld, mem_poolAfter_iff]
  · intro id conn failed
    exact ConnPool.add_of_failed _ failed
  · intro id seq unknown
    exact ConnPool.updateSeq_of_unknown _ (fun held => unknown ((isHeld id).mpr held)) seq
  · rw [best_eq_argmax, Option.map_eq_none_iff, List.argmax_eq_none, ConnPool.count,
      ← visited.length_eq, List.length_eq_zero_iff]
  · intro conn id isBest
    rw [best_eq_argmax, Option.map_eq_some_iff] at isBest
    obtain ⟨item, isMax, same⟩ := isBest
    obtain ⟨rfl, rfl⟩ := Prod.mk.inj same
    refine ⟨item.2, ?_, rfl, ?_⟩
    · exact AList.mem_lookup_iff.mpr (visited.mem_iff.mp (List.argmax_mem isMax))
    · intro other entry' found
      have member : (⟨other, entry'⟩ : PoolItem Conn) ∈ order :=
        visited.mem_iff.mpr (AList.mem_lookup_iff.mp found)
      exact List.le_of_mem_argmax (f := fun item : PoolItem Conn => item.2.rank type) member isMax

/-- Three connections of one session, by their transports, into a pool for two. -/
def sampleCalls : List (PoolCall TransportType) :=
  [.add [1] .quic, .add [2] .grpc, .add [3] .webSocket, .updateSeq [2] 7]

theorem pool_bounded_and_best_maximal_sample :
    ConnPool.all (poolAfter 2 sampleCalls).conns.entries = [[2], [1]] ∧
      ConnPool.best id (poolAfter 2 sampleCalls).conns.entries = some (.grpc, [2]) ∧
      ∃ entry, (poolAfter 2 sampleCalls).conns.lookup [2] = some entry ∧ entry.conn = .grpc ∧
        ∀ other entry', (poolAfter 2 sampleCalls).conns.lookup other = some entry' →
          entry'.rank id ≤ entry.rank id := by
  have law := pool_bounded_and_best_maximal id 2 sampleCalls (List.Perm.refl _)
  exact ⟨by decide, by decide, law.2.2.2.2.2 .grpc [2] (by decide)⟩

end FProto.Transport
