import FProto.SenderKeys.Cache

/-!
Owns when the sender-key cache forgets a key, whatever else is going on.

**Main results.** A key that was deleted, alone or with its group, is not served
again unless it is set again (`deleted_key_stays_deleted`). A group that nobody
sets for longer than `cacheTTL` is gone, although the deadline is set by a
command of its own (`idle_group_is_forgotten`).

Both are shown on the map of the keys and hold of the cache because it
simulates the map.
-/

namespace FProto.SenderKeys

open FProto.Foundation

abbrev KeyPool : Type :=
  Pool (Access Bytes Bytes CachedKey) (Access.Reply CacheError) CacheResult
    (ExpiringMap Bytes Bytes CachedKey) CacheCall

abbrev RedisPool : Type :=
  Pool (Access Bytes Bytes Bytes) (Access.Reply CacheError) CacheResult
    (ExpiringMap Bytes Bytes Bytes) CacheCall

/-! ### What a call still has to do -/

/-- The command that a call issues next, and how it goes on. -/
inductive Pending : CacheCall → (access : Access Bytes Bytes CachedKey) →
    (access.Reply CacheError → KeyCode CacheResult) → Prop
  | put (groupID userID : Bytes) (ck : CachedKey) :
      Pending (.set groupID userID ck) (.put groupID userID ck) fun stored =>
        .call (.touch groupID cacheTTL) fun kept => .done (.done (stored.bind fun _ => kept))
  | touch (groupID userID : Bytes) (ck : CachedKey) (stored : Except CacheError Unit) :
      Pending (.set groupID userID ck) (.touch groupID cacheTTL) fun kept =>
        .done (.done (stored.bind fun _ => kept))
  | find (groupID userID : Bytes) :
      Pending (.get groupID userID) (.find groupID userID) fun found => .done (.key found)
  | remove (groupID userID : Bytes) :
      Pending (.delete groupID userID) (.remove groupID userID) fun result => .done (.done result)
  | clear (groupID : Bytes) :
      Pending (.deleteAll groupID) (.clear groupID) fun result => .done (.done result)
  | wait (duration : Nat) :
      Pending (.wait duration) (.wait duration) fun _ => .done (.done (.ok ()))

def Staged (call : CacheCall) : KeyCode CacheResult → Prop
  | .done _ => True
  | .call access following => Pending call access following

theorem staged_code (call : CacheCall) : Staged call (KeyMap.code call) := by
  cases call <;> constructor

theorem Pending.staged {call : CacheCall} {access : Access Bytes Bytes CachedKey}
    {following : access.Reply CacheError → KeyCode CacheResult}
    (pending : Pending call access following) (reply : access.Reply CacheError) :
    Staged call (following reply) := by
  cases pending <;> constructor

/-- Every program is what is left of its call. -/
def AllStaged (pool : KeyPool) : Prop :=
  ∀ thread ∈ pool.threads, Staged thread.call thread.program

variable {pool after : KeyPool} {event : Event CacheCall (Fate CacheError)}

theorem AllStaged.next (staged : AllStaged pool)
    (stepped : pool.next KeyMap.system event = some after) : AllStaged after :=
  Pool.programs_invariant staged_code (fun _ _ _ pending => Pending.staged pending) staged stepped

theorem AllStaged.pending (staged : AllStaged pool) {index : Nat} {call : CacheCall}
    {access : Access Bytes Bytes CachedKey}
    {following : access.Reply CacheError → KeyCode CacheResult} {running : Bool}
    (found : pool.threads[index]? = some ⟨call, .call access following, running⟩) :
    Pending call access following :=
  staged _ (List.mem_of_getElem? found)

theorem allStaged_of_run {events : List (Event CacheCall (Fate CacheError))}
    (ran : (Pool.start .empty).run KeyMap.system events = some pool) : AllStaged pool :=
  run_invariant (fun _ _ _ staged stepped => AllStaged.next staged stepped)
    (fun _ member => absurd member List.not_mem_nil) ran

/-- The calls that set a key. -/
def Sets (groupID userID : Bytes) (call : CacheCall) : Prop :=
  ∃ ck, call = .set groupID userID ck

/-- The calls that set a key of a group. -/
def SetsIn (groupID : Bytes) (call : CacheCall) : Prop :=
  ∃ userID, Sets groupID userID call

/-! ### What is forgotten stays forgotten -/

/-- The key is missing, nobody is about to set it, and the calls from some index on
have not seen it. -/
structure Forgotten (since : Nat) (groupID userID : Bytes) (pool : KeyPool) : Prop where
  staged : AllStaged pool
  settled : pool.Settled (Sets groupID userID)
  missing : (pool.world.state.shelf groupID).find userID = none
  answers : ∀ (index : Nat) thread answer, since ≤ index → pool.threads[index]? = some thread →
    thread.call = .get groupID userID → thread.result? = some (.key (.ok answer)) → answer = none

section Forgotten

variable {since : Nat} {groupID userID : Bytes}

theorem Forgotten.missing_next (forgotten : Forgotten since groupID userID pool)
    (stepped : pool.next KeyMap.system event = some after) :
    (after.world.state.shelf groupID).find userID = none := by
  rcases Pool.next_cases stepped with
    ⟨_, -, -, rfl⟩ | ⟨_, _, _, _, _, _, _, -, located, executed, rfl⟩ | ⟨_, _, _, _, -, -, rfl⟩
  · exact forgotten.missing
  · refine ((Access.exec_cases executed).2 groupID).find_eq_none forgotten.missing ?_
    rintro ck rfl
    cases forgotten.staged.pending located with
    | put _ _ _ => exact forgotten.settled.not_kind located ⟨ck, rfl⟩
  · exact forgotten.missing

theorem Forgotten.answers_next (forgotten : Forgotten since groupID userID pool)
    (stepped : pool.next KeyMap.system event = some after) (index : Nat)
    (thread : Thread (Access Bytes Bytes CachedKey) (Access.Reply CacheError) CacheResult CacheCall)
    (answer : Option CachedKey) (late : since ≤ index)
    (found : after.threads[index]? = some thread) (isGet : thread.call = .get groupID userID)
    (returned : thread.result? = some (.key (.ok answer))) : answer = none := by
  rcases Pool.next_cases stepped with
    ⟨call, -, -, rfl⟩ |
    ⟨active, fate, call, access, following, reply, state, -, located, executed, rfl⟩ |
    ⟨_, call, program, running, -, located, rfl⟩
  · rcases Pool.getElem?_concat_cases found with old | ⟨rfl, rfl⟩
    · exact forgotten.answers index thread answer late old isGet returned
    · obtain rfl : call = .get groupID userID := isGet
      cases returned
  · rcases Pool.getElem?_set_cases found with ⟨rfl, rfl⟩ | ⟨-, old⟩
    · obtain rfl : call = .get groupID userID := isGet
      cases forgotten.staged.pending located with
      | find _ _ =>
          -- the answer is what the command found
          obtain rfl : reply = .ok answer := by simpa [Thread.result?] using returned
          have found := (Fate.settle_ok (Option.some.inj executed)).1
          rw [found, forgotten.missing]
    · exact forgotten.answers index thread answer late old isGet returned
  · rcases Pool.getElem?_set_cases found with ⟨rfl, rfl⟩ | ⟨-, old⟩
    · exact forgotten.answers _ ⟨call, program, running⟩ answer late located isGet returned
    · exact forgotten.answers index thread answer late old isGet returned

theorem Forgotten.next (forgotten : Forgotten since groupID userID pool)
    (quiet : ∀ ck, event ≠ .spawn (.set groupID userID ck))
    (stepped : pool.next KeyMap.system event = some after) :
    Forgotten since groupID userID after where
  staged := forgotten.staged.next stepped
  settled := forgotten.settled.next (by rintro _ spawned ⟨ck, rfl⟩; exact quiet ck spawned) stepped
  missing := forgotten.missing_next stepped
  answers := forgotten.answers_next stepped

theorem Forgotten.run (forgotten : Forgotten since groupID userID pool)
    {events : List (Event CacheCall (Fate CacheError))}
    (quiet : ∀ ck, .spawn (.set groupID userID ck) ∉ events)
    (ran : pool.run KeyMap.system events = some after) :
    Forgotten since groupID userID after :=
  run_invariant_of_mem (fun event member _ _ forgotten stepped =>
    forgotten.next (by rintro ck rfl; exact quiet ck member) stepped) forgotten ran

/-- A missing key that nobody is about to set is forgotten from now on. -/
theorem forgotten_of_missing (staged : AllStaged pool)
    (settled : pool.Settled (Sets groupID userID))
    (missing : (pool.world.state.shelf groupID).find userID = none) :
    Forgotten pool.threads.length groupID userID pool where
  staged := staged
  settled := settled
  missing := missing
  answers index thread answer late found := by
    rw [List.getElem?_eq_none late] at found
    cases found

end Forgotten

/-! ### Deletion -/

/-- The calls that delete a key. -/
def Deletes (groupID userID : Bytes) (call : CacheCall) : Prop :=
  call = .deleteAll groupID ∨ call = .delete groupID userID

/-- Right after the command of a deletion the key is missing. -/
theorem missing_of_deleted {groupID userID : Bytes} {index : Nat} (staged : AllStaged pool)
    (stepped : pool.next KeyMap.system (.step index .done) = some after)
    {thread : Thread (Access Bytes Bytes CachedKey) (Access.Reply CacheError) CacheResult CacheCall}
    (found : after.threads[index]? = some thread) (deletes : Deletes groupID userID thread.call) :
    (after.world.state.shelf groupID).find userID = none := by
  rcases Pool.next_cases stepped with
    ⟨_, same, -⟩ |
    ⟨active, fate, call, access, following, reply, state, same, located, executed, rfl⟩ |
    ⟨_, _, _, _, same, -⟩
  · cases same
  · cases same
    obtain ⟨-, rfl⟩ | ⟨different, -⟩ := Pool.getElem?_set_cases found
    · have pending := staged.pending located
      rcases deletes with isAll | isOne
      · obtain rfl : call = .deleteAll groupID := isAll
        cases pending with
        | clear _ =>
            cases executed
            simp only [World.record_state, ExpiringMap.change, Function.update_self]
            rfl
      · obtain rfl : call = .delete groupID userID := isOne
        cases pending with
        | remove _ _ =>
            cases executed
            simp only [World.record_state, ExpiringMap.change, Function.update_self]
            exact Shelf.find_remove_self _ _
    · exact absurd rfl different
  · cases same

/-! ### Deadlines -/

/-- The calls on a group that have not, or not without an error, set a deadline. -/
def Unfinished (groupID : Bytes) (pool : KeyPool) : Prop :=
  ∃ (index : Nat) (thread : _), pool.threads[index]? = some thread ∧ SetsIn groupID thread.call ∧
    thread.result? ≠ some (.done (.ok ()))

/-- No deadline is over or further away than `cacheTTL`, and a group without one is
being set. -/
structure Timed (pool : KeyPool) : Prop where
  staged : AllStaged pool
  inside : ∀ groupID deadline, (pool.world.state.shelf groupID).deadline = some deadline →
    pool.world.state.clock ≤ deadline ∧ deadline ≤ pool.world.state.clock + cacheTTL
  timeless : ∀ groupID, (pool.world.state.shelf groupID).deadline = none →
    (pool.world.state.shelf groupID).entries ≠ [] → Unfinished groupID pool

section Timed

theorem Timed.inside_next (timed : Timed pool)
    (stepped : pool.next KeyMap.system event = some after) (groupID : Bytes) (deadline : Nat)
    (due : (after.world.state.shelf groupID).deadline = some deadline) :
    after.world.state.clock ≤ deadline ∧ deadline ≤ after.world.state.clock + cacheTTL := by
  rcases Pool.next_cases stepped with
    ⟨_, -, -, rfl⟩ | ⟨_, _, call, access, _, _, _, -, located, executed, rfl⟩ |
    ⟨_, _, _, _, -, -, rfl⟩
  · exact timed.inside groupID deadline due
  · obtain ⟨clock, shelves⟩ := Access.exec_cases executed
    rw [World.record_state, clock]
    rcases (shelves groupID).deadline_eq_some due with ⟨duration, rfl, rfl⟩ | ⟨old, kept⟩
    · cases timed.staged.pending located with
      | touch _ _ _ _ => simp [Access.duration]
    · obtain ⟨above, below⟩ := timed.inside groupID deadline old
      exact ⟨kept above, by omega⟩
  · exact timed.inside groupID deadline due

/-- A thread that is stepped goes on; the others are as they were. -/
theorem Unfinished.step {groupID : Bytes} {active : Nat} {call : CacheCall}
    {access : Access Bytes Bytes CachedKey}
    {following : access.Reply CacheError → KeyCode CacheResult} {reply : access.Reply CacheError}
    {state : ExpiringMap Bytes Bytes CachedKey} (unfinished : Unfinished groupID pool)
    (located : pool.threads[active]? = some ⟨call, .call access following, true⟩)
    (notDone : SetsIn groupID call →
      (⟨call, following reply, true⟩ : Thread _ _ _ _).result? ≠ some (.done (.ok ()))) :
    Unfinished groupID
      { world := pool.world.record active access reply state
        threads := pool.threads.set active ⟨call, following reply, true⟩ } := by
  obtain ⟨index, thread, found, sets, before⟩ := unfinished
  by_cases same : active = index
  · subst same
    obtain rfl := Option.some.inj (located.symm.trans found)
    have inside := (List.getElem?_eq_some_iff.mp located).1
    exact ⟨active, _, List.getElem?_set_self inside, sets, notDone sets⟩
  · exact ⟨index, thread, (List.getElem?_set_ne same).trans found, sets, before⟩

theorem Timed.timeless_next (timed : Timed pool)
    (stepped : pool.next KeyMap.system event = some after) (groupID : Bytes)
    (noDeadline : (after.world.state.shelf groupID).deadline = none)
    (present : (after.world.state.shelf groupID).entries ≠ []) : Unfinished groupID after := by
  rcases Pool.next_cases stepped with
    ⟨call, -, -, rfl⟩ |
    ⟨active, fate, call, access, following, reply, state, -, located, executed, rfl⟩ |
    ⟨stopped, call, program, running, -, located, rfl⟩
  · obtain ⟨index, thread, found, rest⟩ := timed.timeless groupID noDeadline present
    have inside := (List.getElem?_eq_some_iff.mp found).1
    exact ⟨index, thread, (List.getElem?_append_left inside).trans found, rest⟩
  · have before := ((Access.exec_cases executed).2 groupID).deadline_eq_none noDeadline present
    have inside := (List.getElem?_eq_some_iff.mp located).1
    cases timed.staged.pending located with
    | put otherGroup userID ck =>
        rcases before with ⟨_, _, same⟩ | ⟨old, oldPresent⟩
        · -- the thread that put the key has yet to set the deadline
          cases same
          exact ⟨active, _, List.getElem?_set_self inside, ⟨userID, ck, rfl⟩,
            by simp [Thread.result?]⟩
        · exact (timed.timeless groupID old oldPresent).step located
            fun _ => by simp [Thread.result?]
    | touch otherGroup userID ck stored =>
        rcases before with ⟨_, _, same⟩ | ⟨old, oldPresent⟩
        · cases same
        · refine (timed.timeless groupID old oldPresent).step located ?_
          rintro ⟨otherUser, otherKey, same⟩ returned
          cases same
          -- without an error the deadline would be set
          have succeeded : reply = .ok () := by
            simp only [Thread.result?, Option.some.injEq, CacheResult.done.injEq] at returned
            cases stored with
            | error error => cases returned
            | ok _ => exact returned
          obtain ⟨-, rfl⟩ := Fate.settle_ok ((Option.some.inj executed).trans (by rw [succeeded]))
          simp only [World.record_state, ExpiringMap.change, Function.update_self] at noDeadline
          have stocked : ¬(pool.world.state.shelf groupID).entries.isEmpty = true := fun isEmpty =>
            oldPresent (List.isEmpty_iff.mp isEmpty)
          simp only [Shelf.touch, Shelf.make, if_neg stocked] at noDeadline
          cases noDeadline
    | find _ _ | remove _ _ | clear _ | wait _ =>
        rcases before with ⟨_, _, same⟩ | ⟨old, oldPresent⟩
        · cases same
        · refine (timed.timeless groupID old oldPresent).step located ?_
          rintro ⟨_, _, same⟩
          cases same
  · obtain ⟨index, thread, found, sets, notDone⟩ := timed.timeless groupID noDeadline present
    by_cases same : stopped = index
    · subst same
      obtain rfl := Option.some.inj (located.symm.trans found)
      have inside := (List.getElem?_eq_some_iff.mp located).1
      exact ⟨stopped, _, List.getElem?_set_self inside, sets, notDone⟩
    · exact ⟨index, thread, (List.getElem?_set_ne same).trans found, sets, notDone⟩

theorem timed_of_run {events : List (Event CacheCall (Fate CacheError))}
    (ran : (Pool.start .empty).run KeyMap.system events = some pool) : Timed pool := by
  refine run_invariant (fun _ _ _ timed stepped => ?_) ?_ ran
  · exact ⟨timed.staged.next stepped, timed.inside_next stepped, timed.timeless_next stepped⟩
  · exact ⟨fun _ member => absurd member List.not_mem_nil, fun _ _ due => absurd due (by simp [
      Pool.start, ExpiringMap.empty, Shelf.empty]), fun _ _ present => absurd rfl present⟩

end Timed

/-! ### Groups that nobody sets -/

/-- Nobody is about to set the group, and it is gone or will be after a moment. -/
structure Fading (limit : Nat) (groupID : Bytes) (pool : KeyPool) : Prop where
  staged : AllStaged pool
  settled : pool.Settled (SetsIn groupID)
  fades : (pool.world.state.shelf groupID).entries ≠ [] →
    ∃ deadline, (pool.world.state.shelf groupID).deadline = some deadline ∧
      pool.world.state.clock ≤ deadline ∧ deadline ≤ limit

theorem Fading.fades_next {limit : Nat} {groupID : Bytes} (fading : Fading limit groupID pool)
    (stepped : pool.next KeyMap.system event = some after)
    (present : (after.world.state.shelf groupID).entries ≠ []) :
    ∃ deadline, (after.world.state.shelf groupID).deadline = some deadline ∧
      after.world.state.clock ≤ deadline ∧ deadline ≤ limit := by
  rcases Pool.next_cases stepped with
    ⟨_, -, -, rfl⟩ | ⟨_, _, call, access, _, _, state, -, located, executed, rfl⟩ |
    ⟨_, _, _, _, -, -, rfl⟩
  · exact fading.fades present
  · obtain ⟨clock, shelves⟩ := Access.exec_cases executed
    have notSet := fading.settled.not_kind located
    have pending := fading.staged.pending located
    rw [World.record_state] at present ⊢
    cases due : (state.shelf groupID).deadline with
    | none =>
        rcases (shelves groupID).deadline_eq_none due present with
          ⟨userID, ck, rfl⟩ | ⟨old, stocked⟩
        · cases pending with
          | put _ _ _ => exact absurd ⟨userID, ck, rfl⟩ notSet
        · obtain ⟨deadline, isSome, -⟩ := fading.fades stocked
          rw [old] at isSome
          cases isSome
    | some deadline =>
        rcases (shelves groupID).deadline_eq_some due with ⟨_, rfl, -⟩ | ⟨old, kept⟩
        · cases pending with
          | touch _ userID ck _ => exact absurd ⟨userID, ck, rfl⟩ notSet
        · have stocked : (pool.world.state.shelf groupID).entries ≠ [] := fun isEmpty => by
            rw [(pool.world.state.shelf groupID).absent isEmpty] at old
            cases old
          obtain ⟨_, isDue, above, below⟩ := fading.fades stocked
          obtain rfl := Option.some.inj (old.symm.trans isDue)
          rw [clock]
          exact ⟨deadline, rfl, kept above, below⟩
  · exact fading.fades present

theorem Fading.run {limit : Nat} {groupID : Bytes} (fading : Fading limit groupID pool)
    {events : List (Event CacheCall (Fate CacheError))}
    (quiet : ∀ userID ck, .spawn (.set groupID userID ck) ∉ events)
    (ran : pool.run KeyMap.system events = some after) : Fading limit groupID after := by
  refine run_invariant_of_mem (fun event member _ _ fading stepped => ?_) fading ran
  have quietStep : ∀ call, event = .spawn call → ¬SetsIn groupID call := by
    rintro _ rfl ⟨userID, ck, rfl⟩
    exact quiet userID ck member
  exact ⟨fading.staged.next stepped, fading.settled.next quietStep stepped,
    fading.fades_next stepped⟩

/-- When every call that set the group has returned without an error, the group is
gone after `cacheTTL`. -/
theorem Timed.fading {groupID : Bytes} (timed : Timed pool)
    (succeeded : ∀ thread ∈ pool.threads, SetsIn groupID thread.call →
      thread.result? = some (.done (.ok ()))) :
    Fading (pool.world.state.clock + cacheTTL) groupID pool where
  staged := timed.staged
  settled thread member sets := by
    rw [succeeded thread member sets]
    exact Option.some_ne_none _
  fades present := by
    cases due : (pool.world.state.shelf groupID).deadline with
    | none =>
        obtain ⟨_, thread, found, sets, notDone⟩ := timed.timeless groupID due present
        exact absurd (succeeded thread (List.mem_of_getElem? found) sets) notDone
    | some deadline => exact ⟨deadline, rfl, timed.inside groupID deadline due⟩

theorem Fading.missing {limit : Nat} {groupID : Bytes} (fading : Fading limit groupID pool)
    (elapsed : limit < pool.world.state.clock) (userID : Bytes) :
    (pool.world.state.shelf groupID).find userID = none := by
  have gone : (pool.world.state.shelf groupID).entries = [] := by
    by_contra present
    obtain ⟨deadline, -, above, below⟩ := fading.fades present
    omega
  rw [Shelf.find, gone]
  rfl

/-! ### The cache -/

section Cache

variable {groupID userID : Bytes} {early late : List (Event CacheCall (Fate CacheError))}
  {left middle final : RedisPool} {right : KeyPool}

/-- A schedule of the cache, on the map. -/
theorem exists_keyPool (ran : (Pool.start .empty).run Cache.system early = some left) :
    ∃ right : KeyPool, (Pool.start .empty).run KeyMap.system early = some right ∧
      cacheSimulation.Tracks left right := by
  have start : cacheSimulation.Tracks (Pool.start .empty) (Pool.start .empty) :=
    Simulation.tracks_start cacheEncoding.represents_empty
  exact start.exists_run ran

/-- Both sides have the same calls with the same results. -/
theorem mem_outcomes (tracks : cacheSimulation.Tracks left right)
    {thread : Thread (Access Bytes Bytes CachedKey) (Access.Reply CacheError) CacheResult CacheCall}
    (member : thread ∈ right.threads) : (thread.call, thread.result?) ∈ left.outcomes := by
  rw [tracks.outcomes_eq]
  exact List.mem_map_of_mem member

theorem getElem?_outcomes (tracks : cacheSimulation.Tracks left right) {index : Nat}
    {call : CacheCall} {result : Option CacheResult}
    (found : left.outcomes[index]? = some (call, result)) :
    ∃ thread, right.threads[index]? = some thread ∧ thread.call = call ∧
      thread.result? = result := by
  rw [tracks.outcomes_eq, Pool.outcomes, List.getElem?_map, Option.map_eq_some_iff] at found
  obtain ⟨thread, located, same⟩ := found
  exact ⟨thread, located, congrArg Prod.fst same, congrArg Prod.snd same⟩

/-- Later calls do not see a key that is missing on the map. -/
theorem not_read_of_missing (tracks : cacheSimulation.Tracks middle right)
    (staged : AllStaged right) (settled : right.Settled (Sets groupID userID))
    (missing : (right.world.state.shelf groupID).find userID = none)
    (quiet : ∀ ck, .spawn (.set groupID userID ck) ∉ late)
    (continued : middle.run Cache.system late = some final) {reader : Nat}
    (begun : middle.outcomes.length ≤ reader) {answer : Option CachedKey}
    (read : final.outcomes[reader]? = some (.get groupID userID, some (.key (.ok answer)))) :
    answer = none := by
  obtain ⟨finalRight, ran, finalTracks⟩ := tracks.exists_run continued
  obtain ⟨thread, found, isGet, returned⟩ := getElem?_outcomes finalTracks read
  have since : right.threads.length ≤ reader := by
    rw [tracks.outcomes_eq, Pool.outcomes, List.length_map] at begun
    exact begun
  exact ((forgotten_of_missing staged settled missing).run quiet ran).answers reader thread answer
    since found isGet returned

/-- A schedule that is continued. -/
theorem continued_of_run (ran : (Pool.start .empty).run Cache.system early = some left)
    (whole : (Pool.start .empty).run Cache.system (early ++ late) = some middle) :
    left.run Cache.system late = some middle := by
  rw [Pool.run] at ran whole
  rw [run_append, ran] at whole
  exact whole

/-- **Deleted keys stay deleted.** When the command of a `Delete` or `DeleteAll` has
been answered and every `Set` of the key that had begun has returned, then no call
of `Get` that begins later returns a key, in every schedule, unless another `Set`
of the key begins. -/
theorem deleted_key_stays_deleted {deletion : Nat} {call : CacheCall}
    (deletes : Deletes groupID userID call)
    (ran : (Pool.start .empty).run Cache.system (early ++ [.step deletion .done]) = some middle)
    (deleted : middle.outcomes[deletion]? = some (call, some (.done (.ok ()))))
    (returned : ∀ ck result, (.set groupID userID ck, result) ∈ middle.outcomes → result ≠ none)
    (quiet : ∀ ck, .spawn (.set groupID userID ck) ∉ late)
    (continued : middle.run Cache.system late = some final) {reader : Nat}
    (begun : middle.outcomes.length ≤ reader) {answer : Option CachedKey}
    (read : final.outcomes[reader]? = some (.get groupID userID, some (.key (.ok answer)))) :
    answer = none := by
  obtain ⟨right, rightRan, tracks⟩ := exists_keyPool ran
  obtain ⟨before, earlyRan, stepped⟩ := run_concat.mp rightRan
  obtain ⟨thread, found, rfl, -⟩ := getElem?_outcomes tracks deleted
  have missing := missing_of_deleted (allStaged_of_run earlyRan) stepped found deletes
  have settled : right.Settled (Sets groupID userID) := by
    rintro thread member ⟨ck, isSet⟩
    have outcome := mem_outcomes tracks member
    rw [isSet] at outcome
    exact returned ck _ outcome
  exact not_read_of_missing tracks (allStaged_of_run rightRan) settled missing quiet continued begun
    read

def sampleKey : CachedKey := ⟨7, some [1, 2, 3, 4], none⟩

def sampleSet : List (Event CacheCall (Fate CacheError)) :=
  [.spawn (.set [1] [2] sampleKey), .step 0 .done, .step 0 .done]

def sampleGet : List (Event CacheCall (Fate CacheError)) :=
  [.spawn (.get [1] [2]), .step 2 .done]

theorem deleted_key_stays_deleted_sample :
    ∃ middle final : RedisPool,
      (Pool.start .empty).run Cache.system
        (sampleSet ++ [.spawn (.deleteAll [1])] ++ [.step 1 .done]) = some middle ∧
      middle.run Cache.system sampleGet = some final ∧
      ∃ answer, final.outcomes[2]? = some (.get [1] [2], some (.key (.ok answer))) ∧
        answer = none := by
  have deleted : ((Pool.start .empty).run Cache.system
      (sampleSet ++ [.spawn (.deleteAll [1])] ++ [.step 1 .done])).any (fun pool =>
        decide (pool.outcomes = [(.set [1] [2] sampleKey, some (.done (.ok ()))),
          (.deleteAll [1], some (.done (.ok ())))])) = true := by decide +kernel
  have read : ((Pool.start .empty).run Cache.system
      (sampleSet ++ [.spawn (.deleteAll [1])] ++ [.step 1 .done] ++ sampleGet)).any (fun pool =>
        decide (pool.outcomes[2]? = some (.get [1] [2], some (.key (.ok none))))) = true := by
    decide +kernel
  obtain ⟨middle, ran, checked⟩ := (Option.any_eq_true _ _).mp deleted
  obtain ⟨final, whole, answered⟩ := (Option.any_eq_true _ _).mp read
  have outcomes := of_decide_eq_true checked
  have continued := continued_of_run ran whole
  refine ⟨middle, final, ran, continued, none, of_decide_eq_true answered, ?_⟩
  refine deleted_key_stays_deleted (.inl rfl) ran (congrArg (·[1]?) outcomes) ?_ ?_ continued
    (Nat.le_of_eq (congrArg List.length outcomes)) (of_decide_eq_true answered)
  · intro ck result member
    rw [outcomes] at member
    simp only [List.mem_cons, Prod.mk.injEq, List.not_mem_nil, reduceCtorEq] at member
    rcases member with ⟨-, rfl⟩ | ⟨impossible, -⟩ | impossible
    · exact Option.some_ne_none _
    · exact impossible.elim
    · exact impossible.elim
  · simp [sampleGet]

/-- **Idle groups are forgotten.** When every `Set` in a group has returned without
an error, and then more than `cacheTTL` passes without another one, no call of `Get`
in the group that begins later returns a key, in every schedule, unless another
`Set` begins. -/
theorem idle_group_is_forgotten {idle : List (Event CacheCall (Fate CacheError))}
    (ran : (Pool.start .empty).run Cache.system early = some left)
    (succeeded : ∀ user ck result, (.set groupID user ck, result) ∈ left.outcomes →
      result = some (.done (.ok ())))
    (idled : left.run Cache.system idle = some middle)
    (elapsed : left.world.state.clock + cacheTTL < middle.world.state.clock)
    (continued : middle.run Cache.system late = some final)
    (quiet : ∀ user ck, .spawn (.set groupID user ck) ∉ idle ++ late) {reader : Nat}
    (begun : middle.outcomes.length ≤ reader) {answer : Option CachedKey}
    (read : final.outcomes[reader]? = some (.get groupID userID, some (.key (.ok answer)))) :
    answer = none := by
  obtain ⟨right, rightRan, tracks⟩ := exists_keyPool ran
  obtain ⟨later, laterRan, laterTracks⟩ := tracks.exists_run idled
  have allSucceeded : ∀ thread ∈ right.threads, SetsIn groupID thread.call →
      thread.result? = some (.done (.ok ())) := by
    rintro thread member ⟨user, ck, isSet⟩
    have outcome := mem_outcomes tracks member
    rw [isSet] at outcome
    exact succeeded user ck _ outcome
  have fading := ((timed_of_run rightRan).fading allSucceeded).run
    (fun user ck member => quiet user ck (List.mem_append_left _ member)) laterRan
  have passed : right.world.state.clock + cacheTTL < later.world.state.clock := by
    have sameLeft := tracks.state.clock
    have sameMiddle := laterTracks.state.clock
    omega
  refine not_read_of_missing laterTracks fading.staged ?_ (fading.missing passed userID)
    (fun ck member => quiet userID ck (List.mem_append_right _ member)) continued begun read
  exact fun thread member sets => fading.settled thread member ⟨userID, sets⟩

theorem idle_group_is_forgotten_sample :
    ∃ left middle final : RedisPool,
      (Pool.start .empty).run Cache.system sampleSet = some left ∧
      left.run Cache.system [.spawn (.wait 3600001), .step 1 .done] = some middle ∧
      middle.run Cache.system sampleGet = some final ∧
      ∃ answer, final.outcomes[2]? = some (.get [1] [2], some (.key (.ok answer))) ∧
        answer = none := by
  have stored : ((Pool.start .empty).run Cache.system sampleSet).any (fun pool =>
      decide (pool.outcomes = [(.set [1] [2] sampleKey, some (.done (.ok ())))]) &&
        decide (pool.world.state.clock = 0)) = true := by decide +kernel
  have waited : ((Pool.start .empty).run Cache.system
      (sampleSet ++ [.spawn (.wait 3600001), .step 1 .done])).any (fun pool =>
        decide (pool.outcomes.length = 2) &&
          decide (pool.world.state.clock = 3600001)) = true := by decide +kernel
  have read : ((Pool.start .empty).run Cache.system
      (sampleSet ++ [.spawn (.wait 3600001), .step 1 .done] ++ sampleGet)).any (fun pool =>
        decide (pool.outcomes[2]? = some (.get [1] [2], some (.key (.ok none))))) = true := by
    decide +kernel
  obtain ⟨left, ran, checkedLeft⟩ := (Option.any_eq_true _ _).mp stored
  obtain ⟨middle, wholeMiddle, checkedMiddle⟩ := (Option.any_eq_true _ _).mp waited
  obtain ⟨final, wholeFinal, answered⟩ := (Option.any_eq_true _ _).mp read
  simp only [Bool.and_eq_true, decide_eq_true_eq] at checkedLeft checkedMiddle
  have idled := continued_of_run ran wholeMiddle
  have continued := continued_of_run wholeMiddle wholeFinal
  refine ⟨left, middle, final, ran, idled, continued, none, of_decide_eq_true answered, ?_⟩
  refine idle_group_is_forgotten ran ?_ idled ?_ continued (by simp [sampleGet])
    (Nat.le_of_eq checkedMiddle.1) (of_decide_eq_true answered)
  · intro user ck result member
    rw [checkedLeft.1] at member
    exact congrArg Prod.snd (List.mem_singleton.mp member)
  · rw [checkedLeft.2, checkedMiddle.2]
    decide

end Cache

end FProto.SenderKeys
