import FProto.Sessions.ConnectionLimit

/-!
Owns the number that `RegisterConnection` returns, over calls that are made one after
the other.

The number is the count before the write plus one, and the write is an `HSET`: an id
that is registered already is overwritten and not added. The number is right exactly
when every id that is stored is a new one.
-/

namespace FProto.Sessions

open FProto.Foundation

/-! ### Counting -/

/-- Removing an id removes the connections that have it. -/
theorem decodedConnections_del (conns : Hash) (connectionID : Bytes) :
    decodedConnections (conns.del connectionID) =
      (decodedConnections conns).filter fun conn => conn.connectionID ≠ connectionID := by
  rw [decodedConnections, Hash.del, List.filterMap_filter, decodedConnections,
    List.filter_filterMap]
  congr 1
  funext entry
  cases decoded : ConnJSON.unmarshal entry.2 with
  | none => simp [decoded]
  | some fields =>
      by_cases same : entry.1 = connectionID
      · simp [decoded, same, Option.filter]
      · simp [decoded, same, Option.filter]

/-- Storing a connection adds one to the others. -/
theorem length_decodedConnections_set (conns : Hash) (conn : NewConnection) :
    (decodedConnections (conns.set conn.connectionID conn.toConnJSON.marshal)).length =
      (decodedConnections (conns.del conn.connectionID)).length + 1 := by
  rw [Hash.set, ← Hash.del, decodedConnections, List.filterMap_cons_some]
  · rfl
  · exact congrArg (Option.map _) (ConnJSON.unmarshal_stored conn)

/-- The stores after a connection was stored. -/
def State.afterRegister (state : State) (sessionID : Bytes) (conn : NewConnection) : State :=
  state.setHash (connKey sessionID)
    ((state.hashes (connKey sessionID)).set conn.connectionID conn.toConnJSON.marshal)

theorem length_connections_afterRegister (state : State) (sessionID : Bytes)
    (conn : NewConnection) :
    ((state.afterRegister sessionID conn).connections sessionID).length =
      (decodedConnections ((state.hashes (connKey sessionID)).del conn.connectionID)).length + 1 := by
  rw [State.connections, State.afterRegister, State.setHash_hashes, if_pos rfl,
    length_decodedConnections_set]

/-- The id is one of a connection that `GetConnections` reports. -/
def State.Registered (state : State) (sessionID connectionID : Bytes) : Prop :=
  connectionID ∈ (state.connections sessionID).map Connection.connectionID

/-- The number before the write plus one is right exactly for an id that is new. -/
theorem count_eq_iff (state : State) (sessionID : Bytes) (conn : NewConnection) :
    ((state.afterRegister sessionID conn).connections sessionID).length =
        (state.connections sessionID).length + 1 ↔
      ¬state.Registered sessionID conn.connectionID := by
  rw [length_connections_afterRegister, decodedConnections_del, Nat.add_right_cancel_iff,
    State.connections, List.length_filter_eq_length_iff, State.Registered, List.mem_map]
  simp only [decide_eq_true_eq, not_exists, not_and]
  rfl

/-! ### Calls one after the other -/

/-- A `RegisterConnection` that just returned a number without an error returned the
number of connections that `GetConnections` reports. -/
def ReportsTrueCount (sessionID : Bytes) (ledger : Ledger) : Prop :=
  ∀ conn count, ledger.outcomes.getLast? =
      some (.registerConnection sessionID conn, .registered count (.ok ())) →
    ∃ connections,
      (RedisStore.getConnections ConnJSON.unmarshal sessionID).run exec [.ok] ledger.state =
        some (.ok connections, ledger.state) ∧ connections.length = count

/-- The condition on an event: a call that registers a connection does so under an id
that is not registered. -/
def RegistersNewID (manager : Manager) (sessionID : Bytes) (ledger : Ledger) :
    SerialEvent → Prop
  | .call (.registerConnection target conn) choices =>
      target = sessionID →
      (∃ count after, (manager.code (.registerConnection sessionID conn)).run exec choices
        ledger.state = some (.registered count (.ok ()), after)) →
      ¬ledger.state.Registered sessionID conn.connectionID
  | _ => True

theorem reportsTrueCount_iff {sessionID : Bytes} {ledger : Ledger} :
    ReportsTrueCount sessionID ledger ↔
      ∀ conn count, ledger.outcomes.getLast? =
          some (.registerConnection sessionID conn, .registered count (.ok ())) →
        (ledger.state.connections sessionID).length = count := by
  have reported : (RedisStore.getConnections ConnJSON.unmarshal sessionID).run exec [.ok]
      ledger.state = some (.ok (ledger.state.connections sessionID), ledger.state) := rfl
  unfold ReportsTrueCount
  rw [reported]
  constructor
  · intro law conn count isLast
    obtain ⟨connections, isReported, isCount⟩ := law conn count isLast
    rw [← isCount, ← Except.ok.inj (Prod.mk.inj (Option.some.inj isReported)).1]
  · intro law conn count isLast
    exact ⟨_, rfl, law conn count isLast⟩

section Steps

variable {manager : Manager} {sessionID : Bytes} {ledger after : Ledger}

/-- What a call of `RegisterConnection` that is over says about the count. -/
theorem reportsTrueCount_register {conn : NewConnection} {choices : List Choice} {late : Log}
    {count : Nat} {result : Except Bytes Unit} {state final : State}
    (ran : (manager.code (.registerConnection sessionID conn)).run exec choices state =
      some (.registered count result, final))
    (effect : RegisterEffect manager sessionID conn state late (count, result) final) :
    (result = .ok () → (final.connections sessionID).length = count) ↔
      ((∃ count after, (manager.code (.registerConnection sessionID conn)).run exec choices state =
        some (.registered count (.ok ()), after)) →
        ¬state.Registered sessionID conn.connectionID) := by
  rw [ran]
  cases effect with
  | added free =>
      rw [← State.afterRegister, count_eq_iff]
      constructor
      · exact fun isNew _ => isNew rfl
      · exact fun isNew _ => isNew ⟨_, _, rfl⟩
  | _ =>
      -- The call returned an error, so it is no success on either side.
      refine iff_of_true (fun impossible => by cases impossible) ?_
      intro ⟨_, _, success⟩
      cases success

/-- **The step lemma.** A call reports the true count exactly when it registers no
connection, or one under a new id. -/
theorem reportsTrueCount_next {event : SerialEvent} (law : ReportsTrueCount sessionID ledger)
    (stepped : manager.next ledger event = some after) :
    ReportsTrueCount sessionID after ↔ RegistersNewID manager sessionID ledger event := by
  rw [reportsTrueCount_iff] at law ⊢
  rcases Manager.next_cases stepped with
    ⟨call, choices, outcome, late, rfl, ran, effect, -, outcomes⟩ |
    ⟨lapsed, rfl, state, -, outcomes⟩
  · rw [outcomes, List.getLast?_concat]
    generalize after.state = final at ran effect ⊢
    cases effect with
    | @registerConnection target conn _ count result _ effect =>
        by_cases same : target = sessionID
        · subst same
          rw [RegistersNewID, forall_prop_of_true rfl, ← reportsTrueCount_register ran effect]
          constructor
          · intro law success
            exact law conn count (by rw [success])
          · intro law registered reported isLast
            cases isLast
            exact law rfl
        · refine iff_of_true ?_ (fun isTarget => absurd isTarget same)
          intro registered reported isLast
          cases isLast
          exact absurd rfl same
    | _ =>
        refine iff_of_true ?_ trivial
        intro conn count isLast
        cases isLast
  · refine iff_of_true ?_ trivial
    intro conn count isLast
    rw [outcomes] at isLast
    rw [← law conn count isLast, state, State.connections, State.setHash_hashes,
      if_neg (connKey_ne_sessionKey _ _), State.connections]

end Steps

/-- **When `RegisterConnection` reports the true count.** All along a run of calls made
one after the other, from any stored connections, every `RegisterConnection` that
returns no error returns the number of connections that `GetConnections` reports right
after it, if and only if every one of them registers an id that is not registered
already. -/
theorem registered_count_true_iff (manager : Manager) (sessionID : Bytes) (initial : State)
    (events : List SerialEvent) :
    Always manager.next { state := initial } events (ReportsTrueCount sessionID) ↔
      EachStep manager.next { state := initial } events (RegistersNewID manager sessionID) := by
  refine always_iff_eachStep (fun _ => True) trivial ?_ ?_ events
  · intro conn count isLast
    cases isLast
  · intro ledger event after _ law stepped
    exact ⟨trivial, reportsTrueCount_next law stepped⟩

/-- A registration that finds a place. -/
theorem registerConnection_run {manager : Manager} {sessionID : Bytes} {state : State}
    (free : ¬manager.config.maxConnections ≤ (state.connections sessionID).length)
    (conn : NewConnection) :
    (manager.code (.registerConnection sessionID conn)).run exec [.ok, .ok] state =
      some (.registered ((state.connections sessionID).length + 1) (.ok ()),
        state.afterRegister sessionID conn) := by
  rw [State.connections, decodedConnections] at free ⊢
  simp [Manager.code, Manager.registerConnection, RedisStore.getConnections,
    RedisStore.addConnection, Program.run, exec, free, State.afterRegister]

/-- A gateway registers the same connection twice: the second call returns two, and
`GetConnections` reports one connection. -/
theorem registered_twice_counts_two :
    ∃ once twice connections,
      ((⟨false, defaultConfig⟩ : Manager).code
          (.registerConnection [1] (sampleConnection (utf8 "a")))).run exec [.ok, .ok] State.empty =
        some (.registered 1 (.ok ()), once) ∧
      ((⟨false, defaultConfig⟩ : Manager).code
          (.registerConnection [1] (sampleConnection (utf8 "a")))).run exec [.ok, .ok] once =
        some (.registered 2 (.ok ()), twice) ∧
      (RedisStore.getConnections ConnJSON.unmarshal [1]).run exec [.ok] twice =
        some (.ok connections, twice) ∧
      connections.length = 1 := by
  let once := State.empty.afterRegister [1] (sampleConnection (utf8 "a"))
  let twice := once.afterRegister [1] (sampleConnection (utf8 "a"))
  have oneStored : (once.connections [1]).length = 1 := length_connections_afterRegister _ _ _
  have stillOne : (twice.connections [1]).length = 1 := length_connections_afterRegister _ _ _
  refine ⟨once, twice, twice.connections [1], registerConnection_run (by decide) _, ?_, rfl,
    stillOne⟩
  rw [registerConnection_run (by rw [oneStored]; decide), oneStored]

end FProto.Sessions
