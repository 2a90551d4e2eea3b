import FProto.Outbox.NoLoss
import Mathlib.Data.List.Dedup

/-!
Owns the subscription of the sync service: `New`, `DiscoverTopics` and `Run` of
`server/internal/sync/service.go` in the order in which `main` of
`server/cmd/sync-service` calls them, beside the pipeline that publishes.

A topic comes into being with its first record. The service lists the topics
once, when it starts, and subscribes to those for users and groups. It listens
to all of them exactly as long as no other one gets its first record.
-/

namespace FProto.Sync

open FProto.Foundation
open FProto.Protocol

/-! ### The service -/

/-- `Service`, as far as the subscription depends on it. -/
structure Service where
  topics : List Bytes
deriving DecidableEq

/-- `New`. -/
def Service.new : Service where
  topics := []

/-- The names that `DiscoverTopics` keeps, by `strings.HasPrefix`. -/
def carriesUsers (name : Bytes) : Bool :=
  (utf8 "user-").isPrefixOf name || (utf8 "group-").isPrefixOf name

theorem carriesUsers_userTopic (userID : Bytes) : carriesUsers (Kafka.userTopic userID) = true := by
  rw [carriesUsers, Kafka.userTopic, List.isPrefixOf_iff_prefix.mpr (List.prefix_append _ _),
    Bool.true_or]

theorem carriesUsers_groupTopic (groupID : Bytes) :
    carriesUsers (Kafka.groupTopic groupID) = true := by
  rw [carriesUsers, Kafka.groupTopic, List.isPrefixOf_iff_prefix.mpr (List.prefix_append _ _),
    Bool.or_true]

/-- `Service.DiscoverTopics`. The names of the answer of `ListTopics` come in the
order in which the loop over the map meets them. -/
def Service.discoverTopics (service : Service) :
    Except String (List Bytes) → Except String Unit × Service
  | .error error => (.error ("list topics: " ++ error), service)
  | .ok names => (.ok (), { topics := names.filter carriesUsers })

/-- `Service.Run`: the topics of every `Consume` in its loop, or `none` when it
returns without one after a pause. -/
def Service.run (service : Service) : Option (List Bytes) :=
  if service.topics.length = 0 then none else some service.topics

/-- `main`: a failed discovery is only logged, and `Run` follows. -/
def main (listed : Except String (List Bytes)) : Service :=
  (Service.new.discoverTopics listed).2

/-! ### The deployment -/

abbrev PipelinePool :=
  Pool Outbox.Command Outbox.Reply (Except String Unit) Outbox.State Outbox.Call

/-- The pipeline, and the sync service while its process runs. -/
structure Deployment where
  pool : PipelinePool
  running : Option Service

def Deployment.initial : Deployment where
  pool := Pool.start Outbox.State.initial
  running := none

def Deployment.log (deployment : Deployment) : Bytes → List Kafka.Record :=
  deployment.pool.world.state.log

def sentTopic : Foundation.Entry Outbox.Command Outbox.Reply → Option Bytes
  | ⟨_, .send topic _ _, _⟩ => some topic
  | _ => none

/-- The topics that hold a record. -/
def Deployment.existingTopics (deployment : Deployment) : List Bytes :=
  ((deployment.pool.world.trace.filterMap sentTopic).filter fun topic =>
    !(deployment.log topic).isEmpty).dedup

/-- What `ListTopics` may answer: an error, or the existing topics in any order. -/
def Deployment.answers (deployment : Deployment) : Except String (List Bytes) → Bool
  | .error _ => true
  | .ok names => decide (names.Perm deployment.existingTopics)

/-- A step of the pipeline, or the start or the end of the sync service. The
service may end at any time; without topics `Run` ends it. -/
inductive DeploymentEvent where
  | pipeline (event : Event Outbox.Call Outbox.Choice)
  | start (listed : Except String (List Bytes))
  | stop

def Deployment.next (codec : ProtoCodec) (deployment : Deployment) :
    DeploymentEvent → Option Deployment
  | .pipeline event =>
      match deployment.pool.next (Outbox.pipeline codec) event with
      | none => none
      | some pool => some { deployment with pool }
  | .start listed =>
      if deployment.running.isNone && deployment.answers listed then
        some { deployment with running := some (main listed) }
      else none
  | .stop => some { deployment with running := none }

/-! ### The law and its condition -/

/-- Every topic for users or groups that holds a record is subscribed to. -/
def Deployment.Listens (deployment : Deployment) : Prop :=
  ∀ service, deployment.running = some service →
    ∀ topic, carriesUsers topic = true → deployment.log topic ≠ [] →
      ∃ topics, service.run = some topics ∧ topic ∈ topics

/-- The step sends the first record of the topic. -/
def FirstRecord (deployment : Deployment) (thread : Nat) (choice : Outbox.Choice)
    (topic : Bytes) : Prop :=
  deployment.log topic = [] ∧ (∀ error, choice ≠ .fail error) ∧
    ∃ call key value following, deployment.pool.threads[thread]? =
      some ⟨call, .call (.send topic key value) following, true⟩

/-- The condition on a step: while the service runs, no topic for users or groups
gets its first record; and the service starts with a failed discovery only while
none of them has a record. -/
def KeepsUp (deployment : Deployment) : DeploymentEvent → Prop
  | .pipeline (.step thread choice) =>
      deployment.running.isSome = true →
        ∀ topic, FirstRecord deployment thread choice topic → carriesUsers topic = false
  | .start (.error _) => ∀ topic, carriesUsers topic = true → deployment.log topic = []
  | _ => True

/-- What every reachable state satisfies: every record was sent, and the topics
of the service hold records. -/
structure Deployment.Known (deployment : Deployment) : Prop where
  sent : ∀ topic, deployment.log topic ≠ [] →
    ∃ entry ∈ deployment.pool.world.trace, sentTopic entry = some topic
  held : ∀ service, deployment.running = some service →
    ∀ topic ∈ service.topics, deployment.log topic ≠ []

/-! ### One step -/

theorem mem_run_iff {service : Service} {topic : Bytes} :
    (∃ topics, service.run = some topics ∧ topic ∈ topics) ↔ topic ∈ service.topics := by
  unfold Service.run
  split
  · next empty =>
    rw [List.length_eq_zero_iff.mp empty]
    simp
  · simp

theorem Deployment.Known.mem_existingTopics {deployment : Deployment} (known : deployment.Known)
    {topic : Bytes} : topic ∈ deployment.existingTopics ↔ deployment.log topic ≠ [] := by
  unfold Deployment.existingTopics
  rw [List.mem_dedup, List.mem_filter, List.mem_filterMap]
  constructor
  · rintro ⟨-, held⟩
    simpa using held
  · intro held
    exact ⟨known.sent topic held, by simpa using held⟩

/-- A command appends a record to one topic, or no record at all. -/
theorem exec_log {command : Outbox.Command} {choice : Outbox.Choice} {state after : Outbox.State}
    {reply : Outbox.Reply command}
    (executed : Outbox.exec command choice state = some (reply, after)) :
    (∃ topic key value, command = .send topic key value ∧ (∀ error, choice ≠ .fail error) ∧
      after.log = Outbox.appendRecord state.log topic ⟨key, value⟩) ∨
    (after.log = state.log ∧
      ∀ topic key value, command = .send topic key value → ∃ error, choice = .fail error) := by
  by_cases sends : ∃ topic key value, command = .send topic key value
  · obtain ⟨topic, key, value, rfl⟩ := sends
    cases choice with
    | ok now =>
        cases executed
        exact .inl ⟨topic, key, value, rfl, (fun _ impossible => by cases impossible), rfl⟩
    | failAppended error =>
        cases executed
        exact .inl ⟨topic, key, value, rfl, (fun _ impossible => by cases impossible), rfl⟩
    | fail error =>
        cases executed
        exact .inr ⟨rfl, fun _ _ _ _ => ⟨error, rfl⟩⟩
    | _ => cases executed
  · refine .inr ⟨?_, fun topic key value isSend => absurd ⟨topic, key, value, isSend⟩ sends⟩
    cases Outbox.exec_effect executed with
    | appended topic key value => exact absurd ⟨topic, key, value, rfl⟩ sends
    | _ => rfl

section Step

variable {deployment : Deployment} {pool : PipelinePool}

/-- Steps that append no record. -/
theorem Deployment.Known.of_log (known : deployment.Known)
    (trace : deployment.pool.world.trace <+: pool.world.trace)
    (log : pool.world.state.log = deployment.log) :
    ({ deployment with pool } : Deployment).Known := by
  refine ⟨fun topic held => ?_, fun service isRunning topic member => ?_⟩
  · obtain ⟨entry, isEntry, sent⟩ := known.sent topic (log ▸ held)
    exact ⟨entry, trace.subset isEntry, sent⟩
  · show pool.world.state.log topic ≠ []
    rw [log]
    exact known.held service isRunning topic member

theorem Deployment.Listens.of_log (listens : deployment.Listens)
    (log : pool.world.state.log = deployment.log) :
    ({ deployment with pool } : Deployment).Listens := by
  intro service isRunning topic carries held
  exact listens service isRunning topic carries (log ▸ held)

/-- The topic of a new record holds one, and the others are as they were. -/
theorem appendRecord_ne_nil {log : Bytes → List Kafka.Record} {topic other : Bytes}
    {record : Kafka.Record} :
    Outbox.appendRecord log topic record other ≠ [] ↔ other = topic ∨ log other ≠ [] := by
  unfold Outbox.appendRecord
  split
  · next same => simp [same]
  · next different => simp [different]

/-- A new record. -/
theorem Deployment.Known.append (known : deployment.Known) {topic : Bytes} {key : Slice}
    {value : Bytes} {thread : Nat} {reply : Outbox.Reply (.send topic key value)}
    (trace : pool.world.trace =
      deployment.pool.world.trace ++ [⟨thread, .send topic key value, reply⟩])
    (log : pool.world.state.log = Outbox.appendRecord deployment.log topic ⟨key, value⟩) :
    ({ deployment with pool } : Deployment).Known := by
  refine ⟨fun other held => ?_, fun service isRunning other member => ?_⟩
  · show ∃ entry ∈ pool.world.trace, sentTopic entry = some other
    have grown : pool.world.state.log other ≠ [] := held
    rw [log] at grown
    rw [trace]
    rcases appendRecord_ne_nil.mp grown with rfl | before
    · exact ⟨_, List.mem_append_right _ List.mem_cons_self, rfl⟩
    · obtain ⟨entry, isEntry, sent⟩ := known.sent other before
      exact ⟨entry, List.mem_append_left _ isEntry, sent⟩
  · show pool.world.state.log other ≠ []
    rw [log]
    exact appendRecord_ne_nil.mpr (.inr (known.held service isRunning other member))

/-- After a new record the law holds exactly when its topic had one before, or is
not for users or groups, or the service does not run. -/
theorem Deployment.listens_append_iff (known : deployment.Known) (listens : deployment.Listens)
    {topic : Bytes} {record : Kafka.Record}
    (log : pool.world.state.log = Outbox.appendRecord deployment.log topic record) :
    ({ deployment with pool } : Deployment).Listens ↔
      (deployment.running.isSome = true → deployment.log topic = [] →
        carriesUsers topic = false) := by
  constructor
  · intro after isRunning first
    obtain ⟨service, running⟩ := Option.isSome_iff_exists.mp isRunning
    by_contra carries
    have held : pool.world.state.log topic ≠ [] := by
      rw [log]
      exact appendRecord_ne_nil.mpr (.inl rfl)
    have member := mem_run_iff.mp (after service running topic (by simpa using carries) held)
    exact known.held service running topic member first
  · intro first service running other carries held
    have grown : pool.world.state.log other ≠ [] := held
    rw [log] at grown
    rcases appendRecord_ne_nil.mp grown with rfl | before
    · apply listens service running other carries
      intro empty
      have foreign := first (Option.isSome_iff_exists.mpr ⟨service, running⟩) empty
      rw [foreign] at carries
      cases carries
    · exact listens service running other carries before

/-- **A step of the pipeline.** -/
theorem Deployment.Known.pipeline_step {codec : ProtoCodec}
    {event : Event Outbox.Call Outbox.Choice} (known : deployment.Known) (listens : deployment.Listens)
    (stepped : deployment.pool.next (Outbox.pipeline codec) event = some pool) :
    ({ deployment with pool } : Deployment).Known ∧
      (({ deployment with pool } : Deployment).Listens ↔ KeepsUp deployment (.pipeline event)) := by
  rcases Pool.next_cases stepped with
    ⟨call, rfl, -, rfl⟩ |
    ⟨thread, choice, call, command, following, reply, state, rfl, found, executed, rfl⟩ |
    ⟨thread, call, program, isRunning, rfl, -, rfl⟩
  · exact ⟨known.of_log List.prefix_rfl rfl, iff_of_true (listens.of_log rfl) trivial⟩
  · rcases exec_log executed with ⟨topic, key, value, rfl, sent, log⟩ | ⟨log, unsent⟩
    · refine ⟨known.append rfl log, (listens_append_iff known listens log).trans ?_⟩
      constructor
      · rintro first isRunning other ⟨empty, -, otherCall, otherKey, otherValue, next, isThread⟩
        obtain ⟨rfl⟩ : topic = other := by
          rw [found] at isThread
          cases isThread
          rfl
        exact first isRunning empty
      · intro keepsUp isRunning empty
        exact keepsUp isRunning topic ⟨empty, sent, call, key, value, following, found⟩
    · refine ⟨known.of_log (List.prefix_append _ _) log, iff_of_true (listens.of_log log) ?_⟩
      rintro - topic ⟨-, sent, otherCall, key, value, next, isThread⟩
      rw [found] at isThread
      cases isThread
      obtain ⟨error, refused⟩ := unsent topic key value rfl
      exact absurd refused (sent error)
  · exact ⟨known.of_log List.prefix_rfl rfl, iff_of_true (listens.of_log rfl) trivial⟩

/-- **A start of the service.** A discovery that succeeds finds every topic that
holds a record; one that fails finds none. -/
theorem Deployment.Known.start {listed : Except String (List Bytes)} (known : deployment.Known)
    (answered : deployment.answers listed = true) :
    ({ deployment with running := some (main listed) } : Deployment).Known ∧
      (({ deployment with running := some (main listed) } : Deployment).Listens ↔
        KeepsUp deployment (.start listed)) := by
  cases listed with
  | error error =>
      refine ⟨⟨known.sent, fun service running topic member => ?_⟩, ?_⟩
      · obtain rfl := Option.some.inj running
        exact absurd member List.not_mem_nil
      · constructor
        · intro listens topic carries
          by_contra held
          have member := mem_run_iff.mp (listens _ rfl topic carries held)
          exact absurd member List.not_mem_nil
        · intro empty service running topic carries held
          exact absurd (empty topic carries) held
  | ok names =>
      have isList : names.Perm deployment.existingTopics := of_decide_eq_true answered
      refine ⟨⟨known.sent, fun service running topic member => ?_⟩, iff_of_true ?_ trivial⟩
      · obtain rfl := Option.some.inj running
        have listed := (List.mem_filter.mp member).1
        exact known.mem_existingTopics.mp (isList.subset listed)
      · intro service running topic carries held
        obtain rfl := Option.some.inj running
        have listed := isList.symm.subset (known.mem_existingTopics.mpr held)
        exact mem_run_iff.mpr (List.mem_filter.mpr ⟨listed, carries⟩)

end Step

/-! ### Every run -/

theorem Deployment.next_keeps {codec : ProtoCodec} {deployment after : Deployment}
    {event : DeploymentEvent} (known : deployment.Known) (listens : deployment.Listens)
    (stepped : deployment.next codec event = some after) :
    after.Known ∧ (after.Listens ↔ KeepsUp deployment event) := by
  cases event with
  | pipeline event =>
      simp only [Deployment.next] at stepped
      split at stepped
      · cases stepped
      · next pool advanced =>
        obtain rfl := Option.some.inj stepped
        exact known.pipeline_step listens advanced
  | start listed =>
      simp only [Deployment.next] at stepped
      split at stepped
      · next possible =>
        obtain rfl := Option.some.inj stepped
        exact known.start (Bool.and_eq_true_iff.mp possible).2
      · cases stepped
  | stop =>
      obtain rfl := Option.some.inj stepped
      exact ⟨⟨known.sent, fun _ impossible => by cases impossible⟩,
        iff_of_true (fun _ impossible => by cases impossible) trivial⟩

/-- **When the sync service listens to every topic.** All along a run of `Dispatch`
calls, relays and starts and ends of the sync service, a running service is
subscribed to every topic for users or groups that holds a record, if and only
if no such topic gets its first record while the service runs, and the service
never goes on after a failed discovery when such a topic has a record. -/
theorem sync_listens_iff (codec : ProtoCodec) (events : List DeploymentEvent) :
    Always (Deployment.next codec) Deployment.initial events Deployment.Listens ↔
      EachStep (Deployment.next codec) Deployment.initial events KeepsUp := by
  have known : Deployment.initial.Known :=
    ⟨fun topic held => absurd rfl held, fun _ impossible => by cases impossible⟩
  have listens : Deployment.initial.Listens := fun _ impossible => by cases impossible
  refine always_iff_eachStep Deployment.Known known listens ?_ events
  intro deployment event after known listens stepped
  exact Deployment.next_keeps known listens stepped

/-- A message to a second user, and its encoding. -/
def newUserChat : AppMessage :=
  { messageId := some [8]
    body := some (.chat (some { senderId := some [1], recipientId := some [0xbb] })) }

def newUserPayload : Bytes := [0x0a, 1, 8, 0x1a, 6, 0x12, 1, 1, 0x1a, 1, 0xbb]

def twoUsersCodec : ProtoCodec :=
  ProtoCodec.ofList [(sampleChat, sampleChatPayload), (newUserChat, newUserPayload)] []

/-- The outbox rows of the two messages. -/
def firstRow : Outbox.Entry :=
  { id := 1, messageId := [7], topic := utf8 "user-aa", partitionKey := [0xaa]
    payload := sampleChatPayload, status := .pending, retryCount := 0, createdAt := 1
    publishedAt := none }

def secondRow : Outbox.Entry :=
  { firstRow with
    id := 2, messageId := [8], topic := utf8 "user-bb", partitionKey := [0xbb]
    payload := newUserPayload, createdAt := 4 }

/-- The service starts when the first user has a topic; then the second user gets
a message. -/
def newUserRun : List DeploymentEvent :=
  [.pipeline (.spawn (.dispatch (some [1]) (some sampleChat))), .pipeline (.step 0 (.ok 1)),
    .pipeline (.spawn (.poll 100)), .pipeline (.step 1 (.fetched [firstRow])),
    .pipeline (.step 1 (.ok 2)), .pipeline (.step 1 (.ok 3)),
    .start (.ok [utf8 "user-aa"]),
    .pipeline (.spawn (.dispatch (some [1]) (some newUserChat))), .pipeline (.step 2 (.ok 4)),
    .pipeline (.spawn (.poll 100)), .pipeline (.step 3 (.fetched [secondRow])),
    .pipeline (.step 3 (.ok 5)), .pipeline (.step 3 (.ok 6))]

theorem new_user_topic_not_heard :
    ∃ deployment, run (Deployment.next twoUsersCodec) Deployment.initial newUserRun =
        some deployment ∧
      deployment.running = some { topics := [utf8 "user-aa"] } ∧
      deployment.log (utf8 "user-bb") = [⟨some [0xbb], newUserPayload⟩] ∧
      ¬deployment.Listens := by
  refine ⟨_, rfl, rfl, rfl, fun listens => ?_⟩
  obtain ⟨topics, subscribed, member⟩ :=
    listens _ rfl (utf8 "user-bb") (by decide) (List.cons_ne_nil _ _)
  obtain rfl := Option.some.inj subscribed
  exact absurd member (by decide)

end FProto.Sync
