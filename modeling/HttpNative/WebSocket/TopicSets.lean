import HttpNative.WebSocket.ConnectionSteps
import Mathlib.Data.Finset.Card

/-!
# Topic sets

The subscribers of a topic are ids, which nothing ties to the connections of
the stream registry: a call may subscribe any id, and a connection whose client
goes away leaves its topics as they are. An ended connection leaves the registry
first and its topics when the call is done.
-/

namespace HttpNative
namespace WebSocket

open Streaming (StreamMessage)

variable {system next : SocketSystem}

/-- The steps of the system, and calls that take an id out of all topics. -/
inductive TopicEvent where
  | step (event : SocketEvent)
  | wsUnsubscribeAll (id : Nat)

def topicStep (system : SocketSystem) : TopicEvent → Option SocketSystem
  | .step event => system.step event
  | .wsUnsubscribeAll id =>
      if system.calls.isEmpty then
        some { system with topics := wsUnsubscribeAll id system.topics }
      else
        none

def topicMachine : Machine SocketSystem TopicEvent where
  start := socketMachine.start
  step := topicStep

/-- `ws_subscriber_count`. -/
def wsSubscriberCount (system : SocketSystem) (topic : Text) : Nat :=
  ((system.topics.get topic).map Finset.card).getD 0

/-- The message ends a connection. -/
def isEnd : StreamMessage → Bool
  | .chunk _ => false
  | .end => true

/-- A connection that the JavaScript thread is about to end. -/
def isEnding (system : SocketSystem) (id : Nat) : Bool :=
  system.calls.any fun send => isEnd send.message && send.target = id

/-- A connection of the stream registry, or one that is being taken out of it. -/
def isLive (system : SocketSystem) (id : Nat) : Bool :=
  system.isRegistered id || isEnding system id

def liveSubscribers (system : SocketSystem) (topic : Text) : Finset Nat :=
  ((system.topics.get topic).getD ∅).filter fun id => isLive system id = true

/-- The topics hold nothing but subscribers that are in the stream registry. -/
structure TopicsLive (system : SocketSystem) : Prop where
  live : ∀ entry ∈ system.topics, ∀ id ∈ entry.2, isLive system id = true
  notEmpty : ∀ entry ∈ system.topics, entry.2 ≠ ∅
  counted : ∀ topic, wsSubscriberCount system topic = (liveSubscribers system topic).card

/-- The clean-up of a connection takes no subscriber out of the registry. -/
def CleansUpUnsubscribed (system : SocketSystem) (id : Nat) : Prop :=
  system.isRegistered id = false ∨ ∀ entry ∈ system.topics, id ∉ entry.2

instance (system : SocketSystem) (id : Nat) : Decidable (CleansUpUnsubscribed system id) :=
  inferInstanceAs (Decidable (_ ∨ _))

/-- Only connections of the registry are subscribed, and a task removes its
connection from the registry only when no topic holds it. -/
def SubscribesLive (system : SocketSystem) : TopicEvent → Prop
  | .step (.wsSubscribe id _) => system.isRegistered id = true
  | .step (.cleanup id) => CleansUpUnsubscribed system id
  | _ => True

instance (system : SocketSystem) : (event : TopicEvent) → Decidable (SubscribesLive system event)
  | .step (.wsSubscribe id _) => inferInstanceAs (Decidable (system.isRegistered id = true))
  | .step (.cleanup id) => inferInstanceAs (Decidable (CleansUpUnsubscribed system id))
  | .step .connect | .step (.answer _) | .step (.turn _ _) => .isTrue trivial
  | .step (.receive _ _) | .step (.stop _) => .isTrue trivial
  | .step (.streamWrite _ _) | .step (.streamEnd _) => .isTrue trivial
  | .step (.wsPublish _ _ _) | .step (.wsUnsubscribe _ _) | .step .progress => .isTrue trivial
  | .wsUnsubscribeAll _ => .isTrue trivial

/-! ## What the calls do to the topics -/

variable {topics : Dictionary Text (Finset Nat)} {entry : Text × Finset Nat} {id : Nat}

/-- A subscriber after a subscription is the new one or was there before. -/
theorem of_mem_wsSubscribe
    {topic : Text}
    (member : entry ∈ wsSubscribe id topic topics) :
    entry.2 ≠ ∅ ∧ (∀ other ∈ entry.2, other = id ∨ ∃ former ∈ topics, other ∈ former.2) ∨
      entry ∈ topics := by
  refine (Dictionary.eq_or_mem_of_mem_set member).imp_left fun isNew => ?_
  subst isNew
  refine ⟨Finset.insert_ne_empty _ _, fun other subscribed => ?_⟩
  rcases Finset.mem_insert.mp subscribed with isId | former
  · exact .inl isId
  · cases found : topics.get topic with
    | none => simp [found] at former
    | some subscribers =>
        rw [found, Option.getD_some] at former
        exact .inr ⟨(topic, subscribers), Dictionary.mem_of_get found, former⟩

theorem of_mem_wsUnsubscribe
    {topic : Text}
    (member : entry ∈ wsUnsubscribe id topic topics) :
    (entry.2 ≠ ∅ ∧ ∃ former ∈ topics, entry.2 ⊆ former.2) ∨ entry ∈ topics := by
  unfold wsUnsubscribe at member
  split at member
  · exact .inr member
  · rename_i subscribers found
    split at member
    · exact .inr (List.mem_of_mem_filter member)
    · rename_i notEmpty
      refine (Dictionary.eq_or_mem_of_mem_set member).imp_left fun isNew => ?_
      subst isNew
      exact ⟨notEmpty, _, Dictionary.mem_of_get found, Finset.erase_subset _ _⟩

theorem of_mem_wsUnsubscribeAll
    (member : entry ∈ wsUnsubscribeAll id topics) :
    entry.2 ≠ ∅ ∧ id ∉ entry.2 ∧ ∃ former ∈ topics, entry.2 ⊆ former.2 := by
  obtain ⟨mapped, notEmpty⟩ := List.mem_filter.mp member
  obtain ⟨former, inTopics, rfl⟩ := List.mem_map.mp mapped
  exact ⟨by simpa using notEmpty, Finset.notMem_erase _ _, former, inTopics,
    Finset.erase_subset _ _⟩

/-! ## Topics that stay live -/

/-- The first two parts of `TopicsLive`. -/
structure Live (system : SocketSystem) : Prop where
  live : ∀ entry ∈ system.topics, ∀ id ∈ entry.2, isLive system id = true
  notEmpty : ∀ entry ∈ system.topics, entry.2 ≠ ∅

theorem isLive_iff :
    isLive system id = true ↔ system.isRegistered id = true ∨ isEnding system id = true := by
  rw [isLive, Bool.or_eq_true]

theorem isEnding_of_calls
    (calls : next.calls = system.calls)
    (ending : isEnding system id = true) :
    isEnding next id = true := by
  rwa [isEnding, calls]

theorem not_isEnding_of_idle
    (idle : system.calls = []) :
    isEnding system id = false := by
  rw [isEnding, idle, List.any_nil]

/-- Fewer subscribers, with the registry as it was. -/
theorem Live.of_smaller
    (sound : Live system)
    (stays : ∀ id, isLive system id = true → isLive next id = true)
    (smaller : ∀ entry ∈ next.topics,
      (entry.2 ≠ ∅ ∧ ∃ former ∈ system.topics, entry.2 ⊆ former.2) ∨ entry ∈ system.topics) :
    Live next where
  live entry member id subscribed := by
    refine stays id ?_
    rcases smaller entry member with ⟨-, former, inTopics, subset⟩ | inTopics
    · exact sound.live former inTopics id (subset subscribed)
    · exact sound.live entry inTopics id subscribed
  notEmpty entry member := by
    rcases smaller entry member with ⟨notEmpty, -⟩ | inTopics
    · exact notEmpty
    · exact sound.notEmpty entry inTopics

theorem live_wsUnsubscribeAll
    (sound : Live system)
    (stays : ∀ other, other ≠ id → isLive system other = true → isLive next other = true)
    (topicsEq : next.topics = wsUnsubscribeAll id system.topics) :
    Live next where
  live entry member other subscribed := by
    rw [topicsEq] at member
    obtain ⟨-, erased, former, inTopics, subset⟩ := of_mem_wsUnsubscribeAll member
    refine stays other ?_ (sound.live former inTopics other (subset subscribed))
    rintro rfl
    exact erased subscribed
  notEmpty entry member := by
    rw [topicsEq] at member
    exact (of_mem_wsUnsubscribeAll member).1

theorem live_wsSubscribe
    {topic : Text}
    (sound : Live system)
    (isLiveId : isLive system id = true)
    (stays : ∀ other, isLive system other = true → isLive next other = true)
    (topicsEq : next.topics = wsSubscribe id topic system.topics) :
    Live next where
  live entry member other subscribed := by
    rw [topicsEq] at member
    refine stays other ?_
    rcases of_mem_wsSubscribe member with ⟨-, all⟩ | inTopics
    · rcases all other subscribed with rfl | ⟨former, inTopics, was⟩
      · exact isLiveId
      · exact sound.live former inTopics other was
    · exact sound.live entry inTopics other subscribed
  notEmpty entry member := by
    rw [topicsEq] at member
    rcases of_mem_wsSubscribe member with ⟨notEmpty, -⟩ | inTopics
    · exact notEmpty
    · exact sound.notEmpty entry inTopics

/-- Outside of the native calls, a connection stops being live only by its end or
its clean-up. -/
theorem isLive_of_step
    {event : SocketEvent}
    (stepEq : system.step event = some next)
    (notProgress : event ≠ .progress)
    (wasLive : isLive system id = true)
    (notEnded : event ≠ .streamEnd id)
    (notCleaned : event = .cleanup id → system.isRegistered id = false) :
    isLive next id = true := by
  rw [isLive_iff] at wasLive ⊢
  rcases wasLive with registered | ending
  · refine .inl (isRegistered_of_step stepEq registered notEnded fun cleaned => ?_)
    rw [notCleaned cleaned] at registered
    cases registered
  · refine .inr (isEnding_of_calls ((frame_of_step stepEq).calls notProgress ?_) ending)
    intro idle
    rw [not_isEnding_of_idle idle] at ending
    cases ending

theorem streamEnd_cases
    (stepEq : system.step (.streamEnd id) = some next) :
    system.calls = [] ∧ system.streamEnd id = next := by
  unfold SocketSystem.step at stepEq
  cases calls : system.calls with
  | nil =>
      rw [calls] at stepEq
      exact ⟨rfl, Option.some.inj stepEq⟩
  | cons send rest =>
      rw [calls] at stepEq
      cases stepEq

/-- An ended connection is live until its topics are cleared. -/
theorem live_streamEnd
    (sound : Live system)
    (idle : system.calls = []) :
    Live (system.streamEnd id) := by
  have others : ∀ other, other ≠ id → isLive system other = true →
      isLive (system.streamEnd id) other = true := by
    intro other different wasLive
    have stepEq : system.step (.streamEnd id) = some (system.streamEnd id) := by
      unfold SocketSystem.step
      rw [idle]
    refine isLive_of_step stepEq (by simp) wasLive ?_ (by simp)
    rintro same
    cases same
    exact different rfl
  by_cases registered : system.isRegistered id = true
  · refine sound.of_smaller (fun other wasLive => ?_) ?_
    · by_cases same : other = id
      · rw [isLive_iff]
        refine .inr ?_
        simp only [isEnding, SocketSystem.streamEnd, if_pos registered, List.any_cons, isEnd, same,
          decide_true, Bool.and_self, Bool.true_or]
      · exact others other same wasLive
    · rw [SocketSystem.streamEnd, if_pos registered]
      exact fun entry member => .inr member
  · refine live_wsUnsubscribeAll sound others ?_
    rw [SocketSystem.streamEnd, if_neg registered]

/-- A native call clears the topics of the connection that it has ended. -/
theorem live_progress
    (sound : Live system)
    (stepEq : system.progress = some next) :
    Live next := by
  have stepEq' : system.step .progress = some next := stepEq
  have registered : ∀ other, system.isRegistered other = true → next.isRegistered other = true :=
    fun other isRegistered => isRegistered_of_step stepEq' isRegistered (by simp) (by simp)
  obtain ⟨send, rest, calls, ⟨topicsEq, callsEq⟩ | ⟨topicsEq, callsEq⟩⟩ := progress_cases stepEq
  · have others : ∀ other, (isEnd send.message = true → other ≠ send.target) →
        isLive system other = true → isLive next other = true := by
      intro other different wasLive
      rw [isLive_iff] at wasLive ⊢
      refine wasLive.imp (registered other) fun ending => ?_
      rw [isEnding, calls, List.any_cons, Bool.or_eq_true, Bool.and_eq_true] at ending
      rw [isEnding, callsEq]
      refine ending.resolve_left ?_
      rintro ⟨isEnd, same⟩
      exact different isEnd (of_decide_eq_true same).symm
    cases message : send.message with
    | chunk data =>
        refine sound.of_smaller (fun other => others other (by simp [message, isEnd])) ?_
        rw [topicsEq, SocketSystem.endSend, message]
        exact fun entry member => .inr member
    | «end» =>
        refine live_wsUnsubscribeAll sound (fun other different => others other fun _ => different) ?_
        rw [topicsEq, SocketSystem.endSend, message]
  · refine sound.of_smaller (fun other wasLive => ?_) ?_
    · rw [isLive_iff] at wasLive ⊢
      refine wasLive.imp (registered other) fun ending => ?_
      rw [isEnding, calls, List.any_cons] at ending
      rw [isEnding, callsEq, List.any_cons]
      exact ending
    · rw [topicsEq]
      exact fun entry member => .inr member

theorem live_step
    {event : SocketEvent}
    (sound : Live system)
    (meets : SubscribesLive system (.step event))
    (stepEq : system.step event = some next) :
    Live next := by
  by_cases isProgress : event = .progress
  · subst isProgress
    exact live_progress sound stepEq
  have topicsEq := (frame_of_step stepEq).topics isProgress
  cases event with
  | progress => exact absurd rfl isProgress
  | wsSubscribe id topic =>
      refine live_wsSubscribe sound (isLive_iff.mpr (.inl meets)) (fun other wasLive => ?_) topicsEq
      exact isLive_of_step stepEq isProgress wasLive (by simp) (by simp)
  | wsUnsubscribe id topic =>
      refine sound.of_smaller (fun other wasLive => ?_) ?_
      · exact isLive_of_step stepEq isProgress wasLive (by simp) (by simp)
      · rw [topicsEq]
        exact fun entry => of_mem_wsUnsubscribe
  | streamEnd id =>
      obtain ⟨idle, rfl⟩ := streamEnd_cases stepEq
      exact live_streamEnd sound idle
  | cleanup id =>
      refine ⟨fun entry member other subscribed => ?_, fun entry member => ?_⟩
      · rw [topicsEq] at member
        refine isLive_of_step stepEq isProgress (sound.live entry member other subscribed) (by simp) ?_
        rintro same
        cases same
        exact meets.resolve_right fun none => none entry member subscribed
      · rw [topicsEq] at member
        exact sound.notEmpty entry member
  | _ =>
      refine sound.of_smaller (fun other wasLive => ?_) ?_
      · exact isLive_of_step stepEq isProgress wasLive (by simp) (by simp)
      · rw [topicsEq]
        exact fun entry member => .inr member

theorem live_topicStep
    {event : TopicEvent}
    (sound : Live system)
    (meets : SubscribesLive system event)
    (stepEq : topicStep system event = some next) :
    Live next := by
  cases event with
  | step event => exact live_step sound meets stepEq
  | wsUnsubscribeAll id =>
      rw [topicStep, Option.ite_none_right_eq_some] at stepEq
      cases stepEq.2
      exact live_wsUnsubscribeAll sound (fun _ _ isRegistered => isRegistered) rfl

/-- With live topics, the subscribers are the live ones. -/
theorem Live.counted
    (sound : Live system)
    (topic : Text) :
    wsSubscriberCount system topic = (liveSubscribers system topic).card := by
  unfold wsSubscriberCount liveSubscribers
  cases found : system.topics.get topic with
  | none => simp
  | some subscribers =>
      have all : ∀ id ∈ subscribers, isLive system id = true :=
        sound.live _ (Dictionary.mem_of_get found)
      rw [Option.map_some, Option.getD_some, Option.getD_some, Finset.filter_true_of_mem all]

/-- In a run in which only connections of the registry are subscribed, and those
that a task removes have no topics, the topics hold live subscribers only. -/
theorem topicsLive_of_subscribesLive
    (reaches : topicMachine.ReachesUnder SubscribesLive system) :
    TopicsLive system := by
  have sound : Live system := by
    refine reaches.invariant ⟨?_, ?_⟩ ?_
    · intro entry member
      cases member
    · intro entry member
      cases member
    · intro state event next sound meets stepEq
      exact live_topicStep sound meets stepEq
  exact ⟨sound.live, sound.notEmpty, sound.counted⟩

/-! ## Runs -/

/-- Two subscribers, of whom the first is ended by the server. -/
def endedSubscriberEvents : List TopicEvent :=
  [.step .connect, .step .connect, .step (.wsSubscribe 1 (text "news")),
    .step (.wsSubscribe 2 (text "news")), .step (.streamEnd 1), .step .progress,
    .step (.answer 1), .step (.turn 1 true), .step (.cleanup 1)]

theorem topicsLive_of_subscribesLive_ended :
    ∃ system, topicMachine.ReachesUnder SubscribesLive system ∧
      system.topics = [(text "news", {2})] ∧ TopicsLive system :=
  have reaches := Machine.reachesUnder_of_run endedSubscriberEvents rfl
  ⟨_, reaches, rfl, topicsLive_of_subscribesLive reaches⟩

/-- A subscriber whose client goes away stays in its topic. -/
theorem not_topicsLive_of_disconnect :
    ¬ ∀ system, topicMachine.Reaches system → TopicsLive system := by
  intro live
  have run : ((topicMachine.runFrom (fun _ _ => True) topicMachine.start
      [.step .connect, .step (.wsSubscribe 1 (text "news")), .step (.answer 1),
        .step (.turn 1 true), .step (.stop 1), .step (.cleanup 1)]).map fun system =>
          (system.topics, isLive system 1)) = some ([(text "news", {1})], false) := by
    rfl
  obtain ⟨system, reached, shown⟩ := Option.map_eq_some_iff.mp run
  obtain ⟨topics, notLive⟩ := Prod.mk.inj shown
  have isLive := (live system (Machine.reachesUnder_of_run _ reached)).live
    (text "news", {1}) (by rw [topics]; exact List.mem_singleton_self _) 1
    (Finset.mem_singleton_self 1)
  rw [notLive] at isLive
  cases isLive

end WebSocket
end HttpNative
