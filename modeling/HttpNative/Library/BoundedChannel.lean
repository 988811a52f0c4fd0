import Mathlib.Data.List.Basic

/-!
# Bounded channels

A first-in first-out queue with a capacity. Sending to a full channel and
receiving from an empty one are refused; who waits then is up to the user of
the channel.
-/

namespace HttpNative

/-- The messages on their way, never more than the capacity. -/
structure BoundedChannel (capacity : Nat) (Message : Type) where
  queue : List Message
  fits : queue.length ≤ capacity

namespace BoundedChannel

variable {capacity : Nat} {Message : Type}

def empty : BoundedChannel capacity Message where
  queue := []
  fits := Nat.zero_le capacity

/-- There is room for one more message. -/
def HasRoom (channel : BoundedChannel capacity Message) : Prop :=
  channel.queue.length < capacity

instance (channel : BoundedChannel capacity Message) : Decidable channel.HasRoom :=
  inferInstanceAs (Decidable (_ < _))

def send
    (channel : BoundedChannel capacity Message)
    (message : Message) :
    Option (BoundedChannel capacity Message) :=
  if room : channel.HasRoom then
    some
      { queue := channel.queue ++ [message]
        fits := by
          rw [List.length_append]
          exact room }
  else
    none

def receive (channel : BoundedChannel capacity Message) :
    Option (Message × BoundedChannel capacity Message) :=
  match received : channel.queue with
  | [] => none
  | message :: rest =>
      some (message,
        { queue := rest
          fits := by
            have fits := channel.fits
            rw [received, List.length_cons] at fits
            omega })

@[ext]
theorem ext
    {left right : BoundedChannel capacity Message}
    (same : left.queue = right.queue) :
    left = right := by
  cases left
  cases right
  congr

@[simp]
theorem queue_empty : (empty : BoundedChannel capacity Message).queue = [] :=
  rfl

/-- A sent message is the last of the queue. -/
theorem queue_of_send
    {channel next : BoundedChannel capacity Message} {message : Message}
    (sent : channel.send message = some next) :
    next.queue = channel.queue ++ [message] := by
  unfold send at sent
  split at sent
  · cases sent
    rfl
  · cases sent

/-- What is refused for want of room is the only thing that is. -/
theorem send_isSome_iff
    (channel : BoundedChannel capacity Message)
    (message : Message) :
    (channel.send message).isSome ↔ channel.HasRoom := by
  unfold send
  split <;> simp_all

/-- The received message is the first of the queue. -/
theorem queue_of_receive
    {channel next : BoundedChannel capacity Message} {message : Message}
    (received : channel.receive = some (message, next)) :
    channel.queue = message :: next.queue := by
  unfold receive at received
  split at received
  · cases received
  · rename_i queueEq
    cases received
    exact queueEq

theorem queue_of_receive_none
    {channel : BoundedChannel capacity Message}
    (nothing : channel.receive = none) :
    channel.queue = [] := by
  unfold receive at nothing
  split at nothing
  · assumption
  · cases nothing

theorem exists_receive
    {channel : BoundedChannel capacity Message} {message : Message} {rest : List Message}
    (first : channel.queue = message :: rest) :
    ∃ next, channel.receive = some (message, next) ∧ next.queue = rest := by
  cases received : channel.receive with
  | none =>
      rw [queue_of_receive_none received] at first
      cases first
  | some result =>
      have queueEq : channel.queue = result.1 :: result.2.queue := queue_of_receive received
      rw [first, List.cons.injEq] at queueEq
      exact ⟨result.2, by rw [queueEq.1], queueEq.2.symm⟩

/-- A received message leaves room. -/
theorem hasRoom_of_receive
    {channel next : BoundedChannel capacity Message} {message : Message}
    (received : channel.receive = some (message, next)) :
    next.HasRoom := by
  have fits := channel.fits
  rw [queue_of_receive received, List.length_cons] at fits
  exact fits

end BoundedChannel

end HttpNative
