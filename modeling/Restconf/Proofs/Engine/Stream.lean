import Restconf.Engine.Datastore

/-!
# The stream behind a channel

A channel keeps the newest items only, and counts how many there were. Beside the list of all items
that were ever sent, this is enough to say what every listener finds at its position: an item of the
list, or that it has fallen behind by more than the channel keeps, or the end.

## Which listeners miss nothing

A position is a number of items that were sent before. So a listener misses nothing as long as the
items from its position on are not more than the channel keeps, and it does not matter when they
were sent, or how many were sent before.

## Main definitions

* `Channel.Carries` — a channel beside the items that were sent on it
* `Channel.since` — what a listener that keeps up has still to receive

## Main results

* `Channel.Carries.receive_eq` — what a listener finds
* `Channel.Carries.since_eq` — what is still to come for it
-/

namespace Restconf

/-- A datastore announces on a channel that keeps 64 items. -/
theorem Datastore.capacity_announcements (nodes : List Node) :
    ({ nodes } : Datastore).announcements.capacity = 64 := by
  have power : Nat.nextPowerOfTwo 64 = 64 := by decide +kernel
  exact power

namespace Channel

variable {α : Type}

/-- The items that were sent on a channel. -/
structure Carries (channel : Channel α) (items : List α) : Prop where
  sent : channel.sent = items.length
  kept : channel.kept = items.drop (items.length - channel.capacity)

/-- The items from a position on that the channel keeps. -/
def since (channel : Channel α) (position : Nat) : List α :=
  channel.kept.drop (position - channel.oldest)

theorem carries_ofCapacity (capacity : Nat) : (ofCapacity capacity : Channel α).Carries [] :=
  ⟨rfl, List.drop_nil.symm⟩

section Carries

variable {channel : Channel α} {items : List α}

theorem Carries.close (h : channel.Carries items) : channel.close.Carries items := ⟨h.sent, h.kept⟩

/-- **An item that is sent is the next one of the stream.** -/
theorem Carries.send (h : channel.Carries items) (value : α) :
    (channel.send value).Carries (items ++ [value]) where
  sent := by simp [Channel.send, h.sent]
  kept := by
    have hkept : channel.kept ++ [value]
        = (items ++ [value]).drop (items.length - channel.capacity) := by
      rw [List.drop_append_of_le_length (Nat.sub_le ..), h.kept]
    simp only [Channel.send, hkept, List.drop_drop, List.length_drop, List.length_append,
      List.length_singleton]
    congr 1
    omega

theorem Carries.foldl_send (h : channel.Carries items) (values : List α) :
    (values.foldl Channel.send channel).Carries (items ++ values) := by
  induction values generalizing channel items with
  | nil => rwa [List.append_nil]
  | cons value values ih => simpa using ih (h.send value)

theorem capacity_foldl_send (channel : Channel α) (values : List α) :
    (values.foldl Channel.send channel).capacity = channel.capacity
      ∧ (values.foldl Channel.send channel).isClosed = channel.isClosed := by
  induction values generalizing channel with
  | nil => exact ⟨rfl, rfl⟩
  | cons value values ih => exact ih (channel.send value)

theorem Carries.oldest_eq (h : channel.Carries items) :
    channel.oldest = items.length - channel.capacity := by
  rw [oldest, h.sent, h.kept, List.length_drop]
  omega

/-- **What a listener finds at its position.** -/
theorem Carries.receive_eq (h : channel.Carries items) (position : Nat) :
    channel.receive position
      = if position + channel.capacity < items.length then
          .lagged (items.length - channel.capacity)
        else
          match items[position]? with
          | some value => .item value
          | none => if channel.isClosed then .closed else .empty := by
  rw [receive, h.oldest_eq, h.kept, List.getElem?_drop]
  by_cases hlag : position + channel.capacity < items.length
  · rw [if_pos hlag, if_pos (by omega)]
  · have hkept : ¬ position < items.length - channel.capacity := by omega
    have hposition : items.length - channel.capacity
        + (position - (items.length - channel.capacity)) = position := by omega
    cases hitem : items[position]? <;> simp [hlag, hkept, hposition, hitem]

/-- What a listener that keeps up finds: the item at its position, or the end. -/
theorem Carries.receive_of_keepsUp (h : channel.Carries items) {position : Nat}
    (keepsUp : items.length ≤ position + channel.capacity) :
    channel.receive position
      = match items[position]? with
        | some value => .item value
        | none => if channel.isClosed then .closed else .empty := by
  rw [h.receive_eq, if_neg (Nat.not_lt.mpr keepsUp)]

/-- **A listener that keeps up has all items from its position on still to receive.** -/
theorem Carries.since_eq (h : channel.Carries items) {position : Nat}
    (keepsUp : items.length ≤ position + channel.capacity) :
    channel.since position = items.drop position := by
  rw [since, h.kept, h.oldest_eq, List.drop_drop]
  congr 1
  omega

end Carries

end Channel

end Restconf
