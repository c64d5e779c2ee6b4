import Mathlib.Data.List.Basic

/-!
# Buffered channels

A send waits while the buffer is full. A receive takes the oldest value, and in the same step
the oldest send that waits gets its value into the buffer.
-/

namespace Lib

structure Channel (α : Type) where
  capacity : ℕ
  buffer : List α := []
  waiting : List α := []
  positive : 0 < capacity
  bounded : buffer.length ≤ capacity
  full : waiting ≠ [] → buffer.length = capacity

namespace Channel

variable {α : Type} (c : Channel α)

def make (capacity : ℕ) (positive : 0 < capacity) : Channel α where
  capacity := capacity
  positive := positive
  bounded := Nat.zero_le _
  full := fun h => absurd rfl h

def push (a : α) (room : c.buffer.length < c.capacity) : Channel α :=
  { c with
    buffer := c.buffer ++ [a]
    bounded := by
      rw [List.length_append, List.length_singleton]
      omega
    full := fun hne => absurd (c.full hne) (by omega) }

def trySend (a : α) : Option (Channel α) := if room : c.buffer.length < c.capacity then some (c.push a room) else none

def send (a : α) : Channel α :=
  if room : c.buffer.length < c.capacity then c.push a room
  else
    { c with
      waiting := c.waiting ++ [a]
      full := fun _ => by have := c.bounded; omega }

def receive : Option (α × Channel α) :=
  match hbuffer : c.buffer with
  | [] => none
  | a :: rest =>
    match hwaiting : c.waiting with
    | [] =>
      some (a,
        { c with
          buffer := rest
          bounded := by have := c.bounded; rw [hbuffer, List.length_cons] at this; omega
          full := fun hne => absurd hwaiting hne })
    | b :: later =>
      some (a,
        { c with
          buffer := rest ++ [b]
          waiting := later
          bounded := by have := c.bounded; rw [hbuffer] at this; simpa using this
          full := fun _ => by
            have := c.full (by simp [hwaiting])
            rw [hbuffer] at this
            simpa using this })

def contents : List α := c.buffer ++ c.waiting

variable {c} {c' : Channel α} {a : α}

theorem waiting_eq_nil_of_room (h : c.buffer.length < c.capacity) : c.waiting = [] := by
  by_contra hne
  have := c.full hne
  omega

theorem contents_push (room : c.buffer.length < c.capacity) : (c.push a room).contents = c.contents ++ [a] := by
  simp [push, contents, waiting_eq_nil_of_room room]

theorem contents_trySend (h : c.trySend a = some c') : c'.contents = c.contents ++ [a] := by
  unfold trySend at h
  split at h
  · cases h
    exact contents_push _
  · cases h

theorem contents_send : (c.send a).contents = c.contents ++ [a] := by
  unfold send
  split
  · exact contents_push _
  · simp [contents]

theorem contents_receive (h : c.receive = some (a, c')) : c.contents = a :: c'.contents := by
  unfold receive at h
  split at h
  · cases h
  · rename_i hbuffer
    split at h
    · rename_i hwaiting
      cases h
      simp [contents, hbuffer, hwaiting]
    · rename_i hwaiting
      cases h
      simp [contents, hbuffer, hwaiting]

theorem contents_of_empty (h : c.buffer = []) : c.contents = [] := by
  by_contra hne
  have hfull := c.full fun hnil => hne (by rw [contents, h, hnil, List.append_nil])
  have := c.positive
  rw [h, List.length_nil] at hfull
  omega

end Channel

end Lib
