import WarehouseLoader.Proofs.Upload.ContentRange

/-!
# The buffer and the payload

A channel holds the payload from its offset on. Only two things change that:
a write adds to the end of the buffer, and a number of bytes that is believed
to be held is taken from the front. A number that is not believed ends the
flush but leaves the channel alone, and so does any that is no news. `credit`
is the channel in all three cases, and `told` is the channel after the answer
that the number was read from.
-/

namespace WarehouseLoader.Upload

open Http

namespace Channel

/-- What is accepted lies between what was held before and what there is, and
exactly the bytes in front of it are dropped. -/
theorem of_commit {ch ch' : Channel} {held : Nat} (h : ch.commit held = .ok ch') :
    ch.offset ≤ held ∧ held ≤ ch.bufferedEnd ∧
      ch' = { ch with buffer := ch.buffer.drop (held - ch.offset), offset := held } := by
  rw [commit] at h
  split at h
  · cases h
  · next hbounds =>
      injection h with h
      exact ⟨by omega, by omega, h.symm⟩

theorem eq_of_commit_le {ch ch' : Channel} {held : Nat} (h : ch.commit held = .ok ch')
    (hle : held ≤ ch.offset) : ch' = ch := by
  obtain ⟨hlow, -, rfl⟩ := of_commit h
  have heq : held = ch.offset := by omega
  rw [heq, Nat.sub_self]
  rfl

/-- The channel that was told how many bytes are held: it drops them, unless
it does not believe it. -/
def credit (ch : Channel) (held : Nat) : Channel :=
  match ch.commit held with
  | .ok ch' => ch'
  | .error _ => ch

/-- The channel that was told the answer to a chunk or to a query. -/
def told (ch : Channel) (a : Response) : Channel :=
  if a.status = incomplete then ch.credit (heldBy a) else ch

theorem credit_of_commit {ch ch' : Channel} {held : Nat} (h : ch.commit held = .ok ch') :
    ch.credit held = ch' := by
  rw [credit, h]

theorem credit_of_error {ch : Channel} {held : Nat} {e : LoadError}
    (h : ch.commit held = .error e) : ch.credit held = ch := by
  rw [credit, h]

theorem credit_of_le {ch : Channel} {held : Nat} (hle : held ≤ ch.offset) :
    ch.credit held = ch := by
  cases h : ch.commit held with
  | ok ch' => rw [credit_of_commit h, eq_of_commit_le h hle]
  | error e => exact credit_of_error h

theorem offset_le_credit (ch : Channel) (held : Nat) :
    ch.offset ≤ (ch.credit held).offset := by
  cases hcommit : ch.commit held with
  | error e => rw [credit_of_error hcommit]
  | ok ch' =>
      rw [credit_of_commit hcommit]
      obtain ⟨hlow, -, rfl⟩ := of_commit hcommit
      exact hlow

theorem offset_credit_le {ch : Channel} {held n : Nat} (h : ch.offset ≤ n)
    (hheld : held ≤ n) : (ch.credit held).offset ≤ n := by
  cases hcommit : ch.commit held with
  | error e =>
      rw [credit_of_error hcommit]
      exact h
  | ok ch' =>
      rw [credit_of_commit hcommit]
      obtain ⟨-, -, rfl⟩ := of_commit hcommit
      exact hheld

theorem fixed_credit (ch : Channel) (held : Nat) :
    (ch.credit held).chunkSize = ch.chunkSize ∧
    (ch.credit held).sessionUrl = ch.sessionUrl := by
  cases hcommit : ch.commit held with
  | error e =>
      rw [credit_of_error hcommit]
      exact ⟨rfl, rfl⟩
  | ok ch' =>
      rw [credit_of_commit hcommit]
      obtain ⟨-, -, rfl⟩ := of_commit hcommit
      exact ⟨rfl, rfl⟩

end Channel

/-- The buffer is what is left of the payload behind the offset. -/
structure Buffered (payload : Bytes) (ch : Channel) : Prop where
  buffer : ch.buffer = payload.drop ch.offset
  within : ch.offset ≤ payload.length

namespace Buffered

variable {payload : Bytes} {ch : Channel}

theorem fresh (url : String) (chunkSize : Nat) : Buffered [] (.new url chunkSize) where
  buffer := rfl
  within := Nat.le_refl 0

theorem bufferedEnd (h : Buffered payload ch) : ch.bufferedEnd = payload.length := by
  have hwithin := h.within
  rw [Channel.bufferedEnd, h.buffer, List.length_drop]
  omega

theorem more (h : Buffered payload ch) (data : Bytes) :
    Buffered (payload ++ data) { ch with buffer := ch.buffer ++ data } where
  buffer := by rw [List.drop_append_of_le_length h.within, ← h.buffer]
  within := by
    have hwithin := h.within
    rw [List.length_append]
    exact Nat.le_add_right_of_le hwithin

theorem credit (h : Buffered payload ch) (held : Nat) :
    Buffered payload (ch.credit held) := by
  cases hcommit : ch.commit held with
  | error e =>
      rw [Channel.credit_of_error hcommit]
      exact h
  | ok ch' =>
      rw [Channel.credit_of_commit hcommit]
      obtain ⟨hlow, hhigh, rfl⟩ := Channel.of_commit hcommit
      rw [h.bufferedEnd] at hhigh
      refine ⟨?_, hhigh⟩
      rw [h.buffer, List.drop_drop, show ch.offset + (held - ch.offset) = held by omega]

theorem told (h : Buffered payload ch) (a : Response) : Buffered payload (ch.told a) := by
  rw [Channel.told]
  split
  · exact h.credit _
  · exact h

end Buffered

end WarehouseLoader.Upload
