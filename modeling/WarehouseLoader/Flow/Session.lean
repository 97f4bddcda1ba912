import WarehouseLoader.Error
import WarehouseLoader.Flow.Unit

/-!
# Sessions

A session is the unit traffic of one processor: a queue of units that wait and
the units that were routed, in the order in which they were. A unit that was
taken out of the queue is in nobody's list until it is routed or handed back,
and one that is handed back is the next to be taken.

New units get the next id after the largest seen. Ids have 64 bits, and no unit
can be made after the one that has the last.
-/

namespace WarehouseLoader

structure Session where
  queue : List FlowUnit
  transferred : List (Relationship × FlowUnit)
  lastId : Nat

namespace Session

def empty : Session := ⟨[], [], 0⟩

instance : Inhabited Session := ⟨empty⟩

/-- Queues a new unit and gives its id. -/
def enqueue (s : Session) (content : Bytes) (attributes : Attributes) :
    Except LoadError (Nat × Session) :=
  (fitting UInt64.size (s.lastId + 1)).map fun id =>
    (id, { s with queue := s.queue ++ [.new id content attributes], lastId := id })

theorem enqueue_eq_ok_iff {s s' : Session} {content : Bytes} {attributes : Attributes}
    {id : Nat} :
    s.enqueue content attributes = .ok (id, s') ↔
      s.lastId + 1 < UInt64.size ∧ id = s.lastId + 1 ∧
        s' = ⟨s.queue ++ [.new id content attributes], s.transferred, id⟩ := by
  rw [enqueue, map_eq_ok_iff]
  constructor
  · rintro ⟨next, hnext, hnew⟩
    obtain ⟨hfits, rfl⟩ := fitting_eq_ok_iff.mp hnext
    cases hnew
    exact ⟨hfits, rfl, rfl⟩
  · rintro ⟨hfits, rfl, rfl⟩
    exact ⟨_, fitting_eq_ok_iff.mpr ⟨hfits, rfl⟩, rfl⟩

theorem enqueue_eq_error_iff {s : Session} {content : Bytes} {attributes : Attributes}
    {e : LoadError} :
    s.enqueue content attributes = .error e ↔
      UInt64.size ≤ s.lastId + 1 ∧ .overflow = e := by
  rw [enqueue, map_eq_error_iff, fitting_eq_error_iff]

/-- Queues a unit that has an id. -/
def push (s : Session) (u : FlowUnit) : Session :=
  { s with queue := s.queue ++ [u], lastId := max s.lastId u.id }

def pending (s : Session) : Nat := s.queue.length

/-- Takes the next unit out of the queue. -/
def take? (s : Session) : Option (FlowUnit × Session) :=
  match s.queue with
  | [] => none
  | u :: rest => some (u, { s with queue := rest })

def transfer (s : Session) (u : FlowUnit) (route : Relationship) : Session :=
  { s with transferred := s.transferred ++ [(route, u)] }

/-- Hands a unit back as the next one. -/
def rollback (s : Session) (u : FlowUnit) : Session :=
  { s with queue := u :: s.queue }

/-- Takes all routed units. -/
def takeTransferred (s : Session) : List (Relationship × FlowUnit) × Session :=
  (s.transferred, { s with transferred := [] })

def routedTo (s : Session) (route : Relationship) : List FlowUnit :=
  (s.transferred.filter (·.1 == route)).map (·.2)

end Session

end WarehouseLoader
