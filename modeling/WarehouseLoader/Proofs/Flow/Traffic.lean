import WarehouseLoader.Flow.Session

/-!
# The traffic of a session

A unit is in the queue of its session, with somebody who holds it, among the
units that were routed, or it was taken from there. A run of calls moves units
between these places and makes none and loses none (`units_perm`). The one thing
that happens to a unit besides is that its holder changes it, by penalizing it
or in any other way, and then the changed unit is in the place of the other.

Nothing of this needs the units to differ. Two of them may have one id and one
content, so they are counted and not looked up.

What a session gives next is said of the calls alone. Units that were handed
back and not obtained again come first, the last one of them before the others,
and then those that nobody ever obtained, in the order in which they came
(`queue_eq`). It keeps the largest id that came by (`lastId_le_iff`). So its new
ids are above all others, and it has one until it has seen the last of 64 bits.
-/

namespace WarehouseLoader

/-- The unit without its mark. -/
def FlowUnit.unmarked (u : FlowUnit) : FlowUnit := { u with penalized := false }

namespace Session

/-! ### Calls -/

/-- What is done with a session and its units, and what came of it. -/
inductive Call where
  | enqueue (content : Bytes) (attributes : Attributes) (id : Nat)
  | push (u : FlowUnit)
  | get (outcome : Option FlowUnit)
  | penalize (u : FlowUnit)
  /-- No call of the session: the holder of the first unit makes the second of it,
  as a processor does that writes attributes. -/
  | change (u v : FlowUnit)
  | rollback (u : FlowUnit)
  | transfer (u : FlowUnit) (route : Relationship)
  | takeTransferred (routed : List (Relationship × FlowUnit))

namespace Call

/-- The units that come in by a call. -/
def entering : Call → List FlowUnit
  | enqueue content attributes id => [.new id content attributes]
  | push u => [u]
  | _ => []

/-- The units that a call takes away for good. -/
def leaving : Call → List FlowUnit
  | takeTransferred routed => routed.map (·.2)
  | _ => []

/-- A unit that was held, and the one that is held in its place. -/
def exchange : Call → List (FlowUnit × FlowUnit)
  | penalize u => [(u, u.penalize)]
  | change u v => [(u, v)]
  | _ => []

end Call

/-- A session, and the units that were obtained from it and not handed back. -/
structure Traffic where
  session : Session
  held : List FlowUnit

/-- One call. Only a unit that is held can be penalized, changed, handed back or
routed, and when it is handed back or routed it is held no more. -/
inductive Step : Traffic → Call → Traffic → Prop
  | enqueue {s content attributes id s'} (held)
      (hnew : s.enqueue content attributes = .ok (id, s')) :
      Step ⟨s, held⟩ (.enqueue content attributes id) ⟨s', held⟩
  | push (s held u) : Step ⟨s, held⟩ (.push u) ⟨s.push u, held⟩
  | idle {s held} (hnone : s.take? = none) : Step ⟨s, held⟩ (.get none) ⟨s, held⟩
  | get {s held u s'} (hsome : s.take? = some (u, s')) :
      Step ⟨s, held⟩ (.get (some u)) ⟨s', u :: held⟩
  | penalize {s held u} (hheld : u ∈ held) :
      Step ⟨s, held⟩ (.penalize u) ⟨s, u.penalize :: held.erase u⟩
  | change {s held u} (v) (hheld : u ∈ held) :
      Step ⟨s, held⟩ (.change u v) ⟨s, v :: held.erase u⟩
  | rollback {s held u} (hheld : u ∈ held) :
      Step ⟨s, held⟩ (.rollback u) ⟨s.rollback u, held.erase u⟩
  | transfer {s held u} (route) (hheld : u ∈ held) :
      Step ⟨s, held⟩ (.transfer u route) ⟨s.transfer u route, held.erase u⟩
  | takeTransferred (s held) :
      Step ⟨s, held⟩ (.takeTransferred s.takeTransferred.1) ⟨s.takeTransferred.2, held⟩

/-- Calls from an empty session on, the last call first. -/
inductive Run : List Call → Traffic → Prop
  | start : Run [] ⟨.empty, []⟩
  | next {calls t call t'} (hrun : Run calls t) (hstep : Step t call t') :
      Run (call :: calls) t'

variable {calls earlier : List Call} {call : Call} {t t' : Traffic} {s s' : Session}
  {held : List FlowUnit} {u : FlowUnit}

/-- Calls that a run goes through are a run. -/
theorem Run.of_suffix (h : Run calls t) (hsuffix : earlier <:+ calls) :
    ∃ t, Run earlier t := by
  induction h with
  | start =>
      rw [List.suffix_nil.mp hsuffix]
      exact ⟨_, .start⟩
  | next hrun hstep ih =>
      obtain heq | hbefore := List.suffix_cons_iff.mp hsuffix
      · rw [heq]
        exact ⟨_, .next hrun hstep⟩
      · exact ih hbefore

theorem take?_eq_none_iff : s.take? = none ↔ s.queue = [] := by
  rw [take?]
  cases s.queue <;> simp

theorem take?_eq_some_iff :
    s.take? = some (u, s') ↔
      s.queue = u :: s'.queue ∧ s' = { s with queue := s'.queue } := by
  rw [take?]
  cases s.queue with
  | nil => simp
  | cons v rest =>
      simp only [Option.some.injEq, Prod.mk.injEq, List.cons.injEq]
      constructor
      · intro ⟨hu, hs⟩
        subst hu hs
        exact ⟨⟨rfl, rfl⟩, rfl⟩
      · intro ⟨⟨hu, hrest⟩, hs⟩
        rw [hu, hrest, ← hs]
        exact ⟨rfl, rfl⟩

/-! ### Where the units are -/

/-- The units that are in the session or held. -/
def Traffic.units (t : Traffic) : List FlowUnit :=
  t.session.queue ++ t.held ++ t.session.transferred.map (·.2)

def entered (calls : List Call) : List FlowUnit := calls.flatMap Call.entering

def taken (calls : List Call) : List FlowUnit := calls.flatMap Call.leaving

def exchanges (calls : List Call) : List (FlowUnit × FlowUnit) :=
  calls.flatMap Call.exchange

theorem count_of_held (hheld : u ∈ held) (v : FlowUnit) :
    held.count v = (held.erase u).count v + if u == v then 1 else 0 := by
  rw [(List.perm_cons_erase hheld).count_eq v, List.count_cons]

-- Counted for one unit at a time. The lists are a sum then, and what a call moves
-- between them stays in it.
theorem Step.units_perm (h : Step t call t') :
    (t'.units ++ call.leaving ++ call.exchange.map Prod.fst).Perm
      (t.units ++ call.entering ++ call.exchange.map Prod.snd) := by
  rw [List.perm_iff_count]
  intro v
  cases h with
  | enqueue held hnew =>
      obtain ⟨-, -, rfl⟩ := enqueue_eq_ok_iff.mp hnew
      simp only [Traffic.units, Call.leaving, Call.exchange, Call.entering,
        List.count_append, List.map_nil, List.count_nil]
      omega
  | push s held u =>
      simp only [Traffic.units, Session.push, Call.leaving, Call.exchange, Call.entering,
        List.count_append, List.map_nil, List.count_nil]
      omega
  | idle hnone => exact rfl
  | get hsome =>
      obtain ⟨hqueue, hrest⟩ := take?_eq_some_iff.mp hsome
      rw [hrest]
      simp only [Traffic.units, Call.leaving, Call.exchange, Call.entering, hqueue,
        List.count_append, List.count_cons, List.map_nil, List.count_nil]
      omega
  | penalize hheld | change made hheld =>
      have hcount := count_of_held hheld v
      simp only [Traffic.units, Call.leaving, Call.exchange, Call.entering,
        List.count_append, List.count_cons, List.map_cons, List.map_nil, List.count_nil]
      omega
  | rollback hheld =>
      have hcount := count_of_held hheld v
      simp only [Traffic.units, Session.rollback, Call.leaving, Call.exchange,
        Call.entering, List.count_append, List.count_cons, List.map_nil, List.count_nil]
      omega
  | transfer route hheld =>
      have hcount := count_of_held hheld v
      simp only [Traffic.units, Session.transfer, Call.leaving, Call.exchange,
        Call.entering, List.count_append, List.count_cons, List.map_append, List.map_cons,
        List.map_nil, List.count_nil]
      omega
  | takeTransferred s held =>
      simp only [Traffic.units, Session.takeTransferred, Call.leaving, Call.exchange,
        Call.entering, List.count_append, List.map_nil, List.count_nil]
      omega

theorem Run.units_perm (h : Run calls t) :
    (t.units ++ taken calls ++ (exchanges calls).map Prod.fst).Perm
      (entered calls ++ (exchanges calls).map Prod.snd) := by
  induction h with
  | start => exact .refl _
  | next hrun hstep ih =>
      rw [List.perm_iff_count] at ih ⊢
      intro v
      have hbefore := ih v
      have hcall := List.perm_iff_count.mp hstep.units_perm v
      simp only [List.count_append] at hbefore hcall
      simp only [taken, entered, exchanges, List.flatMap_cons, List.map_append,
        List.count_append] at hbefore ⊢
      omega

/-- What no holder changes of a unit is there as it came in. -/
theorem Run.map_units_perm {α : Type} (h : Run calls t) (key : FlowUnit → α)
    (hkey : ∀ e ∈ exchanges calls, key e.1 = key e.2) :
    ((t.units ++ taken calls).map key).Perm ((entered calls).map key) := by
  have hkept : ((exchanges calls).map Prod.fst).map key =
      ((exchanges calls).map Prod.snd).map key := by
    rw [List.map_map, List.map_map]
    exact List.map_congr_left hkey
  have hall := h.units_perm.map key
  simp only [List.map_append, hkept] at hall ⊢
  exact (List.perm_append_right_iff _).mp hall

theorem unmarked_of_mem_exchanges (hnone : ∀ u v, .change u v ∉ calls) :
    ∀ e ∈ exchanges calls, e.1.unmarked = e.2.unmarked := by
  intro e he
  obtain ⟨call, hmem, he⟩ := List.mem_flatMap.mp he
  cases call with
  | penalize u =>
      rw [List.mem_singleton.mp he]
      rfl
  | change u v => exact absurd hmem (hnone u v)
  | _ => cases he

/-! ### What comes next -/

/-- The units that were handed back and not obtained since, the last one first. -/
def handedBack : List Call → List FlowUnit
  | [] => []
  | .rollback u :: earlier => u :: handedBack earlier
  | .get (some u) :: earlier => (handedBack earlier).erase u
  | _ :: earlier => handedBack earlier

/-- The units that were never obtained, the oldest first. -/
def neverObtained : List Call → List FlowUnit
  | [] => []
  | .enqueue content attributes id :: earlier =>
    neverObtained earlier ++ [.new id content attributes]
  | .push u :: earlier => neverObtained earlier ++ [u]
  | .get (some u) :: earlier =>
    if u ∈ handedBack earlier then neverObtained earlier
    else (neverObtained earlier).erase u
  | _ :: earlier => neverObtained earlier

-- Taking a unit out of two lists comes to taking the front of both one after the
-- other, because what is obtained is the front.
theorem Run.queue_eq (h : Run calls t) :
    t.session.queue = handedBack calls ++ neverObtained calls := by
  induction h with
  | start => rfl
  | @next calls t call t' hrun hstep ih =>
      cases hstep with
      | enqueue held hnew =>
          obtain ⟨-, -, rfl⟩ := enqueue_eq_ok_iff.mp hnew
          show _ ++ [_] = handedBack calls ++ (neverObtained calls ++ [_])
          rw [← List.append_assoc, ← ih]
      | push s held u =>
          show s.queue ++ [u] = handedBack calls ++ (neverObtained calls ++ [u])
          rw [← List.append_assoc, ← ih]
      | @get s held u s' hsome =>
          obtain ⟨hqueue, -⟩ := take?_eq_some_iff.mp hsome
          rw [ih] at hqueue
          show s'.queue = (handedBack calls).erase u ++
            if u ∈ handedBack calls then neverObtained calls
            else (neverObtained calls).erase u
          cases hback : handedBack calls with
          | nil =>
              rw [hback, List.nil_append] at hqueue
              rw [hqueue, if_neg List.not_mem_nil, List.erase_cons_head]
              rfl
          | cons v back =>
              rw [hback, List.cons_append, List.cons.injEq] at hqueue
              obtain ⟨rfl, hrest⟩ := hqueue
              rw [if_pos List.mem_cons_self, List.erase_cons_head, hrest]
      | @rollback s held u hheld =>
          show u :: s.queue = u :: (handedBack calls ++ neverObtained calls)
          rw [← ih]
      | _ => exact ih

theorem Step.outcome_eq {outcome : Option FlowUnit} (h : Step t (.get outcome) t') :
    outcome = t.session.queue.head? := by
  cases h with
  | idle hnone => rw [take?_eq_none_iff.mp hnone, List.head?_nil]
  | get hsome => rw [(take?_eq_some_iff.mp hsome).1, List.head?_cons]

/-! ### Ids -/

theorem Step.lastId_le_iff (h : Step t call t') (n : Nat) :
    t'.session.lastId ≤ n ↔ t.session.lastId ≤ n ∧ ∀ u ∈ call.entering, u.id ≤ n := by
  cases h with
  | enqueue held hnew =>
      obtain ⟨-, rfl, rfl⟩ := enqueue_eq_ok_iff.mp hnew
      simp only [Call.entering, List.mem_singleton, forall_eq]
      exact ⟨fun hle => ⟨Nat.le_of_succ_le hle, hle⟩, And.right⟩
  | push s held u =>
      simp only [Call.entering, List.mem_singleton, forall_eq]
      exact Nat.max_le
  | get hsome =>
      obtain ⟨-, hrest⟩ := take?_eq_some_iff.mp hsome
      rw [hrest]
      simp only [Call.entering, List.not_mem_nil, false_implies, implies_true, and_true]
  | _ => exact (and_iff_left fun u hu => by cases hu).symm

theorem Run.lastId_le_iff (h : Run calls t) (n : Nat) :
    t.session.lastId ≤ n ↔ ∀ u ∈ entered calls, u.id ≤ n := by
  induction h with
  | start => exact ⟨fun _ u hu => absurd hu List.not_mem_nil, fun _ => Nat.zero_le n⟩
  | next hrun hstep ih =>
      rw [hstep.lastId_le_iff, ih, and_comm, ← List.forall_mem_append]
      rfl

/-! ### Runs -/

/-- What a run does with units and ids. -/
structure Accounts (calls : List Call) (t : Traffic) : Prop where
  /-- Each unit that came in is in one place, as it came in or as its holders
  made it, and there are no others. -/
  balanced : (t.units ++ taken calls ++ (exchanges calls).map Prod.fst).Perm
    (entered calls ++ (exchanges calls).map Prod.snd)
  /-- If no holder changes a unit but by penalizing it, all of it but the mark is
  as it came in. -/
  unmarked : (∀ u v, .change u v ∉ calls) →
    ((t.units ++ taken calls).map FlowUnit.unmarked).Perm
      ((entered calls).map FlowUnit.unmarked)
  /-- The next unit is the last one that was handed back, if one of those waits,
  and otherwise the oldest; there is none only if none waits. -/
  served : ∀ outcome earlier, (.get outcome :: earlier) <:+ calls →
    outcome = (handedBack earlier).head?.or (neverObtained earlier).head?
  /-- A new id is above all that came by before. -/
  issued : ∀ content attributes id earlier,
    (.enqueue content attributes id :: earlier) <:+ calls →
    ∀ u ∈ entered earlier, u.id < id
  /-- There is a new id as long as none that came by is the last one. -/
  issues : ∀ content attributes,
    (∃ id s, t.session.enqueue content attributes = .ok (id, s)) ↔
      ∀ u ∈ entered calls, u.id < UInt64.size - 1

theorem Run.served {outcome : Option FlowUnit} (h : Run (.get outcome :: earlier) t) :
    outcome = (handedBack earlier).head?.or (neverObtained earlier).head? := by
  cases h with
  | next hrun hstep => rw [hstep.outcome_eq, hrun.queue_eq, List.head?_append]

theorem Run.issued {content : Bytes} {attributes : Attributes} {id : Nat}
    (h : Run (.enqueue content attributes id :: earlier) t) :
    ∀ u ∈ entered earlier, u.id < id := by
  cases h with
  | next hrun hstep =>
      cases hstep with
      | enqueue held hnew =>
          obtain ⟨-, rfl, -⟩ := enqueue_eq_ok_iff.mp hnew
          have hle := (hrun.lastId_le_iff _).mp (Nat.le_refl _)
          exact fun u hu => Nat.lt_succ_of_le (hle u hu)

theorem Run.issues (h : Run calls t) (content : Bytes) (attributes : Attributes) :
    (∃ id s, t.session.enqueue content attributes = .ok (id, s)) ↔
      ∀ u ∈ entered calls, u.id < UInt64.size - 1 := by
  have hfits : (∃ id s, t.session.enqueue content attributes = .ok (id, s)) ↔
      t.session.lastId ≤ UInt64.size - 2 := by
    simp only [enqueue_eq_ok_iff, exists_and_left, exists_eq, and_true, UInt64.size]
    omega
  rw [hfits, h.lastId_le_iff]
  exact forall₂_congr fun u _ => Nat.lt_succ_iff.symm

/-- However enqueueing, pushing, obtaining, penalizing, handing back, routing and
taking routed units follow one another, and whatever the holders of units make
of them: no unit is lost and none is there twice, handed back units come first
and the others in their order, and new ids are new, of which there are as many
as 64 bits have room for. -/
theorem run_accounts (h : Run calls t) : Accounts calls t where
  balanced := h.units_perm
  unmarked hnone := h.map_units_perm _ (unmarked_of_mem_exchanges hnone)
  served _ _ hsuffix := by
    obtain ⟨_, hrun⟩ := h.of_suffix hsuffix
    exact hrun.served
  issued _ _ _ _ hsuffix := by
    obtain ⟨_, hrun⟩ := h.of_suffix hsuffix
    exact hrun.issued
  issues := h.issues

/-- A unit that another session gave its id. -/
def returning : FlowUnit := .new 7 [120] .empty

def following : FlowUnit := .new 8 [121] .empty

def returningCalls : List Call :=
  [.takeTransferred [(.failure, returning.penalize)], .get (some following),
    .transfer returning.penalize .failure, .penalize returning, .get (some returning),
    .rollback returning, .get (some returning), .enqueue [121] .empty 8, .push returning]

/-- The unit that came in first is obtained twice before the other, for it was
handed back in between. -/
theorem run_accounts_of_returning :
    Run returningCalls ⟨⟨[], [], 8⟩, [following]⟩ ∧
      Accounts returningCalls ⟨⟨[], [], 8⟩, [following]⟩ := by
  have hpush : Run _ ⟨⟨[returning], [], 7⟩, []⟩ := .next .start (.push _ _ _)
  have henqueue : Run _ ⟨⟨[returning, following], [], 8⟩, []⟩ :=
    hpush.next (.enqueue _ rfl)
  have hget : Run _ ⟨⟨[following], [], 8⟩, [returning]⟩ := henqueue.next (.get rfl)
  have hrollback : Run _ ⟨⟨[returning, following], [], 8⟩, []⟩ :=
    hget.next (.rollback List.mem_cons_self)
  have hagain : Run _ ⟨⟨[following], [], 8⟩, [returning]⟩ := hrollback.next (.get rfl)
  have hpenalize : Run _ ⟨⟨[following], [], 8⟩, [returning.penalize]⟩ :=
    hagain.next (.penalize List.mem_cons_self)
  have htransfer : Run _ ⟨⟨[following], [(.failure, returning.penalize)], 8⟩, []⟩ :=
    hpenalize.next (.transfer .failure List.mem_cons_self)
  have hlast : Run _ ⟨⟨[], [(.failure, returning.penalize)], 8⟩, [following]⟩ :=
    htransfer.next (.get rfl)
  have hrun : Run returningCalls ⟨⟨[], [], 8⟩, [following]⟩ :=
    hlast.next (.takeTransferred _ _)
  exact ⟨hrun, run_accounts hrun⟩

end Session

end WarehouseLoader
