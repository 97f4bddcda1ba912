import WarehouseLoader.Http.Deadline
import WarehouseLoader.Proofs.Http.Log

/-!
# Records under a deadline

A deadline keeps exchanges from being made, and cuts others short. It goes by
the clock alone, so a deadline over a recorded run is a recorded run over the
deadline, and whatever is exchanged under it is written down as it ended
(`exchangeBefore_open`). An exchange that the deadline keeps from being made is
not on the record, and brings no answer.
-/

namespace WarehouseLoader.Http.Transport

variable {σ τ : Type} {U : Transport τ} {T : Transport σ} {view : τ → σ}
  {record : τ → List (Entry σ)}

/-- How long an exchange may take when `remaining` milliseconds are left. -/
def allowance (remaining : Nat) (timeout : Option Nat) : Nat :=
  if timeout.all (remaining < ·) then remaining else timeout.getD remaining

/-- Whether the deadline has passed when an exchange ends. -/
def passedBy (deadline : Int) (remaining : Nat) (timeout : Option Nat) (now : Int) :
    Exchange → Bool
  | .timedOut => timeout.all (remaining < ·)
  | .answered _ | .refused | .broken => deadline < now

/-- Before the deadline an exchange is made, and ends as it does. -/
theorem exchangeBefore_open (T : Transport σ) (deadline : Int) (wire : WireRequest)
    (timeout : Option Nat) (w : σ) :
    let remaining := (deadline - T.now w).toNat
    let x := T.exchange wire (some (allowance remaining timeout)) w
    T.exchangeBefore deadline wire timeout (w, false) =
      (x.1, (x.2, passedBy deadline remaining timeout (T.now x.2) x.1)) := by
  intro remaining x
  have hx : T.exchange wire (some (if timeout.all (remaining < ·) then remaining
      else timeout.getD remaining)) w = x := rfl
  rw [exchangeBefore, hx]
  cases x with
  | mk outcome w' => cases outcome <;> rfl

theorem before_over (h : U.Over T view) (deadline : Int) :
    (U.before deadline).Over (T.before deadline) fun w => (view w.1, w.2) where
  exchange wire timeout w := by
    obtain ⟨w, passed⟩ := w
    cases passed with
    | true => rfl
    | false => simp only [before, exchangeBefore_open, h.now, h.exchange]
  pause milliseconds w := by
    obtain ⟨w, passed⟩ := w
    cases passed with
    | true => rfl
    | false =>
        simp only [before, pauseBefore, h.now, h.pause]
        split <;> rfl
  now w := h.now w.1
  log level text w := by
    obtain ⟨w, passed⟩ := w
    cases passed with
    | true => rfl
    | false => simp only [before, Bool.false_eq_true, if_false, h.log]
  newJobId w := by simp only [before, h.newJobId]
  sign := h.sign
  halt w := by simp only [before, h.halt]
  isOver w := by simp only [before, h.isOver]

theorem before_logs (h : Logs U record) (deadline : Int) :
    Logs (U.before deadline) fun w => record w.1 where
  pause milliseconds w := by
    obtain ⟨w, passed⟩ := w
    cases passed with
    | true => rfl
    | false =>
        simp only [before, pauseBefore]
        split <;> exact h.pause _ _
  log level text w := by
    obtain ⟨w, passed⟩ := w
    cases passed with
    | true => rfl
    | false => exact h.log _ _ _
  halt w := h.halt w.1
  newJobId w := h.newJobId w.1
  exchange wire timeout w := by
    obtain ⟨w, passed⟩ := w
    cases passed with
    | true => exact .inl ⟨rfl, rfl⟩
    | false =>
        simp only [before, exchangeBefore_open]
        exact h.exchange wire _ w

end WarehouseLoader.Http.Transport
