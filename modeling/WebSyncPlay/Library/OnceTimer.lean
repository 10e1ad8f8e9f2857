import Mathlib

/-! A timer that is set once for all that is marked while it runs, and the delay that each mark
waits at most. -/
namespace Library

/-- When the timer fires, if it is set. The moments of the marks that wait are kept besides. -/
structure OnceTimer where
  deadline : Option ℕ := none
  waiting : List ℕ := []
  deriving DecidableEq

namespace OnceTimer

/-- A mark sets the timer unless it is set already. -/
def schedule (t : OnceTimer) (nowMs delayMs : ℕ) : OnceTimer where
  deadline := t.deadline <|> some (nowMs+delayMs)
  waiting := t.waiting ++ [nowMs]

def serve (t : OnceTimer) : OnceTimer := { t with waiting := [] }

def clear (t : OnceTimer) : OnceTimer := { t with deadline := none }

/-- Each mark that waits does so for the delay at most. -/
structure Timely (delayMs nowMs : ℕ) (t : OnceTimer) : Prop where
  waits : ∀ moment ∈ t.waiting, ∃ d, t.deadline = some d ∧ d ≤ moment+delayMs
  near : ∀ d, t.deadline = some d → d ≤ nowMs+delayMs

variable {delayMs nowMs : ℕ} {t : OnceTimer}

theorem timely_unset : Timely delayMs nowMs {} where
  waits moment h := by simp at h
  near d h := by simp at h

theorem Timely.later (h : Timely delayMs nowMs t) {laterMs : ℕ} (hle : nowMs ≤ laterMs) :
    Timely delayMs laterMs t where
  waits := h.waits
  near d hd := (h.near d hd).trans (Nat.add_le_add_right hle delayMs)

theorem Timely.schedule (h : Timely delayMs nowMs t) :
    Timely delayMs nowMs (t.schedule nowMs delayMs) := by
  cases hd : t.deadline with
  | none =>
    have hnone : t.waiting = [] := by
      by_contra hne
      obtain ⟨moment,hmem⟩ := List.exists_mem_of_ne_nil _ hne
      obtain ⟨d,hset,-⟩ := h.waits moment hmem
      simp [hd] at hset
    constructor <;> simp [OnceTimer.schedule,hd,hnone]
  | some d =>
    constructor
    · intro moment hmem
      refine ⟨d,by simp [OnceTimer.schedule,hd],?_⟩
      rcases List.mem_append.mp hmem with hold | hnew
      · obtain ⟨d',hd',hle⟩ := h.waits moment hold
        cases hd.symm.trans hd'
        exact hle
      · rw [List.mem_singleton.mp hnew]
        exact h.near d hd
    · intro d' hd'
      have hsame : d = d' := by simpa [OnceTimer.schedule,hd] using hd'
      exact h.near d' (hsame ▸ hd)

theorem Timely.serve (h : Timely delayMs nowMs t) : Timely delayMs nowMs t.serve where
  waits moment hmem := by simp [OnceTimer.serve] at hmem
  near := h.near

theorem timely_of_waiting (h : t.waiting = []) : Timely delayMs nowMs t.clear where
  waits moment hmem := by simp [clear,h] at hmem
  near d hd := by simp [clear] at hd

end OnceTimer
end Library
