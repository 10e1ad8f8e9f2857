import Mathlib.Logic.Function.Basic
import Mathlib.Data.List.Basic
import Mathlib.Order.Lattice
import Mathlib.Order.Nat

/-! A key-value store with optimistic transactions. A connection marks keys; its next
transaction goes through unless a marked key was written since it was marked. -/
namespace Library

/-- The version of a key counts its writes; a mark holds the version that it saw. -/
structure WatchedStore (π κ α : Type*) where
  value : κ → Option α
  version : κ → ℕ
  marks : π → List (κ × ℕ)

namespace WatchedStore

variable {π κ α : Type*}

def start (value : κ → Option α) : WatchedStore π κ α := ⟨value,fun _ => 0,fun _ => []⟩

/-- A key that the connection marked was written since. -/
def conflict (s : WatchedStore π κ α) (p : π) : Bool :=
  (s.marks p).any fun m => s.version m.1 != m.2

theorem version_of_no_conflict {s : WatchedStore π κ α} {p : π} {k : κ}
    (h : s.conflict p = false) {v : ℕ} (hm : (k,v) ∈ s.marks p) : s.version k = v := by
  have hsame := List.any_eq_false.mp h _ hm
  simpa only [bne_iff_ne,ne_eq,not_not] using hsame

/-- No mark is ahead of its key. -/
def MarksSound (s : WatchedStore π κ α) : Prop := ∀ p, ∀ m ∈ s.marks p, m.2 ≤ s.version m.1

theorem marksSound_start (value : κ → Option α) :
    MarksSound (start value : WatchedStore π κ α) := by
  intro p m hm
  cases hm

variable [DecidableEq π]

/-- Every mark of the connection is dropped. -/
def unwatch (s : WatchedStore π κ α) (p : π) : WatchedStore π κ α :=
  { s with marks := Function.update s.marks p [] }

@[simp] theorem unwatch_value (s : WatchedStore π κ α) (p : π) : (s.unwatch p).value = s.value := rfl

@[simp] theorem unwatch_version (s : WatchedStore π κ α) (p : π) :
    (s.unwatch p).version = s.version := rfl

@[simp] theorem unwatch_marks (s : WatchedStore π κ α) (p : π) :
    (s.unwatch p).marks = Function.update s.marks p [] := rfl

theorem MarksSound.unwatch {s : WatchedStore π κ α} (h : MarksSound s) (p : π) :
    MarksSound (s.unwatch p) := by
  intro q m hm
  rw [unwatch_marks] at hm
  by_cases hq : q = p
  · subst hq
    rw [Function.update_self] at hm
    cases hm
  · rw [Function.update_of_ne hq] at hm
    exact h q m hm

variable [DecidableEq κ]

/-- Marking a marked key again changes nothing. -/
def watch (s : WatchedStore π κ α) (p : π) (k : κ) : WatchedStore π κ α :=
  if k ∈ (s.marks p).map Prod.fst then s
  else { s with marks := Function.update s.marks p ((k,s.version k)::s.marks p) }

/-- One write as a transaction, and whether it went through. Either way the marks of the
connection are dropped. -/
def exec (s : WatchedStore π κ α) (p : π) (k : κ) (a : α) : WatchedStore π κ α × Bool :=
  if s.conflict p then (s.unwatch p,false)
  else
    ({ s.unwatch p with
        value := Function.update s.value k (some a)
        version := Function.update s.version k (s.version k+1) },true)

section Frames

variable (s : WatchedStore π κ α) (p : π) (k : κ) (a : α)

@[simp] theorem watch_value : (s.watch p k).value = s.value := by
  unfold watch
  split <;> rfl

@[simp] theorem watch_version : (s.watch p k).version = s.version := by
  unfold watch
  split <;> rfl

@[simp] theorem exec_marks : (s.exec p k a).1.marks = Function.update s.marks p [] := by
  unfold exec
  split <;> rfl

theorem exec_of_conflict (h : s.conflict p = true) : s.exec p k a = (s.unwatch p,false) := by
  rw [exec,if_pos h]

theorem exec_of_no_conflict (h : s.conflict p = false) :
    s.exec p k a =
      ({ s.unwatch p with
          value := Function.update s.value k (some a)
          version := Function.update s.version k (s.version k+1) },true) := by
  rw [exec,if_neg (by rw [h]; exact Bool.false_ne_true)]

theorem watch_marks_other {q : π} (h : q ≠ p) : (s.watch p k).marks q = s.marks q := by
  unfold watch
  split
  · rfl
  · exact Function.update_of_ne h _ _

theorem exists_watch_mark : ∃ v, (k,v) ∈ (s.watch p k).marks p := by
  unfold watch
  split
  · rename_i hmarked
    obtain ⟨m,hm,rfl⟩ := List.mem_map.mp hmarked
    exact ⟨m.2,hm⟩
  · refine ⟨s.version k,?_⟩
    dsimp only
    rw [Function.update_self]
    exact List.mem_cons_self

end Frames

variable {s : WatchedStore π κ α} {p : π} {k : κ} {a : α}

theorem version_le_exec (j : κ) : s.version j ≤ (s.exec p k a).1.version j := by
  unfold exec
  split
  · exact le_rfl
  · by_cases hj : j = k
    · subst hj
      dsimp only
      rw [Function.update_self]
      exact Nat.le_succ _
    · dsimp only
      rw [Function.update_of_ne hj]

theorem value_of_version_exec (j : κ) (h : (s.exec p k a).1.version j = s.version j) :
    (s.exec p k a).1.value j = s.value j := by
  cases hc : s.conflict p with
  | true =>
    rw [s.exec_of_conflict p k a hc,unwatch_value]
  | false =>
    rw [s.exec_of_no_conflict p k a hc] at h ⊢
    dsimp only at h ⊢
    by_cases hj : j = k
    · subst hj
      rw [Function.update_self] at h
      omega
    · rw [Function.update_of_ne hj]

theorem MarksSound.watch (h : MarksSound s) (p : π) (k : κ) : MarksSound (s.watch p k) := by
  intro q m hm
  rw [watch_version]
  by_cases hq : q = p
  · subst hq
    unfold WatchedStore.watch at hm
    split at hm
    · exact h _ m hm
    · dsimp only at hm
      rw [Function.update_self] at hm
      rcases List.mem_cons.mp hm with rfl | hm
      · exact le_rfl
      · exact h _ m hm
  · rw [watch_marks_other _ _ _ hq] at hm
    exact h q m hm

theorem MarksSound.exec (h : MarksSound s) (p : π) (k : κ) (a : α) :
    MarksSound (s.exec p k a).1 := by
  intro q m hm
  rw [exec_marks] at hm
  have hle : m.2 ≤ s.version m.1 := h.unwatch p q m hm
  exact hle.trans (version_le_exec m.1)

end WatchedStore
end Library
