import Mathlib.Data.List.Basic
import Mathlib.Tactic.Common

/-! A pool of tasks that share a world. A task is the list of the commands that it has still
to carry out; carrying one out may put others in its place. -/
namespace Library

structure TaskPool (σ α : Type*) where
  world : σ
  tasks : List (List α)

namespace TaskPool

variable {σ α : Type*}

def Pending (p : TaskPool σ α) (command : α) : Prop := ∃ task ∈ p.tasks, command ∈ task

instance [DecidableEq α] (p : TaskPool σ α) (command : α) : Decidable (p.Pending command) :=
  inferInstanceAs (Decidable (∃ task ∈ p.tasks, command ∈ task))

def spawn (p : TaskPool σ α) (world : σ) (task : List α) : TaskPool σ α where
  world := world
  tasks := p.tasks ++ [task]

/-- Task `n` carries out its next command. -/
def run (execute : σ → α → Option (σ × List α)) (p : TaskPool σ α) (n : ℕ) :
    Option (TaskPool σ α) :=
  match p.tasks[n]? with
  | some (command :: rest) =>
    (execute p.world command).map fun result =>
      { world := result.1, tasks := p.tasks.set n (result.2 ++ rest) }
  | _ => none

theorem Pending.spawn {p : TaskPool σ α} {command : α} (h : p.Pending command) (world : σ)
    (task : List α) : (p.spawn world task).Pending command := by
  obtain ⟨t,ht,hc⟩ := h
  exact ⟨t,List.mem_append_left _ ht,hc⟩

theorem pending_spawn_of_mem (p : TaskPool σ α) (world : σ) {task : List α} {command : α}
    (h : command ∈ task) : (p.spawn world task).Pending command :=
  ⟨task,by simp [TaskPool.spawn],h⟩

/-- What one run of a task does: the next command is carried out, and no other command of
the pool is lost. -/
theorem run_spec {execute : σ → α → Option (σ × List α)} {p p' : TaskPool σ α} {n : ℕ}
    (h : p.run execute n = some p') : ∃ command more,
      p.tasks[n]?.bind List.head? = some command ∧ execute p.world command = some (p'.world,more) ∧
      (∀ other, p.Pending other → other ≠ command → p'.Pending other) ∧
      (∀ other ∈ more, p'.Pending other) ∧
      ∀ other, p'.Pending other → p.Pending other ∨ other ∈ more := by
  unfold run at h
  split at h
  · rename_i command rest hn
    obtain ⟨⟨world,more⟩,hexec,rfl⟩ := Option.map_eq_some_iff.mp h
    have hlt : n < p.tasks.length := (List.getElem?_eq_some_iff.mp hn).1
    have hnth : p.tasks[n] = command :: rest := (List.getElem?_eq_some_iff.mp hn).2
    have htask : command :: rest ∈ p.tasks := List.mem_of_getElem? hn
    have hnew : more ++ rest ∈ p.tasks.set n (more ++ rest) := List.mem_set hlt _
    refine ⟨command,more,by rw [hn]; rfl,hexec,?_,?_,?_⟩
    · rintro other ⟨task,hmem,hother⟩ hne
      by_cases hsame : task = command :: rest
      · subst hsame
        refine ⟨_,hnew,List.mem_append_right _ ?_⟩
        exact (List.mem_cons.mp hother).resolve_left hne
      · -- A task other than the one that ran is still there.
        obtain ⟨m,hm,rfl⟩ := List.mem_iff_getElem.mp hmem
        have hmn : n ≠ m := by
          rintro rfl
          exact hsame hnth
        have hlen : m < (p.tasks.set n (more ++ rest)).length := by simpa using hm
        refine ⟨(p.tasks.set n (more ++ rest))[m],List.getElem_mem hlen,?_⟩
        rw [List.getElem_set_ne hmn]
        exact hother
    · intro other hother
      exact ⟨_,hnew,List.mem_append_left _ hother⟩
    · rintro other ⟨task,hmem,hother⟩
      rcases List.mem_or_eq_of_mem_set hmem with hmem | rfl
      · exact Or.inl ⟨task,hmem,hother⟩
      · rcases List.mem_append.mp hother with hother | hother
        · exact Or.inr hother
        · exact Or.inl ⟨_,htask,List.mem_cons_of_mem _ hother⟩
  · cases h

section Drain

variable {execute : σ → α → Option (σ × List α)}

/-- Carry out a whole task with nobody in between; `none` when it takes more commands than
there is fuel for. -/
def drain (execute : σ → α → Option (σ × List α)) : ℕ → σ → List α → Option σ
  | _,world,[] => some world
  | 0,_,_ :: _ => none
  | fuel+1,world,command :: rest =>
    (execute world command).bind fun result => drain execute fuel result.1 (result.2 ++ rest)

@[simp] theorem drain_nil (fuel : ℕ) (world : σ) : drain execute fuel world [] = some world := by
  cases fuel <;> rfl

theorem drain_succ (fuel : ℕ) (world : σ) (command : α) (rest : List α) :
    drain execute (fuel+1) world (command :: rest) =
      (execute world command).bind fun result =>
        drain execute fuel result.1 (result.2 ++ rest) := rfl

theorem drain_mono {fuel fuel' : ℕ} {world world' : σ} {task : List α} (hle : fuel ≤ fuel')
    (h : drain execute fuel world task = some world') :
    drain execute fuel' world task = some world' := by
  induction fuel generalizing fuel' world task with
  | zero =>
    cases task with
    | nil => simpa using h
    | cons command rest => cases h
  | succ fuel ih =>
    cases task with
    | nil => simpa using h
    | cons command rest =>
      obtain ⟨more,rfl⟩ : ∃ more, fuel' = more+1 := ⟨fuel'-1,by omega⟩
      rw [drain_succ] at h ⊢
      obtain ⟨result,hexec,hrest⟩ := Option.bind_eq_some_iff.mp h
      exact Option.bind_eq_some_iff.mpr ⟨result,hexec,ih (by omega) hrest⟩

/-- Two tasks, one after the other. -/
theorem drain_append {fuel fuel' : ℕ} {world middle world' : σ} {task task' : List α}
    (h : drain execute fuel world task = some middle)
    (h' : drain execute fuel' middle task' = some world') :
    drain execute (fuel+fuel') world (task ++ task') = some world' := by
  induction fuel generalizing world task with
  | zero =>
    cases task with
    | nil =>
      obtain rfl : world = middle := by simpa using h
      exact drain_mono (by omega) h'
    | cons command rest => cases h
  | succ fuel ih =>
    cases task with
    | nil =>
      obtain rfl : world = middle := by simpa using h
      exact drain_mono (by omega) h'
    | cons command rest =>
      rw [drain_succ] at h
      obtain ⟨result,hexec,hrest⟩ := Option.bind_eq_some_iff.mp h
      have hall := ih hrest
      rw [List.append_assoc] at hall
      rw [show fuel+1+fuel' = fuel+fuel'+1 by omega,List.cons_append,drain_succ,hexec]
      exact hall

theorem drain_append_inv {fuel : ℕ} {world world' : σ} {task task' : List α}
    (h : drain execute fuel world (task ++ task') = some world') :
    ∃ middle, drain execute fuel world task = some middle ∧
      drain execute fuel middle task' = some world' := by
  induction fuel generalizing world task with
  | zero =>
    cases task with
    | nil => exact ⟨world,drain_nil 0 world,h⟩
    | cons command rest => cases h
  | succ fuel ih =>
    cases task with
    | nil => exact ⟨world,drain_nil _ world,h⟩
    | cons command rest =>
      rw [List.cons_append,drain_succ] at h
      obtain ⟨result,hexec,hrest⟩ := Option.bind_eq_some_iff.mp h
      rw [← List.append_assoc] at hrest
      obtain ⟨middle,hfirst,hsecond⟩ := ih hrest
      refine ⟨middle,?_,drain_mono (by omega) hsecond⟩
      rw [drain_succ,hexec]
      exact hfirst

end Drain

end TaskPool
end Library
