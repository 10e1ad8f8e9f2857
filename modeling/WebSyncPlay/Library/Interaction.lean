import Mathlib

/-! Programs that ask their environment, and what can be said of every question that they ask: it is
allowed by the questions and answers before it. -/
namespace Library

/-- A program: a result, or a question and what follows each answer. -/
inductive Interaction (E : Type*) (R : E → Type*) (α : Type*)
  | done (result : α)
  | ask (question : E) (next : R question → Interaction E R α)

namespace Interaction

universe u

variable {E : Type*} {R : E → Type*} {α β : Type*}

def bind (p : Interaction E R α) (f : α → Interaction E R β) : Interaction E R β :=
  match p with
  | .done a => f a
  | .ask e k => .ask e fun r => (k r).bind f

instance : Monad (Interaction E R) where
  pure := .done
  bind := bind

def call (e : E) : Interaction E R (R e) := .ask e .done

/-- Questions with their answers, the newest first. -/
abbrev Log (E : Type*) (R : E → Type*) := List (Sigma R)

def play (env : Log E R → (e : E) → R e) : Interaction E R α → Log E R → Log E R × α
  | .done a,log => (log,a)
  | .ask e k,log => (k (env log e)).play env (⟨e,env log e⟩ :: log)

/-- Whatever the answers are, each question is allowed when it is asked and the result is right. -/
def Allows (ok : Log E R → E → Prop) (post : Log E R → α → Prop) :
    Interaction E R α → Log E R → Prop
  | .done a,log => post log a
  | .ask e k,log => ok log e ∧ ∀ r, (k r).Allows ok post (⟨e,r⟩ :: log)

variable {ok : Log E R → E → Prop} {mid post : Log E R → α → Prop} {log : Log E R}

@[simp] theorem allows_done {a : α} : (done a : Interaction E R α).Allows ok post log ↔ post log a :=
  Iff.rfl

@[simp] theorem allows_pure {a : α} : (pure a : Interaction E R α).Allows ok post log ↔ post log a :=
  Iff.rfl

theorem Allows.bind {p : Interaction E R α} {f : α → Interaction E R β}
    {post : Log E R → β → Prop} (h : p.Allows ok mid log)
    (hf : ∀ log a, mid log a → (f a).Allows ok post log) : (p.bind f).Allows ok post log := by
  induction p generalizing log with
  | done a => exact hf log a h
  | ask e k ih => exact ⟨h.1,fun r => ih r (h.2 r)⟩

/-- The rule for sequences in `do` notation. -/
theorem Allows.seq {α β : Type u} {p : Interaction E R α} {f : α → Interaction E R β}
    {mid : Log E R → α → Prop} {post : Log E R → β → Prop} (h : p.Allows ok mid log)
    (hf : ∀ log a, mid log a → (f a).Allows ok post log) : (p >>= f).Allows ok post log :=
  h.bind hf

def Logged (ok : Log E R → E → Prop) : Log E R → Prop
  | [] => True
  | ⟨e,_⟩ :: older => ok older e ∧ Logged ok older

theorem Logged.of_split {newer older : Log E R} {e : E} {r : R e}
    (h : Logged ok (newer ++ ⟨e,r⟩ :: older)) : ok older e := by
  induction newer with
  | nil => exact h.1
  | cons asked newer ih => exact ih h.2

/-- A run keeps to what its program allows. -/
theorem Allows.play {p : Interaction E R α} (h : p.Allows ok post log) (hlog : Logged ok log)
    (env : Log E R → (e : E) → R e) :
    Logged ok (p.play env log).1 ∧ post (p.play env log).1 (p.play env log).2 := by
  induction p generalizing log with
  | done a => exact ⟨hlog,h⟩
  | ask e k ih => exact ih (env log e) (h.2 (env log e)) ⟨h.1,hlog⟩

end Interaction

end Library
