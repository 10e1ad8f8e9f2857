import Mathlib

/-! Labelled transition systems: reachable states, invariants and runs whose
steps all meet a guard. -/
namespace Library

structure TransitionSystem (σ α : Type*) where
  init : σ → Prop
  step : σ → α → σ → Prop

namespace TransitionSystem

variable {σ α : Type*}

/-- The states of the runs that start in an initial state. -/
inductive Reachable (T : TransitionSystem σ α) : σ → Prop
  | init {s : σ} (h : T.init s) : Reachable T s
  | step {s s' : σ} {a : α} (hs : Reachable T s) (h : T.step s a s') : Reachable T s'

/-- The same system, with only the steps that meet a guard on the state before
the step and its label. -/
def restrict (T : TransitionSystem σ α) (guard : σ → α → Prop) : TransitionSystem σ α where
  init := T.init
  step s a s' := guard s a ∧ T.step s a s'

/-- What holds at the start and is kept by each step holds along every run. -/
theorem Reachable.invariant {T : TransitionSystem σ α} (I : σ → Prop)
    (hinit : ∀ s, T.init s → I s)
    (hstep : ∀ s a s', Reachable T s → I s → T.step s a s' → I s')
    {s : σ} (h : Reachable T s) : I s := by
  induction h with
  | init h => exact hinit _ h
  | step hs h ih => exact hstep _ _ _ hs ih h

theorem Reachable.of_restrict {T : TransitionSystem σ α} {guard : σ → α → Prop} {s : σ}
    (h : Reachable (T.restrict guard) s) : Reachable T s := by
  induction h with
  | init h => exact .init h
  | step _ h ih => exact .step ih h.2

theorem Reachable.to_restrict {T : TransitionSystem σ α} {guard : σ → α → Prop}
    (hguard : ∀ s a, guard s a) {s : σ} (h : Reachable T s) : Reachable (T.restrict guard) s := by
  induction h with
  | init h => exact .init h
  | step _ h ih => exact .step ih ⟨hguard _ _,h⟩

/-- Take the steps of a list, one after the other, as long as each can be taken. -/
def runSteps (step : σ → α → Option σ) : σ → List α → Option σ
  | s,[] => some s
  | s,a :: as => (step s a).bind fun s' => runSteps step s' as

theorem Reachable.of_runSteps {T : TransitionSystem σ α} {step : σ → α → Option σ}
    (hstep : ∀ s a s', step s a = some s' → T.step s a s') (as : List α) {s s' : σ}
    (h : Reachable T s) (hrun : runSteps step s as = some s') : Reachable T s' := by
  induction as generalizing s with
  | nil =>
    cases hrun
    exact h
  | cons a as ih =>
    obtain ⟨t,ht,hrest⟩ := Option.bind_eq_some_iff.mp hrun
    exact ih (.step h (hstep s a t ht)) hrest

/-- The executable step of a restricted system. -/
def guardStep (step : σ → α → Option σ) (guard : σ → α → Prop) [∀ s a, Decidable (guard s a)]
    (s : σ) (a : α) : Option σ :=
  if guard s a then step s a else none

theorem Reachable.of_guardSteps {T : TransitionSystem σ α} {step : σ → α → Option σ}
    {guard : σ → α → Prop} [∀ s a, Decidable (guard s a)]
    (hstep : ∀ s a s', step s a = some s' → T.step s a s') (as : List α) {s s' : σ}
    (h : Reachable (T.restrict guard) s) (hrun : runSteps (guardStep step guard) s as = some s') :
    Reachable (T.restrict guard) s' := by
  refine .of_runSteps (fun s a s' hs => ?_) as h hrun
  rw [guardStep] at hs
  split at hs
  · rename_i hg
    exact ⟨hg,hstep s a s' hs⟩
  · cases hs

end TransitionSystem

section EachStep

variable {σ α : Type*} {step : σ → α → Option σ} {P Q : σ → α → σ → Prop}

/-- A condition on every step of a run, as long as each can be taken. -/
def EachStep (step : σ → α → Option σ) (P : σ → α → σ → Prop) : σ → List α → Prop
  | _,[] => True
  | s,a :: as => ∀ s', step s a = some s' → P s a s' ∧ EachStep step P s' as

instance EachStep.decidable [∀ s a s', Decidable (P s a s')] :
    ∀ s as, Decidable (EachStep step P s as)
  | _,[] => inferInstanceAs (Decidable True)
  | s,a :: as =>
    match hs : step s a with
    | none => isTrue fun s' h => by
        rw [hs] at h
        cases h
    | some s' =>
      have : Decidable (EachStep step P s' as) := EachStep.decidable s' as
      decidable_of_iff (P s a s' ∧ EachStep step P s' as) ⟨fun h t ht => by
        obtain rfl : s' = t := Option.some.inj (hs.symm.trans ht)
        exact h,fun h => h s' hs⟩

/-- Two conditions that agree wherever an invariant holds, and one of which keeps it,
hold of the same runs. -/
theorem eachStep_iff (I : σ → Prop)
    (hiff : ∀ s a s', I s → step s a = some s' → (P s a s' ↔ Q s a s'))
    (hkeep : ∀ s a s', I s → step s a = some s' → Q s a s' → I s') (as : List α) {s : σ}
    (h : I s) : EachStep step P s as ↔ EachStep step Q s as := by
  induction as generalizing s with
  | nil => exact Iff.rfl
  | cons a as ih =>
    refine forall₂_congr fun s' hs => ?_
    constructor
    · rintro ⟨hp,hrest⟩
      have hq := (hiff s a s' h hs).mp hp
      exact ⟨hq,(ih (hkeep s a s' h hs hq)).mp hrest⟩
    · rintro ⟨hq,hrest⟩
      exact ⟨(hiff s a s' h hs).mpr hq,(ih (hkeep s a s' h hs hq)).mpr hrest⟩

theorem EachStep.mono (h : ∀ s a s', P s a s' → Q s a s') {s : σ} {as : List α}
    (hp : EachStep step P s as) : EachStep step Q s as := by
  induction as generalizing s with
  | nil => trivial
  | cons a as ih => exact fun s' hs => ⟨h s a s' (hp s' hs).1,ih (hp s' hs).2⟩

theorem EachStep.take {s : σ} {as : List α} (h : EachStep step P s as) (n : ℕ) :
    EachStep step P s (as.take n) := by
  induction as generalizing s n with
  | nil => rwa [List.take_nil]
  | cons a as ih =>
    cases n with
    | zero => trivial
    | succ n => exact fun s' hs => ⟨(h s' hs).1,ih (h s' hs).2 n⟩

theorem EachStep.invariant (I : σ → Prop)
    (hkeep : ∀ s a s', I s → step s a = some s' → P s a s' → I s') {s t : σ} {as : List α}
    (hp : EachStep step P s as) (hs : I s) (hrun : TransitionSystem.runSteps step s as = some t) :
    I t := by
  induction as generalizing s with
  | nil =>
    cases hrun
    exact hs
  | cons a as ih =>
    obtain ⟨s',hstep,hrest⟩ := Option.bind_eq_some_iff.mp hrun
    obtain ⟨hcond,hlater⟩ := hp s' hstep
    exact ih hlater (hkeep s a s' hs hstep hcond) hrest

theorem EachStep.of_invariant (I : σ → Prop) {R : σ → Prop}
    (hkeep : ∀ s a s', I s → step s a = some s' → P s a s' → I s') (hgives : ∀ s, I s → R s)
    {s : σ} {as : List α} (hp : EachStep step P s as) (hs : I s) :
    EachStep step (fun _ _ s' => R s') s as := by
  induction as generalizing s with
  | nil => trivial
  | cons a as ih =>
    intro s' hstep
    obtain ⟨hcond,hlater⟩ := hp s' hstep
    have hs' := hkeep s a s' hs hstep hcond
    exact ⟨hgives s' hs',ih hlater hs'⟩

theorem EachStep.trivial (step : σ → α → Option σ) (s : σ) (as : List α) :
    EachStep step (fun _ _ _ => True) s as := by
  induction as generalizing s with
  | nil => exact True.intro
  | cons a as ih => exact fun s' _ => ⟨True.intro,ih s'⟩

theorem EachStep.length_le (left : σ → ℕ)
    (hless : ∀ s a s', step s a = some s' → P s a s' → left s' < left s) {s t : σ} {as : List α}
    (hp : EachStep step P s as) (hrun : TransitionSystem.runSteps step s as = some t) :
    as.length+left t ≤ left s := by
  induction as generalizing s with
  | nil =>
    cases hrun
    simp
  | cons a as ih =>
    obtain ⟨s',hstep,hrest⟩ := Option.bind_eq_some_iff.mp hrun
    obtain ⟨hcond,hlater⟩ := hp s' hstep
    have htail := ih hlater hrest
    have hhead := hless s a s' hstep hcond
    rw [List.length_cons]
    omega

end EachStep

section Purge

variable {σ α : Type*} {step : σ → α → σ}

/-- A guard on the state before each step of a run. -/
def Along (step : σ → α → σ) (guard : σ → α → Prop) : σ → List α → Prop
  | _,[] => True
  | s,a :: as => guard s a ∧ Along step guard (step s a) as

instance Along.decidable (guard : σ → α → Prop) [∀ s a, Decidable (guard s a)] :
    ∀ s as, Decidable (Along step guard s as)
  | _,[] => inferInstanceAs (Decidable True)
  | s,a :: as =>
    have := Along.decidable guard (step s a) as
    inferInstanceAs (Decidable (guard s a ∧ Along step guard (step s a) as))

theorem Along.and {guard guard' : σ → α → Prop} {s : σ} {as : List α} (h : Along step guard s as)
    (h' : Along step guard' s as) : Along step (fun s a => guard s a ∧ guard' s a) s as := by
  induction as generalizing s with
  | nil => trivial
  | cons a as ih => exact ⟨⟨h.1,h'.1⟩,ih h.2 h'.2⟩

theorem foldl_purge {guard : σ → α → Prop} (hidden : α → Bool) (R : σ → σ → Prop)
    (hhidden : ∀ s t a, R s t → guard s a → hidden a = true → R (step s a) t)
    (hvisible : ∀ s t a, R s t → guard s a → hidden a = false → R (step s a) (step t a))
    (as : List α) {s t : σ} (hR : R s t) (h : Along step guard s as) :
    R (as.foldl step s) ((as.filter fun a => !hidden a).foldl step t) := by
  induction as generalizing s t with
  | nil => exact hR
  | cons a as ih =>
    obtain ⟨hguard,hrest⟩ := h
    cases ha : hidden a with
    | true =>
      rw [List.filter_cons_of_neg (by simp [ha])]
      exact ih (hhidden s t a hR hguard ha) hrest
    | false =>
      rw [List.filter_cons_of_pos (by simp [ha])]
      exact ih (hvisible s t a hR hguard ha) hrest

end Purge
end Library
