import Mathlib.Logic.Relation
import Mathlib.Tactic.Common

/-! Descent along a relation: the points from which no infinite path leads down, and what
becomes of them when the edges out of one point are replaced. -/
namespace Library

open Relation

variable {α : Type*} {r r' : α → α → Prop} {a b x : α}

/-- No infinite path of `r` starts at the point. -/
def Grounded (r : α → α → Prop) (a : α) : Prop := Acc (fun b a => r a b) a

theorem Grounded.intro (h : ∀ b, r a b → Grounded r b) : Grounded r a := Acc.intro a h

theorem Grounded.step (h : Grounded r a) (hab : r a b) : Grounded r b := Acc.inv h hab

theorem Grounded.path (h : Grounded r a) (hab : ReflTransGen r a b) : Grounded r b := by
  induction hab with
  | refl => exact h
  | tail _ hstep ih => exact ih.step hstep

theorem Grounded.mono (h : Grounded r a) (hsub : ∀ a b, r' a b → r a b) : Grounded r' a := by
  induction h with
  | intro a _ ih => exact .intro fun b hb => ih b (hsub a b hb)

theorem Grounded.not_cycle (h : Grounded r a) : ¬TransGen r a a := by
  induction h with
  | intro a _ ih =>
    intro hcycle
    obtain ⟨b,hab,hba⟩ := TransGen.head'_iff.mp hcycle
    exact ih b hab (.tail' hba hab)

/-- The edges out of `x` may differ. -/
def SameOff (x : α) (r r' : α → α → Prop) : Prop := ∀ a b, a ≠ x → (r' a b ↔ r a b)

/-- New edges out of `x` close no cycle when none leads to where a path to `x` begins. -/
theorem SameOff.grounded (hoff : SameOff x r r') (hall : ∀ a, Grounded r a)
    (hout : ∀ b, r' x b → ¬ReflTransGen r b x) (a : α) : Grounded r' a := by
  -- Away from the paths to `x` nothing has changed.
  have haway : ∀ a, ¬ReflTransGen r a x → Grounded r' a := by
    intro a
    induction hall a with
    | intro a _ ih =>
      intro hno
      have hax : a ≠ x := by
        rintro rfl
        exact hno .refl
      refine .intro fun b hb => ?_
      have hab := (hoff a b hax).mp hb
      exact ih b hab fun hbx => hno (.head hab hbx)
  have hx : Grounded r' x := .intro fun b hb => haway b (hout b hb)
  induction hall a with
  | intro a _ ih =>
    by_cases hax : a = x
    · subst hax
      exact hx
    · exact .intro fun b hb => ih b ((hoff a b hax).mp hb)

end Library
