import Mathlib.Algebra.BigOperators.Group.Finset.Piecewise
import Mathlib.Algebra.Order.BigOperators.Group.Finset
import Mathlib.Tactic.Abel

/-! Accounts whose balances are covered by a total: any finitely many of them hold no more. -/
namespace Library

variable {α K : Type*} [AddCommGroup K] [LinearOrder K]

def Covered (balance : α → K) (total : K) : Prop :=
  ∀ accounts : Finset α, ∑ a ∈ accounts, balance a ≤ total

theorem covered_zero : Covered (fun _ : α => (0 : K)) 0 := by
  intro accounts
  rw [Finset.sum_const_zero]

variable {balance : α → K} {total total' : K}

theorem Covered.card_le [One K] (h : Covered balance total) (accounts : Finset α)
    (hone : ∀ a ∈ accounts, balance a = 1) : accounts.card • (1 : K) ≤ total := by
  rw [← Finset.sum_const,← Finset.sum_congr rfl hone]
  exact h accounts

theorem Covered.update [IsOrderedAddMonoid K] [DecidableEq α] (h : Covered balance total) (a : α)
    {amount : K} (hnonneg : 0 ≤ amount) (hsum : amount+total ≤ balance a+total') :
    Covered (Function.update balance a amount) total' := by
  -- What the other accounts hold leaves room for the new amount.
  have hothers : ∀ accounts : Finset α, a ∉ accounts →
      amount+∑ b ∈ accounts, balance b ≤ total' := by
    intro accounts ha
    have hall := h (insert a accounts)
    rw [Finset.sum_insert ha] at hall
    refine le_of_add_le_add_left (a := balance a) ?_
    calc balance a+(amount+∑ b ∈ accounts, balance b)
        = amount+(balance a+∑ b ∈ accounts, balance b) := by abel
      _ ≤ amount+total := add_le_add le_rfl hall
      _ ≤ balance a+total' := hsum
  intro accounts
  by_cases ha : a ∈ accounts
  · rw [Finset.sum_update_of_mem ha]
    exact hothers _ fun hin => (Finset.mem_sdiff.mp hin).2 (Finset.mem_singleton_self a)
  · rw [Finset.sum_update_of_notMem ha]
    exact le_trans (le_add_of_nonneg_left hnonneg) (hothers accounts ha)

end Library
