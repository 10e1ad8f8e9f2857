import Mathlib

/-! Reference counters: what it means that a counter for each key is the sum of the
references that some agents hold, and how a step of one agent keeps it. -/
namespace Library

variable {S K : Type*}

/-- Only finitely many agents hold anything, and each counter is the sum of what they hold. -/
def Balanced (count : K → ℕ) (held : S → K → ℕ) : Prop :=
  ∃ agents : Finset S, (∀ s ∉ agents, ∀ k, held s k = 0) ∧ ∀ k, count k = ∑ s ∈ agents, held s k

variable {count count' : K → ℕ} {held held' : S → K → ℕ}

theorem balanced_zero (hheld : ∀ s k, held s k = 0) (hcount : ∀ k, count k = 0) :
    Balanced count held :=
  ⟨∅,fun s _ k => hheld s k,fun k => by rw [Finset.sum_empty,hcount k]⟩

theorem Balanced.update (h : Balanced count held) (a : S)
    (hother : ∀ s ≠ a, ∀ k, held' s k = held s k)
    (hmoves : ∀ k, count' k+held a k = count k+held' a k) : Balanced count' held' := by
  classical
  obtain ⟨agents,hnone,hsum⟩ := h
  refine ⟨insert a agents,fun s hs k => ?_,fun k => ?_⟩
  · rw [Finset.mem_insert,not_or] at hs
    rw [hother s hs.1 k]
    exact hnone s hs.2 k
  · have hsplit : ∀ f : S → ℕ, ∑ s ∈ insert a agents, f s = f a+∑ s ∈ agents.erase a, f s := by
      intro f
      rw [← Finset.insert_erase (Finset.mem_insert_self a agents),
        Finset.sum_insert (Finset.notMem_erase _ _),Finset.erase_insert_eq_erase]
    have hbefore : ∑ s ∈ insert a agents, held s k = count k := by
      by_cases ha : a ∈ agents
      · rw [Finset.insert_eq_of_mem ha,hsum k]
      · rw [Finset.sum_insert ha,hnone a ha k,Nat.zero_add,hsum k]
    have hrest : ∑ s ∈ agents.erase a, held' s k = ∑ s ∈ agents.erase a, held s k :=
      Finset.sum_congr rfl fun s hs => hother s (Finset.ne_of_mem_erase hs) k
    have hmove := hmoves k
    rw [hsplit fun s => held s k] at hbefore
    rw [hsplit fun s => held' s k,hrest]
    omega

theorem Balanced.le_count (h : Balanced count held) (a : S) (k : K) : held a k ≤ count k := by
  obtain ⟨agents,hnone,hsum⟩ := h
  by_cases ha : a ∈ agents
  · rw [hsum k]
    exact Finset.single_le_sum (fun s _ => Nat.zero_le (held s k)) ha
  · rw [hnone a ha k]
    exact Nat.zero_le _

/-- Where every agent holds one reference or none, the counter is the number of holders. -/
theorem Balanced.count_eq_ncard (h : Balanced count held) {holds : S → Prop} {k : K}
    (hone : ∀ s, holds s → held s k = 1) (hnone : ∀ s, ¬holds s → held s k = 0) :
    count k = Set.ncard {s | holds s} := by
  classical
  obtain ⟨agents,hout,hsum⟩ := h
  have hset : {s | holds s} = ↑(agents.filter holds) := by
    ext s
    rw [Finset.coe_filter]
    refine ⟨fun hs => ⟨?_,hs⟩,fun hs => hs.2⟩
    by_contra hmem
    have hzero := hout s hmem k
    rw [hone s hs] at hzero
    cases hzero
  rw [hset,Set.ncard_coe_finset,hsum k,Finset.card_filter]
  refine Finset.sum_congr rfl fun s _ => ?_
  split
  · rename_i hs
    exact hone s hs
  · rename_i hs
    exact hnone s hs

end Library
