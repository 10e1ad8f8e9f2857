import Mathlib

/-! Orders of concurrent operations: one operation after another, none before one that had ended when
it began. -/
namespace Library

variable {σ α : Type*} {effect effect' : α → σ → σ} {precedes precedes' : α → α → Prop}
variable {init final : σ} {order : List α}

/-- Carried out in this order, the operations lead from `init` to `final`. -/
structure Linearizes (effect : α → σ → σ) (precedes : α → α → Prop) (init final : σ)
    (order : List α) : Prop where
  nodup : order.Nodup
  respects : order.Pairwise fun a b => ¬precedes b a
  result : order.foldl (fun s a => effect a s) init = final

theorem linearizes_nil : Linearizes effect precedes init init [] :=
  ⟨List.nodup_nil,List.Pairwise.nil,rfl⟩

theorem Linearizes.append (h : Linearizes effect precedes init final order) {a : α}
    (hnew : a ∉ order) (hafter : ∀ b ∈ order, ¬precedes a b) :
    Linearizes effect precedes init (effect a final) (order++[a]) := by
  constructor
  · exact List.nodup_append.mpr ⟨h.nodup,List.nodup_singleton a,fun b hb c hc heq => by
      rw [List.mem_singleton.mp hc] at heq
      exact hnew (heq ▸ hb)⟩
  · rw [List.pairwise_append]
    refine ⟨h.respects,List.pairwise_singleton _ _,fun b hb c hc => ?_⟩
    rw [List.mem_singleton.mp hc]
    exact hafter b hb
  · rw [List.foldl_append,h.result]
    rfl

theorem Linearizes.congr (h : Linearizes effect precedes init final order)
    (heffect : ∀ a ∈ order, effect' a = effect a)
    (hprecedes : ∀ a ∈ order, ∀ b ∈ order, precedes' a b → precedes a b) :
    Linearizes effect' precedes' init final order := by
  constructor
  · exact h.nodup
  · refine h.respects.imp_of_mem ?_
    intro a b ha hb hnot hba
    exact hnot (hprecedes b hb a ha hba)
  · rw [← h.result]
    apply List.foldl_ext
    intro s a ha
    rw [heffect a ha]

/-- What an operation establishes, and no operation breaks that may come after it, holds at the
end. -/
theorem Linearizes.final_of (h : Linearizes effect precedes init final order) (P : σ → Prop) {a : α}
    (ha : a ∈ order) (hset : ∀ s, P (effect a s))
    (hkeep : ∀ b ∈ order, ¬precedes b a → ∀ s, P s → P (effect b s)) : P final := by
  obtain ⟨before,after,rfl⟩ := List.append_of_mem ha
  have hafter : ∀ b ∈ after, ¬precedes b a := by
    have hrespects := (List.pairwise_append.mp h.respects).2.1
    exact (List.pairwise_cons.mp hrespects).1
  have hrest : ∀ s, P s → P (after.foldl (fun s b => effect b s) s) := by
    have hkeeps : ∀ b ∈ after, ∀ s, P s → P (effect b s) := fun b hb =>
      hkeep b (List.mem_append_right _ (List.mem_cons_of_mem a hb)) (hafter b hb)
    clear h ha hafter hkeep
    induction after with
    | nil => exact fun s hs => hs
    | cons b after ih =>
      intro s hs
      apply ih (fun c hc => hkeeps c (List.mem_cons_of_mem b hc))
      exact hkeeps b List.mem_cons_self s hs
  rw [← h.result,List.foldl_append,List.foldl_cons]
  exact hrest _ (hset _)

end Library
