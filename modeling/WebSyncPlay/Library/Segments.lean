import Mathlib

/-! Names that are made of parts with a separator between them, where a part may have separators of
its own: when two of them are the same. -/
namespace Library

variable {α : Type*} [BEq α] [LawfulBEq α] {sep : α}

theorem splitOn_inj {xs ys : List α} : xs.splitOn sep = ys.splitOn sep ↔ xs = ys := by
  refine ⟨fun h => ?_,congrArg _⟩
  rw [← @List.intercalate_splitOn _ xs _ _ sep,h,List.intercalate_splitOn]

theorem not_mem_of_mem_splitOn {xs : List α} : ∀ {part : List α}, part ∈ xs.splitOn sep →
    sep ∉ part := by
  induction xs with
  | nil =>
    intro part h
    rw [List.splitOn_nil,List.mem_singleton] at h
    simp [h]
  | cons x xs ih =>
    intro part h
    rw [List.splitOn_cons_eq_if_modifyHead] at h
    split at h
    · rcases List.mem_cons.mp h with rfl | h
      · simp
      · exact ih h
    · rename_i hx
      cases hparts : xs.splitOn sep with
      | nil => exact absurd hparts (List.splitOn_ne_nil sep xs)
      | cons first parts =>
        rw [hparts,List.modifyHead_cons] at h
        rw [hparts] at ih
        rcases List.mem_cons.mp h with rfl | h
        · rw [List.mem_cons,not_or]
          exact ⟨fun he => hx (beq_iff_eq.mpr he.symm),ih List.mem_cons_self⟩
        · exact ih (List.mem_cons_of_mem _ h)

theorem exists_splitOn {xs : List α} {parts rest : List (List α)}
    (h : xs.splitOn sep = rest ++ parts) :
    parts = [] ∨ ∃ ys : List α, ys.splitOn sep = parts := by
  by_cases hne : parts = []
  · exact Or.inl hne
  · refine Or.inr ⟨[sep].intercalate parts,List.splitOn_intercalate sep (fun part hpart => ?_) hne⟩
    exact not_mem_of_mem_splitOn (by rw [h]; exact List.mem_append_right _ hpart)

variable {a a' b b' : List α}

/-- Two parts: the same, or the longer first part takes in the start of the other's second. -/
theorem join_eq_join_iff : a ++ sep :: b = a' ++ sep :: b' ↔ (a = a' ∧ b = b') ∨
    (∃ x, a' = a ++ sep :: x ∧ b = x ++ sep :: b') ∨
    ∃ x, a = a' ++ sep :: x ∧ b' = x ++ sep :: b := by
  constructor
  · intro h
    have hparts := congrArg (List.splitOn sep) h
    rw [List.splitOn_append_cons_self,List.splitOn_append_cons_self,
      List.append_eq_append_iff] at hparts
    -- The parts that one first name has and the other has not.
    have hside : ∀ {a a' b b' : List α} {parts}, a'.splitOn sep = a.splitOn sep ++ parts →
        b.splitOn sep = parts ++ b'.splitOn sep →
        (a = a' ∧ b = b') ∨ ∃ x, a' = a ++ sep :: x ∧ b = x ++ sep :: b' := by
      intro a a' b b' parts ha hb
      rcases exists_splitOn ha with rfl | ⟨x,rfl⟩
      · rw [List.append_nil] at ha
        exact Or.inl ⟨(splitOn_inj.mp ha).symm,splitOn_inj.mp hb⟩
      · rw [← List.splitOn_append_cons_self] at ha hb
        exact Or.inr ⟨x,splitOn_inj.mp ha,splitOn_inj.mp hb⟩
    rcases hparts with ⟨parts,ha,hb⟩ | ⟨parts,ha,hb⟩
    · exact (hside ha hb).imp_right Or.inl
    · exact (hside ha hb).imp (fun hsame => ⟨hsame.1.symm,hsame.2.symm⟩) Or.inr
  · rintro (⟨rfl,rfl⟩ | ⟨x,rfl,rfl⟩ | ⟨x,rfl,rfl⟩) <;> simp

def ending (sep : α) (w : List α) : Option (List α) → List α
  | none => w
  | some rest => w ++ sep :: rest

theorem splitOn_ending {w : List α} (hw : sep ∉ w) (rest : Option (List α)) :
    (ending sep w rest).splitOn sep = w :: (rest.map (List.splitOn sep)).getD [] := by
  cases rest with
  | none => exact List.splitOn_eq_singleton hw
  | some rest =>
    rw [ending,List.splitOn_append_cons_self,List.splitOn_eq_singleton hw]
    rfl

theorem ending_inj {w w' : List α} (hw : sep ∉ w) (hw' : sep ∉ w') {rest rest' : Option (List α)} :
    ending sep w rest = ending sep w' rest' ↔ w = w' ∧ rest = rest' := by
  refine ⟨fun h => ?_,fun h => by rw [h.1,h.2]⟩
  have hparts := congrArg (List.splitOn sep) h
  rw [splitOn_ending hw,splitOn_ending hw',List.cons.injEq] at hparts
  refine ⟨hparts.1,?_⟩
  cases rest <;> cases rest'
  · rfl
  · exact absurd hparts.2.symm (List.splitOn_ne_nil sep _)
  · exact absurd hparts.2 (List.splitOn_ne_nil sep _)
  · exact congrArg some (splitOn_inj.mp hparts.2)

/-- The first part `a'` goes on where `a` ends, with the word after `a` and the start of the rest;
what is left of the rest is `e'`. -/
def Continues (sep : α) (a w : List α) (rest : Option (List α)) (a' e' : List α) : Prop :=
  ∃ x, a' = a ++ sep :: ending sep w x ∧ rest = some (x.elim e' fun x => x ++ sep :: e')

theorem join_ending_eq_iff {w w' : List α} (hw : sep ∉ w) (hw' : sep ∉ w')
    {rest rest' : Option (List α)} :
    a ++ sep :: ending sep w rest = a' ++ sep :: ending sep w' rest' ↔
      (a = a' ∧ w = w' ∧ rest = rest') ∨ Continues sep a w rest a' (ending sep w' rest') ∨
        Continues sep a' w' rest' a (ending sep w rest) := by
  have hside : ∀ {a a' w w' : List α} {rest rest' : Option (List α)}, sep ∉ w →
      (∃ x, a' = a ++ sep :: x ∧ ending sep w rest = x ++ sep :: ending sep w' rest') →
      Continues sep a w rest a' (ending sep w' rest') := by
    rintro a a' w w' rest rest' hw ⟨x,rfl,he⟩
    cases rest with
    | none =>
      refine absurd ?_ hw
      rw [show w = _ from he]
      simp
    | some rest =>
      have hsplit : w ++ sep :: rest = x ++ sep :: ending sep w' rest' := he
      rcases join_eq_join_iff.mp hsplit with ⟨rfl,rfl⟩ | ⟨y,rfl,rfl⟩ | ⟨y,rfl,-⟩
      · exact ⟨none,rfl,rfl⟩
      · exact ⟨some y,rfl,rfl⟩
      · exact absurd (by simp) hw
  rw [join_eq_join_iff]
  constructor
  · rintro (⟨ha,he⟩ | h | h)
    · exact Or.inl ⟨ha,(ending_inj hw hw').mp he⟩
    · exact Or.inr (Or.inl (hside hw h))
    · exact Or.inr (Or.inr (hside hw' h))
  · rintro (⟨rfl,rfl,rfl⟩ | ⟨x,rfl,rfl⟩ | ⟨x,rfl,rfl⟩)
    · exact Or.inl ⟨rfl,rfl⟩
    · refine Or.inr (Or.inl ⟨_,rfl,?_⟩)
      cases x <;> simp [ending]
    · refine Or.inr (Or.inr ⟨_,rfl,?_⟩)
      cases x <;> simp [ending]

section LastSplit

variable {β : Type*} [DecidableEq β] {word l first rest : List β}

/-- Split at the last place where the word stands with something after it. -/
def lastSplit (word : List β) : List β → Option (List β × List β)
  | [] => none
  | c :: cs =>
    match lastSplit word cs with
    | some (first,rest) => some (c :: first,rest)
    | none =>
      if word.isPrefixOf (c :: cs) ∧ (c :: cs).drop word.length ≠ [] then
        some ([],(c :: cs).drop word.length)
      else none

theorem drop_of_isPrefixOf (h : word.isPrefixOf l = true) : word ++ l.drop word.length = l := by
  obtain ⟨tail,rfl⟩ := List.isPrefixOf_iff_prefix.mp h
  rw [List.drop_left]

theorem lastSplit_eq_none (h : lastSplit word l = none) (hsplit : l = first ++ word ++ rest) :
    rest = [] := by
  induction l generalizing first with
  | nil =>
    have hnil := (List.append_eq_nil_iff.mp hsplit.symm).2
    exact hnil
  | cons c cs ih =>
    rw [lastSplit] at h
    split at h
    · cases h
    · rename_i hnone
      split at h
      · cases h
      · rename_i hhere
        cases first with
        | nil =>
          rw [List.nil_append] at hsplit
          by_contra hrest
          refine hhere ⟨?_,?_⟩
          · rw [hsplit]
            exact List.isPrefixOf_iff_prefix.mpr (List.prefix_append word rest)
          · rw [hsplit,List.drop_left]
            exact hrest
        | cons d first => exact ih hnone (List.cons.inj hsplit).2

theorem lastSplit_spec (h : lastSplit word l = some (first,rest)) :
    l = first ++ word ++ rest ∧ rest ≠ [] ∧ ∀ first' rest', l = first' ++ word ++ rest' →
      rest' ≠ [] → first'.length ≤ first.length := by
  induction l generalizing first rest with
  | nil => cases h
  | cons c cs ih =>
    rw [lastSplit] at h
    split at h
    · rename_i first₁ rest₁ hlater
      cases h
      obtain ⟨hcs,hrest,hmax⟩ := ih hlater
      refine ⟨by rw [hcs]; rfl,hrest,fun first' rest' hsplit hne => ?_⟩
      cases first' with
      | nil => exact Nat.zero_le _
      | cons d first' => exact Nat.succ_le_succ (hmax first' rest' (List.cons.inj hsplit).2 hne)
    · rename_i hnone
      split at h
      · rename_i hhere
        cases h
        refine ⟨(drop_of_isPrefixOf hhere.1).symm,hhere.2,fun first' rest' hsplit hne => ?_⟩
        cases first' with
        | nil => exact le_rfl
        | cons d first' => exact absurd (lastSplit_eq_none hnone (List.cons.inj hsplit).2) hne
      · cases h

theorem lastSplit_eq_some_iff (hrest : rest ≠ []) :
    lastSplit word (first ++ word ++ rest) = some (first,rest) ↔
      ∀ first' rest', first ++ word ++ rest = first' ++ word ++ rest' → rest' ≠ [] →
        first'.length ≤ first.length := by
  constructor
  · exact fun h => (lastSplit_spec h).2.2
  · intro hmax
    cases hsplit : lastSplit word (first ++ word ++ rest) with
    | none => exact absurd (lastSplit_eq_none hsplit rfl) hrest
    | some found =>
      obtain ⟨first',rest'⟩ := found
      obtain ⟨heq,hrest',hmax'⟩ := lastSplit_spec hsplit
      have hlength : first.length = first'.length :=
        le_antisymm (hmax' first rest rfl hrest) (hmax first' rest' heq hrest')
      rw [List.append_assoc,List.append_assoc] at heq
      obtain ⟨rfl,htail⟩ := List.append_inj heq hlength
      rw [List.append_cancel_left htail]

end LastSplit

end Library
