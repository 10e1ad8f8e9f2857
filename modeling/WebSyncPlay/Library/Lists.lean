import Mathlib

/-! Lists read as the mutable arrays of a scripting language: indexing by an
integer, and changing the first element that passes a test. -/
namespace Library

variable {α β : Type*}

/-- Reading outside the bounds, below zero included, gives nothing. -/
def indexGet? (l : List α) (i : ℤ) : Option α :=
  if 0 ≤ i then l[i.toNat]? else none

@[simp] theorem indexGet?_nil (i : ℤ) : indexGet? ([] : List α) i = none := by
  simp [indexGet?]

@[simp] theorem indexGet?_natCast (l : List α) (n : ℕ) : indexGet? l (n : ℤ) = l[n]? := by
  simp [indexGet?]

theorem indexGet?_map (f : α → β) (l : List α) (i : ℤ) :
    indexGet? (l.map f) i = (indexGet? l i).map f := by
  unfold indexGet?
  split <;> simp

theorem indexGet?_eq_some_iff (l : List α) (i : ℤ) (a : α) :
    indexGet? l i = some a ↔ 0 ≤ i ∧ l[i.toNat]? = some a := by
  unfold indexGet?
  split <;> simp_all

theorem indexGet?_mem {l : List α} {i : ℤ} {a : α} (h : indexGet? l i = some a) : a ∈ l :=
  List.mem_of_getElem? ((indexGet?_eq_some_iff l i a).mp h).2

def ValidIndex (n : ℕ) (i : ℤ) : Prop := 0 ≤ i ∧ i < max 1 (n : ℤ)

instance (n : ℕ) (i : ℤ) : Decidable (ValidIndex n i) :=
  inferInstanceAs (Decidable (_ ∧ _))

theorem ValidIndex.isSome {l : List α} {i : ℤ} (h : ValidIndex l.length i) (hl : l ≠ []) :
    ∃ a, indexGet? l i = some a := by
  have hpos : 0 < l.length := List.length_pos_of_ne_nil hl
  have hlt : i.toNat < l.length := by
    have hi := h.2
    omega
  exact ⟨l[i.toNat],(indexGet?_eq_some_iff _ _ _).mpr ⟨h.1,by simp [hlt]⟩⟩

/-- Find the first element that passes the test and change it in place. -/
def modifyFirst (p : α → Bool) (f : α → α) : List α → List α
  | [] => []
  | a::l => if p a then f a :: l else a :: modifyFirst p f l

theorem modifyFirst_map (p : α → Bool) (f : α → α) (g : α → β) (l : List α)
    (h : ∀ a ∈ l, p a = true → g (f a) = g a) : (modifyFirst p f l).map g = l.map g := by
  induction l with
  | nil => rfl
  | cons a l ih =>
    unfold modifyFirst
    split
    · rename_i hp
      simp [h a (by simp) hp]
    · simp [ih fun b hb => h b (by simp [hb])]

theorem mem_modifyFirst {p : α → Bool} {f : α → α} {l : List α} {b : α}
    (h : b ∈ modifyFirst p f l) :
    b ∈ l ∨ ∃ a, l.find? p = some a ∧ b = f a := by
  induction l with
  | nil => simp [modifyFirst] at h
  | cons a l ih =>
    unfold modifyFirst at h
    split at h
    · rename_i hp
      rcases List.mem_cons.mp h with rfl | h
      · exact Or.inr ⟨a,by simp [hp],rfl⟩
      · exact Or.inl (by simp [h])
    · rename_i hp
      rcases List.mem_cons.mp h with rfl | h
      · exact Or.inl (by simp)
      · rcases ih h with h | ⟨c,hc,rfl⟩
        · exact Or.inl (by simp [h])
        · exact Or.inr ⟨c,by simp [hp,hc],rfl⟩

theorem find?_modifyFirst {p : α → Bool} {f : α → α} (l : List α) (h : ∀ a, p a = true → p (f a) = true) :
    (modifyFirst p f l).find? p = (l.find? p).map f := by
  induction l with
  | nil => rfl
  | cons a l ih =>
    unfold modifyFirst
    split
    · rename_i hp
      simp [hp,h a hp]
    · rename_i hp
      simp [hp,ih]

theorem eq_or_mem_set {l : List α} {n : ℕ} {a a' b : α} (ha : l[n]? = some a) (hb : b ∈ l) :
    b = a ∨ b ∈ l.set n a' := by
  obtain ⟨m,hm⟩ := List.mem_iff_getElem?.mp hb
  by_cases heq : m = n
  · subst heq
    exact .inl (Option.some.inj (hm.symm.trans ha))
  · refine .inr (List.mem_iff_getElem?.mpr ⟨m,?_⟩)
    rw [List.getElem?_set_ne (Ne.symm heq),hm]

theorem filter_insertIdx (p : α → Bool) {a : α} (ha : p a = false) (l : List α) (n : ℕ) :
    (l.insertIdx n a).filter p = l.filter p := by
  induction l generalizing n with
  | nil =>
    cases n with
    | zero => simp [ha]
    | succ n => simp
  | cons b l ih =>
    cases n with
    | zero => simp [ha]
    | succ n => simp [List.insertIdx_succ_cons,List.filter_cons,ih n]

theorem eraseIdx_eq_filter [DecidableEq β] (f : α → β) {l : List α} {i : ℕ} {a : α}
    (h : (l.map f).Nodup) (hi : l[i]? = some a) :
    l.eraseIdx i = l.filter fun b => decide (f b ≠ f a) := by
  induction l generalizing i with
  | nil => simp at hi
  | cons b l ih =>
    simp only [List.map_cons,List.nodup_cons] at h
    cases i with
    | zero =>
      simp only [List.getElem?_cons_zero,Option.some.injEq] at hi
      subst hi
      have hall : ∀ c ∈ l, decide (f c ≠ f b) = true := by
        intro c hc
        have hne : f c ≠ f b := fun he => h.1 (he ▸ List.mem_map_of_mem hc)
        simpa using hne
      simpa using (List.filter_eq_self.mpr hall).symm
    | succ i =>
      simp only [List.getElem?_cons_succ] at hi
      have hne : f b ≠ f a :=
        fun he => h.1 (he ▸ List.mem_map_of_mem (List.mem_of_getElem? hi))
      simp [hne,ih h.2 hi]

theorem filter_move [DecidableEq β] (f : α → β) {l : List α} {i : ℕ} (j : ℕ) {a : α}
    (h : (l.map f).Nodup) (hi : l[i]? = some a) :
    ((l.eraseIdx i).insertIdx j a).filter (fun b => decide (f b ≠ f a)) =
      l.filter fun b => decide (f b ≠ f a) := by
  rw [filter_insertIdx _ (by simp),eraseIdx_eq_filter f h hi,List.filter_filter]
  simp

theorem move_perm {l : List α} {i j : ℕ} {a : α} (hi : l[i]? = some a) (hj : j < l.length) :
    ((l.eraseIdx i).insertIdx j a).Perm l := by
  obtain ⟨hlt,rfl⟩ := List.getElem?_eq_some_iff.mp hi
  have hle : j ≤ (l.eraseIdx i).length := by
    rw [List.length_eraseIdx_of_lt hlt]
    omega
  exact (List.perm_insertIdx _ _ hle).trans (List.getElem_cons_eraseIdx_perm hlt)

theorem countP_set_le {p : α → Bool} {l : List α} {i : ℕ} {a b : α} (hi : l[i]? = some b)
    (h : p a = true → p b = true) : (l.set i a).countP p ≤ l.countP p := by
  obtain ⟨hlt,rfl⟩ := List.getElem?_eq_some_iff.mp hi
  have hpos : p l[i] = true → 0 < l.countP p := fun hp =>
    List.countP_pos_iff.mpr ⟨l[i],List.getElem_mem hlt,hp⟩
  rw [List.countP_set hlt]
  cases ha : p a with
  | false => simp
  | true =>
    have hb := h ha
    have hcount := hpos hb
    simp only [hb,if_true]
    omega

theorem countP_set_succ {p : α → Bool} {l : List α} {i : ℕ} {a b : α} (hi : l[i]? = some b)
    (hb : p b = true) (ha : p a = false) : (l.set i a).countP p + 1 = l.countP p := by
  obtain ⟨hlt,rfl⟩ := List.getElem?_eq_some_iff.mp hi
  have hpos : 0 < l.countP p := List.countP_pos_iff.mpr ⟨l[i],List.getElem_mem hlt,hb⟩
  rw [List.countP_set hlt]
  simp only [hb,ha,if_true,Bool.false_eq_true,if_false]
  omega

theorem zipWith_left_sublist (l : List α) (m : List β) :
    (List.zipWith (fun a _ => a) l m).Sublist l := by
  induction l generalizing m with
  | nil => simp
  | cons a l ih =>
    cases m with
    | nil => simp
    | cons b m => exact (ih m).cons_cons a

end Library
