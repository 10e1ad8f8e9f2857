import Mathlib

/-! Copies that keep the newest version offered to them. -/
namespace Library

structure Versioned (ν α : Type*) where
  version : ν
  content : α
  deriving DecidableEq

namespace Versioned

variable {ν α : Type*}

/-- What is held after an offer: the offer, unless it is older. -/
def offer [LE ν] [DecidableLE ν] (held offered : Versioned ν α) : Versioned ν α :=
  if held.version ≤ offered.version then offered else held

/-- One of the received values, of the highest version among them. -/
structure Newest [LE ν] (received : List (Versioned ν α)) (held : Versioned ν α) : Prop where
  mem : held ∈ received
  le : ∀ v ∈ received, v.version ≤ held.version

variable [LinearOrder ν] {received : List (Versioned ν α)} {held offered : Versioned ν α}

theorem newest_single (v : Versioned ν α) : Newest [v] v :=
  ⟨List.mem_singleton.mpr rfl,fun w hw => by rw [List.mem_singleton.mp hw]⟩

theorem Newest.accept (h : Newest received held) (hle : held.version ≤ offered.version) :
    Newest (offered::received) offered := by
  refine ⟨List.mem_cons_self,fun v hv => ?_⟩
  rcases List.mem_cons.mp hv with rfl | hv
  · exact le_rfl
  · exact (h.le v hv).trans hle

theorem Newest.reject (h : Newest received held) (hlt : offered.version ≤ held.version) :
    Newest (offered::received) held := by
  refine ⟨List.mem_cons_of_mem _ h.mem,fun v hv => ?_⟩
  rcases List.mem_cons.mp hv with rfl | hv
  · exact hlt
  · exact h.le v hv

theorem Newest.offer (h : Newest received held) :
    Newest (offered::received) (held.offer offered) := by
  unfold Versioned.offer
  split
  · rename_i hle
    exact h.accept hle
  · rename_i hnot
    exact h.reject (not_le.mp hnot).le

theorem Newest.content_eq (h : Newest received held)
    (hnames : ∀ v ∈ received, v.version = held.version → v.content = held.content)
    {v : Versioned ν α} (hv : v ∈ received) (hle : ∀ w ∈ received, w.version ≤ v.version) :
    held.content = v.content :=
  (hnames v hv ((h.le v hv).antisymm (hle held h.mem))).symm

end Versioned

section Ascents

variable {α β σ : Type*} {number : α → ℕ}

/-- Of what arrives, what comes above a watermark and before everything of the same or a
higher number. -/
def ascents (number : α → ℕ) : ℕ → List α → List α
  | _, [] => []
  | w, a :: as =>
    if w < number a then a :: ascents number (number a) as else ascents number w as

theorem mem_of_mem_ascents {w : ℕ} {a : α} {as : List α} (h : a ∈ ascents number w as) :
    a ∈ as ∧ w < number a := by
  induction as generalizing w with
  | nil => cases h
  | cons b as ih =>
    simp only [ascents] at h
    split at h
    · rename_i hb
      rcases List.mem_cons.mp h with rfl | h
      · exact ⟨List.mem_cons_self,hb⟩
      · exact ⟨List.mem_cons_of_mem _ (ih h).1,hb.trans (ih h).2⟩
    · exact ⟨List.mem_cons_of_mem _ (ih h).1,(ih h).2⟩

theorem ascents_pairwise (w : ℕ) (as : List α) :
    (ascents number w as).Pairwise fun a b => number a < number b := by
  induction as generalizing w with
  | nil => exact .nil
  | cons a as ih =>
    simp only [ascents]
    split
    · exact List.pairwise_cons.mpr ⟨fun b hb => (mem_of_mem_ascents hb).2,ih (number a)⟩
    · exact ih w

/-- In the order of their numbers, all that lies above the watermark comes in time. -/
theorem mem_ascents_of_pairwise {w : ℕ} {a : α} {as : List α}
    (h : as.Pairwise fun a b => number a < number b) (ha : a ∈ as) (hw : w < number a) :
    a ∈ ascents number w as := by
  induction as generalizing w with
  | nil => cases ha
  | cons b as ih =>
    obtain ⟨hfirst,hrest⟩ := List.pairwise_cons.mp h
    simp only [ascents]
    split
    · rcases List.mem_cons.mp ha with rfl | ha
      · exact List.mem_cons_self
      · exact List.mem_cons_of_mem _ (ih hrest ha (hfirst a ha))
    · rename_i hb
      rcases List.mem_cons.mp ha with rfl | ha
      · exact absurd hw hb
      · exact ih hrest ha hw

theorem ascents_eq_self {w : ℕ} {as : List α}
    (h : as.Pairwise fun a b => number a < number b) (hw : ∀ a ∈ as, w < number a) :
    ascents number w as = as := by
  induction as generalizing w with
  | nil => rfl
  | cons a as ih =>
    obtain ⟨hfirst,hrest⟩ := List.pairwise_cons.mp h
    rw [ascents,if_pos (hw a List.mem_cons_self),ih hrest hfirst]

/-- A copy that takes only what lies above its watermark, and moves the watermark there, takes
the ascents. -/
theorem foldl_gate {mark : σ → ℕ} {take gate : σ → α → σ}
    (hgate : ∀ s a, gate s a = if number a ≤ mark s then s else take s a)
    (hmark : ∀ s a, mark (take s a) = number a) (as : List α) (s : σ) :
    as.foldl gate s = (ascents number (mark s) as).foldl take s := by
  induction as generalizing s with
  | nil => rfl
  | cons a as ih =>
    rw [List.foldl_cons,hgate,ascents]
    by_cases ha : number a ≤ mark s
    · rw [if_pos ha,if_neg (not_lt.mpr ha)]
      exact ih s
    · rw [if_neg ha,if_pos (not_le.mp ha),List.foldl_cons,ih (take s a),hmark]

theorem foldl_patch_of_none {patch : α → Option β} {as : List α} (x : β)
    (h : ∀ a ∈ as, patch a = none) : as.foldl (fun x a => (patch a).getD x) x = x := by
  induction as with
  | nil => rfl
  | cons a as ih =>
    rw [List.foldl_cons,h a List.mem_cons_self]
    exact ih fun b hb => h b (List.mem_cons_of_mem _ hb)

theorem foldl_patch_of_top {patch : α → Option β} {as : List α} {a : α} {v : β} (x : β)
    (h : as.Pairwise fun a b => number a < number b) (ha : a ∈ as) (hv : patch a = some v)
    (htop : ∀ b ∈ as, (patch b).isSome = true → number b ≤ number a) :
    as.foldl (fun x a => (patch a).getD x) x = v := by
  induction as generalizing x with
  | nil => cases ha
  | cons b as ih =>
    obtain ⟨hfirst,hrest⟩ := List.pairwise_cons.mp h
    rw [List.foldl_cons]
    rcases List.mem_cons.mp ha with rfl | ha
    · -- Nothing after the highest patch touches the value.
      rw [hv,Option.getD_some]
      refine foldl_patch_of_none v fun b hb => ?_
      rw [← Option.not_isSome_iff_eq_none]
      intro hsome
      exact absurd (hfirst b hb) (not_lt.mpr (htop b (List.mem_cons_of_mem _ hb) hsome))
    · exact ih _ hrest ha fun b hb => htop b (List.mem_cons_of_mem _ hb)

end Ascents

end Library
