import WebSyncPlay.Library.WhiteSpaceRuns
import Mathlib

/-! Texts as sequences of 16-bit code units, a surrogate pair standing for one code point; a
surrogate without its partner is a code point of its own. -/
namespace Library

abbrev CodeUnit := UInt16

namespace CodeUnit

def isHigh (c : CodeUnit) : Bool := 0xD800 ≤ c.toNat && c.toNat ≤ 0xDBFF

def isLow (c : CodeUnit) : Bool := 0xDC00 ≤ c.toNat && c.toNat ≤ 0xDFFF

def pairPoint (high low : CodeUnit) : ℕ := 0x10000+(high.toNat-0xD800)*0x400+(low.toNat-0xDC00)

/-- White space and line terminators, the byte order mark included. -/
def isSpace (c : CodeUnit) : Bool :=
  let n := c.toNat
  (9 ≤ n && n ≤ 13) || n == 0x20 || n == 0xA0 || n == 0x1680 || (0x2000 ≤ n && n ≤ 0x200A) ||
    n == 0x2028 || n == 0x2029 || n == 0x202F || n == 0x205F || n == 0x3000 || n == 0xFEFF

def blank : CodeUnit := 0x20

/-- Capital letters of the first 128 characters are made small. -/
def lower (c : CodeUnit) : CodeUnit := if 0x41 ≤ c.toNat && c.toNat ≤ 0x5A then c+32 else c

theorem isSpace_blank : isSpace blank = true := by decide

theorem lower_blank : lower blank = blank := by decide

theorem isSpace_lower (c : CodeUnit) : isSpace (lower c) = isSpace c := by
  rw [lower]
  split
  · rename_i h
    rw [Bool.and_eq_true,decide_eq_true_eq,decide_eq_true_eq] at h
    have hadd : (c+32).toNat = c.toNat+32 := by
      rw [UInt16.toNat_add]
      change (c.toNat+32) % 65536 = c.toNat+32
      omega
    have hbefore : isSpace c = false := by
      simp [isSpace]
      omega
    have hafter : isSpace (c+32) = false := by
      simp only [isSpace,hadd]
      simp
      omega
    rw [hbefore,hafter]
  · rfl

theorem isHigh_of_isSpace {c : CodeUnit} (h : isSpace c = true) : isHigh c = false := by
  simp only [isSpace,isHigh] at h ⊢
  simp at h ⊢
  omega

theorem isLow_of_isSpace {c : CodeUnit} (h : isSpace c = true) : isLow c = false := by
  simp only [isSpace,isLow] at h ⊢
  simp at h ⊢
  omega

end CodeUnit

open CodeUnit

def codePoints : List CodeUnit → List ℕ
  | [] => []
  | [c] => [c.toNat]
  | c :: d :: rest =>
    if isHigh c && isLow d then pairPoint c d :: codePoints rest
    else c.toNat :: codePoints (d :: rest)

/-- All code points with a property are taken out. -/
def removePoints (p : ℕ → Bool) : List CodeUnit → List CodeUnit
  | [] => []
  | [c] => if p c.toNat then [] else [c]
  | c :: d :: rest =>
    if isHigh c && isLow d then
      if p (pairPoint c d) then removePoints p rest else c :: d :: removePoints p rest
    else if p c.toNat then removePoints p (d :: rest)
    else c :: removePoints p (d :: rest)

/-- No code point of the text has the property. -/
def FreeOf (p : ℕ → Bool) (s : List CodeUnit) : Prop := ∀ point ∈ codePoints s, p point = false

section Points

variable {p : ℕ → Bool} {s x y : List CodeUnit} {c : CodeUnit}

theorem removePoints_of_freeOf (h : FreeOf p s) : removePoints p s = s := by
  induction s using removePoints.induct p with
  | case1 => rfl
  | case2 c hc =>
    have hfree := h c.toNat (by simp [codePoints])
    rw [hc] at hfree
    cases hfree
  | case3 c hc => simp [removePoints,hc]
  | case4 c d rest hpair hp ih =>
    have hfree := h (pairPoint c d) (by simp [codePoints,hpair])
    rw [hp] at hfree
    cases hfree
  | case5 c d rest hpair hp ih =>
    have hrest : FreeOf p rest := fun point hpoint => h point (by simp [codePoints,hpair,hpoint])
    simp [removePoints,hpair,hp,ih hrest]
  | case6 c d rest hpair hp ih =>
    have hfree := h c.toNat (by simp [codePoints,hpair])
    rw [hp] at hfree
    cases hfree
  | case7 c d rest hpair hp ih =>
    have hrest : FreeOf p (d :: rest) :=
      fun point hpoint => h point (by simp [codePoints,hpair,hpoint])
    simp [removePoints,hpair,hp,ih hrest]

theorem mem_removePoints (h : c ∈ removePoints p s) :
    c ∈ s ∧ (isHigh c = false → isLow c = false → p c.toNat = false) := by
  induction s using removePoints.induct p with
  | case1 => cases h
  | case2 d hd => simp [removePoints,hd] at h
  | case3 d hd =>
    simp only [removePoints,hd,if_false,Bool.false_eq_true,List.mem_singleton] at h
    subst h
    exact ⟨List.mem_singleton_self _,fun _ _ => by simpa using hd⟩
  | case4 d e rest hpair hp ih =>
    simp only [removePoints,hpair,hp,if_true] at h
    obtain ⟨hmem,hfree⟩ := ih h
    exact ⟨List.mem_cons_of_mem _ (List.mem_cons_of_mem _ hmem),hfree⟩
  | case5 d e rest hpair hp ih =>
    simp only [removePoints,hpair,hp,if_true,if_false,Bool.false_eq_true,List.mem_cons] at h
    rw [Bool.and_eq_true] at hpair
    rcases h with rfl | rfl | h
    · exact ⟨List.mem_cons_self,fun hhigh => by rw [hpair.1] at hhigh; cases hhigh⟩
    · exact ⟨List.mem_cons_of_mem _ List.mem_cons_self,
        fun _ hlow => by rw [hpair.2] at hlow; cases hlow⟩
    · obtain ⟨hmem,hfree⟩ := ih h
      exact ⟨List.mem_cons_of_mem _ (List.mem_cons_of_mem _ hmem),hfree⟩
  | case6 d e rest hpair hp ih =>
    simp only [removePoints,hpair,hp,if_true,if_false,Bool.false_eq_true] at h
    obtain ⟨hmem,hfree⟩ := ih h
    exact ⟨List.mem_cons_of_mem _ hmem,hfree⟩
  | case7 d e rest hpair hp ih =>
    simp only [removePoints,hpair,hp,if_false,Bool.false_eq_true,List.mem_cons] at h
    rcases h with rfl | h
    · exact ⟨List.mem_cons_self,fun _ _ => by simpa using hp⟩
    · obtain ⟨hmem,hfree⟩ := ih (by simpa using h)
      exact ⟨List.mem_cons_of_mem _ hmem,hfree⟩

theorem freeOf_singleton : FreeOf p [c] ↔ p c.toNat = false := by
  simp [FreeOf,codePoints]

theorem codePoints_cons (hhigh : isHigh c = false) :
    codePoints (c :: y) = c.toNat :: codePoints y := by
  cases y with
  | nil => rfl
  | cons d y => simp [codePoints,hhigh]

theorem codePoints_append (hhigh : isHigh c = false) (hlow : isLow c = false) :
    codePoints (x ++ c :: y) = codePoints x ++ c.toNat :: codePoints y := by
  induction x using codePoints.induct with
  | case1 => exact codePoints_cons hhigh
  | case2 d =>
    have hpair : ¬(isHigh d && isLow c) = true := by simp [hlow]
    simp only [List.cons_append,List.nil_append,codePoints]
    rw [if_neg hpair,codePoints_cons hhigh]
  | case3 d e rest hpair ih =>
    simp only [List.cons_append,codePoints]
    rw [if_pos hpair,if_pos hpair,ih]
    rfl
  | case4 d e rest hpair ih =>
    simp only [List.cons_append,codePoints]
    rw [if_neg hpair,if_neg hpair]
    rw [List.cons_append] at ih
    rw [ih]
    rfl

theorem separable_freeOf (p : ℕ → Bool) : Separable isSpace (FreeOf p) where
  nil := fun point hpoint => by cases hpoint
  split := by
    intro x y w hw
    have hhigh := isHigh_of_isSpace hw
    have hlow := isLow_of_isSpace hw
    simp only [FreeOf,codePoints_append hhigh hlow,List.forall_mem_append,List.forall_mem_cons]
    simp [codePoints]

end Points

end Library
