import Mathlib

/-! Numbers with a limited number of digits: what becomes of a natural number that has more binary
digits than a double keeps, and what a text with a limited number of significant decimal digits
holds of a number. -/
namespace Library

/-- The multiple of `unit` nearest to `n`; of two equally near ones the even multiple. -/
def roundAt (unit n : ℕ) : ℕ :=
  let down := n / unit
  let rest := n % unit
  if 2*rest < unit then unit*down
  else if unit < 2*rest then unit*(down+1)
  else if down % 2 = 0 then unit*down else unit*(down+1)

theorem roundAt_mul {unit : ℕ} (hunit : 0 < unit) (n : ℕ) : roundAt unit (unit*n) = unit*n := by
  have hdown : unit*n / unit = n := Nat.mul_div_cancel_left n hunit
  simp [roundAt,hdown,hunit]

def toDouble (n : ℕ) : ℕ := roundAt (2^(n.log2-52)) n

theorem toDouble_of_le {n : ℕ} (h : n ≤ 2^53) : toDouble n = n := by
  rcases h.lt_or_eq with hlt | rfl
  · have hlog : n.log2-52 = 0 := by
      by_cases hn : n = 0
      · simp [hn]
      · have := (Nat.log2_lt hn).mpr hlt
        omega
    have hone := roundAt_mul Nat.one_pos n
    rw [one_mul] at hone
    rw [toDouble,hlog,pow_zero,hone]
  · have hlog : Nat.log2 (2^53) = 53 := Nat.log2_two_pow
    have hsplit : (2 : ℕ)^53 = 2^1*2^52 := by norm_num
    rw [toDouble,hlog]
    change roundAt (2^1) (2^53) = 2^53
    rw [hsplit,roundAt_mul (by norm_num)]

theorem roundAt_dvd (unit n : ℕ) : unit ∣ roundAt unit n := by
  unfold roundAt
  dsimp only
  split_ifs <;> exact Nat.dvd_mul_right _ _

theorem roundAt_of_dvd {unit n : ℕ} (hunit : 0 < unit) (h : unit ∣ n) : roundAt unit n = n := by
  obtain ⟨m,rfl⟩ := h
  exact roundAt_mul hunit m

theorem roundAt_bounds (unit n : ℕ) :
    unit*(n / unit) ≤ roundAt unit n ∧ roundAt unit n ≤ unit*(n / unit+1) := by
  have hle : unit*(n / unit) ≤ unit*(n / unit+1) := Nat.mul_le_mul_left _ (Nat.le_succ _)
  unfold roundAt
  dsimp only
  split_ifs
  · exact ⟨le_refl _,hle⟩
  · exact ⟨hle,le_refl _⟩
  · exact ⟨le_refl _,hle⟩
  · exact ⟨hle,le_refl _⟩

theorem two_pow_log2_le_toDouble {n : ℕ} (hn : n ≠ 0) : 2^n.log2 ≤ toDouble n := by
  have hsplit : n.log2 = n.log2-(n.log2-52)+(n.log2-52) := by omega
  have hsig : 2^(n.log2-(n.log2-52)) ≤ n / 2^(n.log2-52) := by
    rw [Nat.le_div_iff_mul_le (by positivity),← pow_add,← hsplit]
    exact Nat.log2_self_le hn
  calc 2^n.log2 = 2^(n.log2-52)*2^(n.log2-(n.log2-52)) := by
        rw [← pow_add,Nat.add_comm,← hsplit]
    _ ≤ 2^(n.log2-52)*(n / 2^(n.log2-52)) := Nat.mul_le_mul_left _ hsig
    _ ≤ toDouble n := (roundAt_bounds _ _).1

theorem toDouble_eq_zero_iff {n : ℕ} : toDouble n = 0 ↔ n = 0 := by
  constructor
  · intro h
    by_contra hn
    have hle := two_pow_log2_le_toDouble hn
    have hpos := Nat.two_pow_pos n.log2
    omega
  · rintro rfl
    exact toDouble_of_le (Nat.zero_le _)

theorem toDouble_toDouble (n : ℕ) : toDouble (toDouble n) = toDouble n := by
  by_cases hn : n ≤ 2^53
  · rw [toDouble_of_le hn,toDouble_of_le hn]
  have hn0 : n ≠ 0 := by omega
  set e := n.log2-52 with he
  have hhigh : n < 2^(n.log2+1) := Nat.lt_log2_self
  have hlog : 53 ≤ n.log2 := (Nat.le_log2 hn0).mpr (by omega)
  have hsplit : n.log2 = 52+e := by omega
  have hunit : 0 < 2^e := by positivity
  have hdouble : toDouble n = roundAt (2^e) n := rfl
  have hge : 2^(52+e) ≤ toDouble n := hsplit ▸ two_pow_log2_le_toDouble hn0
  have hle : toDouble n ≤ 2^(53+e) := by
    have hsig : n / 2^e < 2^53 := by
      rw [Nat.div_lt_iff_lt_mul hunit,← pow_add]
      rwa [show 53+e = n.log2+1 by omega]
    rw [hdouble,pow_add,Nat.mul_comm (2^53)]
    exact (roundAt_bounds _ _).2.trans (Nat.mul_le_mul_left _ hsig)
  rcases hle.lt_or_eq with hlt | heq
  · have hlog' : (toDouble n).log2 = 52+e := by
      have hne : toDouble n ≠ 0 := by
        have := Nat.two_pow_pos (52+e)
        omega
      have hlt' := (Nat.log2_lt hne).mpr (show toDouble n < 2^(52+e+1) by
        rwa [show 52+e+1 = 53+e by omega])
      have hge' := (Nat.le_log2 hne).mpr hge
      omega
    have hdvd : 2^((toDouble n).log2-52) ∣ toDouble n := by
      rw [hlog',Nat.add_sub_cancel_left,hdouble]
      exact roundAt_dvd _ _
    exact roundAt_of_dvd (Nat.two_pow_pos _) hdvd
  · rw [heq]
    have hlog' : (2^(53+e)).log2 = 53+e := Nat.log2_two_pow
    rw [toDouble,hlog']
    exact roundAt_of_dvd (Nat.two_pow_pos _) (pow_dvd_pow 2 (by omega))

def sumDoubles (ns : List ℕ) : ℕ := ns.foldl (fun sum n => toDouble (sum+n)) 0

theorem foldl_toDouble {start : ℕ} (ns : List ℕ) (h : start+ns.sum ≤ 2^53) :
    ns.foldl (fun sum n => toDouble (sum+n)) start = start+ns.sum := by
  induction ns generalizing start with
  | nil => simp
  | cons n ns ih =>
    rw [List.sum_cons] at h
    have hn : toDouble (start+n) = start+n := toDouble_of_le (by omega)
    rw [List.foldl_cons,hn,ih (by omega),List.sum_cons,Nat.add_assoc]

theorem sumDoubles_of_le {ns : List ℕ} (h : ns.sum ≤ 2^53) : sumDoubles ns = ns.sum := by
  rw [sumDoubles,foldl_toDouble ns (by omega),Nat.zero_add]

theorem eq_zero_of_sumDoubles {ns : List ℕ} (h : sumDoubles ns = 0) : ∀ n ∈ ns, n = 0 := by
  have hfold : ∀ (ns : List ℕ) (start : ℕ),
      ns.foldl (fun sum n => toDouble (sum+n)) start = 0 → start = 0 ∧ ∀ n ∈ ns, n = 0 := by
    intro ns
    induction ns with
    | nil => exact fun start h => ⟨h,fun _ hn => by cases hn⟩
    | cons n ns ih =>
      intro start h
      obtain ⟨hsum,hrest⟩ := ih _ h
      rw [toDouble_eq_zero_iff] at hsum
      refine ⟨by omega,fun m hm => ?_⟩
      rcases List.mem_cons.mp hm with rfl | hm
      · omega
      · exact hrest m hm
  exact (hfold ns 0 h).2

/-- A natural number as text: all its digits, or a significand with a power of ten. -/
inductive Numeral
  | digits (n : ℕ)
  | scientific (significand exponent : ℕ)
  deriving DecidableEq, Repr

namespace Numeral

/-- The number that a reader of doubles makes of the text. -/
def value : Numeral → ℕ
  | digits n => toDouble n
  | scientific significand exponent => toDouble (significand*10^exponent)

/-- The conversion `%.Pg`: at most `precision` significant digits. -/
def printG (precision n : ℕ) : Numeral :=
  if n < 10^precision then digits n
  else
    let exponent := Nat.log 10 n+1-precision
    scientific (roundAt (10^exponent) n / 10^exponent) exponent

theorem value_printG {precision n : ℕ} (hprecision : 0 < precision) (hn : n ≤ 10^precision)
    (hdouble : n ≤ 2^53) : (printG precision n).value = n := by
  rcases hn.lt_or_eq with hlt | rfl
  · rw [printG,if_pos hlt,value,toDouble_of_le hdouble]
  · obtain ⟨p,rfl⟩ := Nat.exists_eq_succ_of_ne_zero hprecision.ne'
    have hlog : Nat.log 10 (10^(p+1))+1-(p+1) = 1 := by
      rw [Nat.log_pow (by norm_num)]
      omega
    have hround : roundAt 10 (10*10^p) = 10*10^p := roundAt_mul (by norm_num) _
    have hread : 10*10^p/10*10 = 10*10^p := by omega
    simp only [printG,lt_irrefl,if_false,value,Nat.succ_eq_add_one,hlog,pow_one]
    rw [pow_succ',hround,hread,toDouble_of_le (by rwa [Nat.succ_eq_add_one,pow_succ'] at hdouble)]

end Numeral

section Significant

/-- The integer nearest to a number; of two equally near ones the even one. -/
def roundHalfEven (q : ℚ) : ℤ :=
  let rest := q-⌊q⌋
  if rest < 1/2 then ⌊q⌋
  else if 1/2 < rest then ⌊q⌋+1
  else if ⌊q⌋ % 2 = 0 then ⌊q⌋ else ⌊q⌋+1

/-- What a text with at most `precision` significant digits holds of a number. -/
def significant (precision : ℕ) (q : ℚ) : ℚ :=
  if q = 0 then 0
  else
    let unit : ℚ := 10^(Int.log 10 |q|+1-precision)
    roundHalfEven (q/unit)*unit

theorem roundHalfEven_intCast (k : ℤ) : roundHalfEven k = k := by
  simp [roundHalfEven]

theorem roundHalfEven_bounds (q : ℚ) : ⌊q⌋ ≤ roundHalfEven q ∧ roundHalfEven q ≤ ⌊q⌋+1 := by
  unfold roundHalfEven
  dsimp only
  split_ifs <;> omega

variable {precision : ℕ} {q : ℚ}

theorem significant_of_digits (hprecision : 0 < precision) {k e : ℤ} (hk : |k| ≤ 10^precision) :
    significant precision (k*10^e) = k*10^e := by
  have hten : (0 : ℚ) < 10 := by norm_num
  by_cases hzero : k = 0
  · simp [hzero,significant]
  -- The case of fewer digits; a power of ten has one.
  have hshort : ∀ {k e : ℤ}, k ≠ 0 → |k| < 10^precision →
      significant precision (k*10^e) = k*10^e := by
    intro k e hne hlt
    have hpos : (0 : ℚ) < |(k : ℚ)*10^e| := by
      rw [abs_pos]
      exact mul_ne_zero (by exact_mod_cast hne) (zpow_ne_zero _ hten.ne')
    have hbound : |(k : ℚ)*10^e| < (10 : ℕ)^((precision : ℤ)+e) := by
      rw [abs_mul,abs_of_pos (zpow_pos hten e),Nat.cast_ofNat,zpow_add₀ hten.ne',zpow_natCast]
      exact mul_lt_mul_of_pos_right (by exact_mod_cast hlt) (zpow_pos hten e)
    have hlog : Int.log 10 |(k : ℚ)*10^e| < precision+e :=
      (Int.lt_zpow_iff_log_lt (by norm_num) hpos).mp hbound
    obtain ⟨m,hm⟩ : ∃ m : ℕ, e = Int.log 10 |(k : ℚ)*10^e|+1-precision+m :=
      ⟨(e-(Int.log 10 |(k : ℚ)*10^e|+1-precision)).toNat,by omega⟩
    rw [significant,if_neg (abs_pos.mp hpos)]
    dsimp only
    generalize Int.log 10 |(k : ℚ)*10^e|+1-precision = u at hm ⊢
    have hquot : (k : ℚ)*10^e/10^u = ((k*10^m : ℤ) : ℚ) := by
      rw [hm,zpow_add₀ hten.ne',zpow_natCast,mul_div_assoc,mul_div_cancel_left₀ _
        (zpow_ne_zero _ hten.ne')]
      push_cast
      rfl
    rw [hquot,roundHalfEven_intCast,← hquot,div_mul_cancel₀ _ (zpow_ne_zero _ hten.ne')]
  rcases hk.lt_or_eq with hlt | heq
  · exact hshort hzero hlt
  · have hone : (1 : ℤ) < 10^precision := one_lt_pow₀ (by norm_num) hprecision.ne'
    have hsign : (k : ℚ)*10^e = ((k.sign : ℤ) : ℚ)*10^(precision+e) := by
      have hsplit : (k : ℚ) = k.sign*10^precision := by
        have hmul := Int.sign_mul_abs k
        rw [heq] at hmul
        exact_mod_cast hmul.symm
      rw [zpow_add₀ hten.ne',zpow_natCast,← mul_assoc,← hsplit]
    have habs : |k.sign| = 1 := Int.abs_sign_of_ne_zero hzero
    have hsignne : k.sign ≠ 0 := fun h => hzero (Int.sign_eq_zero_iff_zero.mp h)
    rw [hsign]
    exact hshort hsignne (habs ▸ hone)

theorem exists_significant (precision : ℕ) (q : ℚ) :
    ∃ k e : ℤ, |k| ≤ 10^precision ∧ significant precision q = k*10^e := by
  have hten : (0 : ℚ) < 10 := by norm_num
  by_cases hq : q = 0
  · exact ⟨0,0,by simp,by simp [significant,hq]⟩
  refine ⟨_,_,?_,by rw [significant,if_neg hq]⟩
  set u := Int.log 10 |q|+1-precision with hu
  have hlt : |q/10^u| < 10^precision := by
    have hlog := Int.lt_zpow_succ_log_self (b := 10) (by norm_num) |q|
    rw [abs_div,abs_of_pos (zpow_pos hten u),div_lt_iff₀ (zpow_pos hten u),← zpow_natCast,
      ← zpow_add₀ hten.ne']
    have hexp : (precision : ℤ)+u = Int.log 10 |q|+1 := by omega
    rw [hexp]
    exact_mod_cast hlog
  obtain ⟨hlow,hhigh⟩ := roundHalfEven_bounds (q/10^u)
  obtain ⟨hleft,hright⟩ := abs_lt.mp hlt
  have hfloor : ⌊q/10^u⌋ < 10^precision := by
    rw [Int.floor_lt]
    exact_mod_cast hright
  have hfloor' : -10^precision ≤ ⌊q/10^u⌋ := by
    rw [Int.le_floor]
    exact_mod_cast hleft.le
  rw [abs_le]
  omega

theorem significant_significant (hprecision : 0 < precision) (q : ℚ) :
    significant precision (significant precision q) = significant precision q := by
  obtain ⟨k,e,hk,hq⟩ := exists_significant precision q
  rw [hq,significant_of_digits hprecision hk]

end Significant

end Library
