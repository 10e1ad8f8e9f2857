import WebSyncPlay.Library.TextMatch
import Mathlib.Data.List.GetD
import Mathlib.Tactic.IntervalCases
import Mathlib.Tactic.Ring

/-! IP addresses, blocks of them, and their texts: as URL parsers write them (lower case, the first
longest run of zero groups left out), and as name lookups do. -/
namespace Library

structure Ipv4Address where
  a : UInt8
  b : UInt8
  c : UInt8
  d : UInt8
  deriving DecidableEq

structure Ipv6Address where
  groups : List UInt16
  length_eq : groups.length = 8
  deriving DecidableEq

/-- An address is in a block when its first bits are those of the block. -/
def InBlock (width base bits value : ℕ) : Prop :=
  value/2^(width-bits) = base/2^(width-bits)

instance (width base bits value : ℕ) : Decidable (InBlock width base bits value) :=
  inferInstanceAs (Decidable (_ = _))

def Ipv4Address.value (a : Ipv4Address) : ℕ :=
  a.a.toNat*2^24+a.b.toNat*2^16+a.c.toNat*2^8+a.d.toNat

def Ipv4Address.text (a : Ipv4Address) : List Char :=
  ['.'].intercalate ([a.a,a.b,a.c,a.d].map fun byte => Nat.toDigits 10 byte.toNat)

namespace Ipv6Address

def value (a : Ipv6Address) : ℕ := a.groups.foldl (fun n g => 2^16*n+g.toNat) 0

/-- The last 32 bits. -/
def low (a : Ipv6Address) : Ipv4Address :=
  let high := (a.groups.getD 6 0).toNat
  let low := (a.groups.getD 7 0).toNat
  ⟨.ofNat (high/2^8),.ofNat (high % 2^8),.ofNat (low/2^8),.ofNat (low % 2^8)⟩

def zerosFrom (groups : List UInt16) (i : ℕ) : ℕ :=
  ((groups.drop i).takeWhile (· = 0)).length

/-- Where the first longest run of zero groups begins, and its length. -/
def longestZeros (groups : List UInt16) : ℕ × ℕ :=
  (List.range groups.length).foldl
    (fun best i => if best.2 < zerosFrom groups i then (i,zerosFrom groups i) else best) (0,0)

def compressed (a : Ipv6Address) : Option (ℕ × ℕ) :=
  if 2 ≤ (longestZeros a.groups).2 then some (longestZeros a.groups) else none

def hexText (g : UInt16) : List Char := Nat.toDigits 16 g.toNat

def groupsText (groups : List UInt16) : List Char := [':'].intercalate (groups.map hexText)

def urlText (a : Ipv6Address) : List Char :=
  match a.compressed with
  | none => groupsText a.groups
  | some (base,len) =>
    groupsText (a.groups.take base) ++ [':',':'] ++ groupsText (a.groups.drop (base+len))

/-- Lookups write the end of an address as an IPv4 address when only that, or that and ffff, is
left. -/
def lookupText (a : Ipv6Address) : List Char :=
  if a.compressed = some (0,6) then "::".toList ++ a.low.text
  else if a.compressed = some (0,5) ∧ a.groups.getD 5 0 = 0xffff then
    "::ffff:".toList ++ a.low.text
  else a.urlText

end Ipv6Address

section Digits

theorem digitChar_injOn {m n : ℕ} (hm : m < 16) (hn : n < 16)
    (h : Nat.digitChar m = Nat.digitChar n) : m = n := by
  have hall : ∀ i < 16, ∀ j < 16, Nat.digitChar i = Nat.digitChar j → i = j := by decide
  exact hall m hm n hn h

theorem toDigits_eq_append {b n : ℕ} (hb : 1 < b) (h : b ≤ n) :
    Nat.toDigits b n = Nat.toDigits b (n/b) ++ [Nat.digitChar (n % b)] :=
  Nat.toDigits_of_base_le hb h

theorem exists_digit_of_mem_toDigits {b n : ℕ} (hb : 1 < b) {c : Char}
    (hc : c ∈ Nat.toDigits b n) : ∃ d < b, c = Nat.digitChar d := by
  induction n using Nat.strong_induction_on with
  | _ n ih =>
    by_cases hn : n < b
    · rw [Nat.toDigits_of_lt_base hn,List.mem_singleton] at hc
      exact ⟨n,hn,hc⟩
    · rw [toDigits_eq_append hb (Nat.le_of_not_lt hn),List.mem_append,List.mem_singleton] at hc
      rcases hc with hc | rfl
      · exact ih (n/b) (Nat.div_lt_self (by omega) hb) hc
      · exact ⟨n % b,Nat.mod_lt n (by omega),rfl⟩

theorem foldl_toDigits {b : ℕ} (hb : 1 < b) {value : Char → ℕ}
    (hvalue : ∀ d < b, value (Nat.digitChar d) = d) (n : ℕ) :
    (Nat.toDigits b n).foldl (fun m c => b*m+value c) 0 = n := by
  induction n using Nat.strong_induction_on with
  | _ n ih =>
    by_cases hn : n < b
    · rw [Nat.toDigits_of_lt_base hn,List.foldl_cons,List.foldl_nil,hvalue n hn]
      omega
    · rw [toDigits_eq_append hb (Nat.le_of_not_lt hn),List.foldl_append,
        ih (n/b) (Nat.div_lt_self (by omega) hb),List.foldl_cons,List.foldl_nil,
        hvalue _ (Nat.mod_lt n (by omega))]
      exact Nat.div_add_mod n b

theorem prefix_toDigits_iff {x y n : ℕ} (hx : 0 < x) (hx' : x < 16) (hy : y < 16) :
    [Nat.digitChar x,Nat.digitChar y] <+: Nat.toDigits 16 n ↔ ∃ k, n/16^k = 16*x+y := by
  induction n using Nat.strong_induction_on with
  | _ n ih =>
    by_cases hone : n < 16
    · rw [Nat.toDigits_of_lt_base hone]
      constructor
      · intro h
        have hlength := h.length_le
        simp at hlength
      · rintro ⟨k,hk⟩
        have hle := Nat.div_le_self n (16^k)
        omega
    have hdigits := toDigits_eq_append (b := 16) (by decide) (Nat.le_of_not_lt hone)
    by_cases htwo : n < 256
    · have hfirst : n/16 < 16 := by omega
      rw [hdigits,Nat.toDigits_of_lt_base hfirst]
      constructor
      · intro h
        have hsame := h.eq_of_length rfl
        simp only [List.cons_append,List.nil_append,List.cons.injEq,and_true] at hsame
        have hquot := digitChar_injOn hx' hfirst hsame.1
        have hrem := digitChar_injOn hy (Nat.mod_lt n (by decide)) hsame.2
        exact ⟨0,by rw [pow_zero,Nat.div_one]; omega⟩
      · rintro ⟨k,hk⟩
        cases k with
        | zero =>
          rw [pow_zero,Nat.div_one] at hk
          have hquot : n/16 = x := by omega
          have hrem : n % 16 = y := by omega
          rw [hquot,hrem]
          exact List.prefix_rfl
        | succ k =>
          rw [pow_succ',← Nat.div_div_eq_div_mul] at hk
          have hle := Nat.div_le_self (n/16) (16^k)
          omega
    · have hlong : 2 ≤ (Nat.toDigits 16 (n/16)).length := by
        by_contra hshort
        have hle := (Nat.length_toDigits_le_iff (n := n/16) (k := 1) (b := 16) (by decide)
          (by decide)).mp (by omega)
        omega
      rw [hdigits]
      have hstart : [Nat.digitChar x,Nat.digitChar y] <+:
          Nat.toDigits 16 (n/16) ++ [Nat.digitChar (n % 16)] ↔
            [Nat.digitChar x,Nat.digitChar y] <+: Nat.toDigits 16 (n/16) := by
        constructor
        · intro h
          exact List.prefix_of_prefix_length_le h (List.prefix_append _ _) hlong
        · intro h
          exact h.trans (List.prefix_append _ _)
      rw [hstart,ih (n/16) (by omega)]
      constructor
      · rintro ⟨k,hk⟩
        exact ⟨k+1,by rw [pow_succ',← Nat.div_div_eq_div_mul,hk]⟩
      · rintro ⟨k,hk⟩
        cases k with
        | zero =>
          rw [pow_zero,Nat.div_one] at hk
          omega
        | succ k =>
          rw [pow_succ',← Nat.div_div_eq_div_mul] at hk
          exact ⟨k,hk⟩

end Digits

section Pieces

namespace Ipv6Address

variable {a : Ipv6Address}

def sidePieces (groups : List UInt16) : List (List Char) :=
  if groups = [] then [[]] else groups.map hexText

def pieces (a : Ipv6Address) : List (List Char) :=
  match a.compressed with
  | none => a.groups.map hexText
  | some (base,len) =>
    sidePieces (a.groups.take base) ++ [] :: sidePieces (a.groups.drop (base+len))

theorem exists_groups (a : Ipv6Address) :
    ∃ g₀ g₁ g₂ g₃ g₄ g₅ g₆ g₇, a.groups = [g₀,g₁,g₂,g₃,g₄,g₅,g₆,g₇] := by
  obtain ⟨groups,hlength⟩ := a
  match groups,hlength with
  | [g₀,g₁,g₂,g₃,g₄,g₅,g₆,g₇],_ => exact ⟨g₀,g₁,g₂,g₃,g₄,g₅,g₆,g₇,rfl⟩

theorem hexText_ne_nil (g : UInt16) : hexText g ≠ [] := Nat.toDigits_ne_nil

theorem hexText_inj {g g' : UInt16} (h : hexText g = hexText g') : g = g' := by
  let value : Char → ℕ := fun c => if c.isDigit then c.toNat-48 else c.toNat-87
  have hvalue : ∀ d < 16, value (Nat.digitChar d) = d := by decide
  have hread := foldl_toDigits (b := 16) (by decide) hvalue
  rw [← UInt16.toNat_inj,← hread g.toNat,← hread g'.toNat]
  exact congrArg _ h

theorem not_mem_hexText {c : Char} (hc : ∀ d < 16, c ≠ Nat.digitChar d) (g : UInt16) :
    c ∉ hexText g := by
  intro hmem
  obtain ⟨d,hd,hsame⟩ := exists_digit_of_mem_toDigits (by decide) hmem
  exact hc d hd hsame

theorem colon_not_mem_hexText (g : UInt16) : ':' ∉ hexText g :=
  not_mem_hexText (by decide) g

theorem sidePieces_ne_nil (groups : List UInt16) : sidePieces groups ≠ [] := by
  rw [sidePieces]
  split
  · exact List.cons_ne_nil _ _
  · rename_i h
    simpa using h

theorem colon_not_mem_sidePieces (groups : List UInt16) :
    ∀ p ∈ sidePieces groups, ':' ∉ p := by
  intro p hp
  rw [sidePieces] at hp
  split at hp
  · rw [List.mem_singleton.mp hp]
    exact List.not_mem_nil
  · obtain ⟨g,-,rfl⟩ := List.mem_map.mp hp
    exact colon_not_mem_hexText g

theorem intercalate_sidePieces (groups : List UInt16) :
    [':'].intercalate (sidePieces groups) = groupsText groups := by
  rw [sidePieces,groupsText]
  split
  · rename_i h
    rw [h]
    rfl
  · rfl

theorem pieces_ne_nil (a : Ipv6Address) : a.pieces ≠ [] := by
  rw [pieces]
  split
  · intro hnil
    have hlength := a.length_eq
    rw [List.map_eq_nil_iff.mp hnil] at hlength
    cases hlength
  · exact List.append_ne_nil_of_right_ne_nil _ (List.cons_ne_nil _ _)

theorem colon_not_mem_pieces (a : Ipv6Address) : ∀ p ∈ a.pieces, ':' ∉ p := by
  intro p hp
  rw [pieces] at hp
  split at hp
  · obtain ⟨g,-,rfl⟩ := List.mem_map.mp hp
    exact colon_not_mem_hexText g
  · rcases List.mem_append.mp hp with hp | hp
    · exact colon_not_mem_sidePieces _ p hp
    rcases List.mem_cons.mp hp with rfl | hp
    · exact List.not_mem_nil
    · exact colon_not_mem_sidePieces _ p hp

theorem intercalate_pieces (a : Ipv6Address) : [':'].intercalate a.pieces = a.urlText := by
  rw [pieces,urlText]
  cases a.compressed with
  | none => rfl
  | some run =>
    obtain ⟨base,len⟩ := run
    dsimp only
    rw [intercalate_append (sidePieces_ne_nil _) (List.cons_ne_nil _ _),
      List.intercalate_cons_of_ne_nil (sidePieces_ne_nil _),intercalate_sidePieces,
      intercalate_sidePieces]
    simp

theorem longestZeros_run (groups : List UInt16) :
    (longestZeros groups).2 = 0 ∨
      (longestZeros groups).2 = zerosFrom groups (longestZeros groups).1 := by
  rw [longestZeros]
  generalize groups.length = n
  induction n with
  | zero => exact Or.inl rfl
  | succ n ih =>
    rw [List.range_succ,List.foldl_append,List.foldl_cons,List.foldl_nil]
    split
    · exact Or.inr rfl
    · exact ih

theorem compressed_eq_some {base len : ℕ} (h : a.compressed = some (base,len)) :
    2 ≤ len ∧ base+len ≤ 8 ∧ ∀ i, base ≤ i → i < base+len → a.groups.getD i 0 = 0 := by
  rw [compressed] at h
  split at h
  · rename_i htwo
    have hpair := Option.some.inj h
    have hrun := longestZeros_run a.groups
    rw [hpair] at htwo hrun
    have hlen : len = zerosFrom a.groups base := hrun.resolve_left (by dsimp only at htwo ⊢; omega)
    have hle : len ≤ 8-base := by
      rw [hlen,zerosFrom,← a.length_eq,← List.length_drop]
      exact (List.takeWhile_prefix _).length_le
    dsimp only at htwo
    refine ⟨htwo,by omega,fun i hlow hup => ?_⟩
    have hi : i-base < ((a.groups.drop base).takeWhile (· = 0)).length := by
      rw [← zerosFrom,← hlen]
      omega
    have hzero := List.mem_takeWhile_imp (List.getElem_mem hi)
    rw [(List.takeWhile_prefix _).getElem hi,List.getElem_drop] at hzero
    have hsum : base+(i-base) = i := by omega
    have hlength := a.length_eq
    rw [List.getD_eq_getElem _ _ (by omega)]
    simpa [hsum] using hzero
  · cases h

/-- Groups 5, 6 and 7 are written out. -/
def EndShown (a : Ipv6Address) : Prop :=
  ∀ base len, a.compressed = some (base,len) → base+len ≤ 5

theorem suffix_pieces_iff {p q r : List Char} (hp : p ≠ []) (hq : q ≠ []) (hr : r ≠ []) :
    [p,q,r] <:+ a.pieces ↔ a.EndShown ∧ p = hexText (a.groups.getD 5 0) ∧
      q = hexText (a.groups.getD 6 0) ∧ r = hexText (a.groups.getD 7 0) := by
  have hall : [p,q,r] <:+ a.groups.map hexText ↔ p = hexText (a.groups.getD 5 0) ∧
      q = hexText (a.groups.getD 6 0) ∧ r = hexText (a.groups.getD 7 0) := by
    obtain ⟨g₀,g₁,g₂,g₃,g₄,g₅,g₆,g₇,hgroups⟩ := a.exists_groups
    rw [hgroups,List.suffix_iff_eq_drop]
    simp
  rw [pieces,EndShown]
  cases hrun : a.compressed with
  | none => simpa using hall
  | some run =>
    obtain ⟨base,len⟩ := run
    obtain ⟨-,hle,-⟩ := compressed_eq_some hrun
    have hdrop : (a.groups.drop (base+len)).length = 8-(base+len) := by
      rw [List.length_drop,a.length_eq]
    dsimp only
    by_cases hend : base+len ≤ 5
    · have hside : sidePieces (a.groups.drop (base+len)) =
          (a.groups.drop (base+len)).map hexText := by
        rw [sidePieces,if_neg]
        intro hnil
        rw [hnil,List.length_nil] at hdrop
        omega
      have hthree : [p,q,r].length ≤ ((a.groups.drop (base+len)).map hexText).length := by
        rw [List.length_map,hdrop]
        simp only [List.length_cons,List.length_nil]
        omega
      have htail : (a.groups.drop (base+len)).map hexText <:+ a.groups.map hexText :=
        (List.drop_suffix _ _).map _
      have hwhole : (a.groups.drop (base+len)).map hexText <:+
          sidePieces (a.groups.take base) ++ [] :: (a.groups.drop (base+len)).map hexText :=
        (List.suffix_cons _ _).trans (List.suffix_append _ _)
      rw [hside,← hall]
      constructor
      · intro h
        refine ⟨?_,(List.suffix_of_suffix_length_le h hwhole hthree).trans htail⟩
        rintro base' len' hsame
        obtain ⟨rfl,rfl⟩ := Prod.mk.inj (Option.some.inj hsame)
        exact hend
      · rintro ⟨-,h⟩
        exact (List.suffix_of_suffix_length_le h htail hthree).trans hwhole
    · constructor
      · intro h
        -- The piece left empty is one of the last three.
        have hshort : ([] :: sidePieces (a.groups.drop (base+len))).length ≤ [p,q,r].length := by
          rw [List.length_cons,sidePieces]
          split
          · simp
          · rw [List.length_map,hdrop]
            simp only [List.length_cons,List.length_nil]
            omega
        have hempty := List.suffix_of_suffix_length_le
          (List.suffix_append (sidePieces (a.groups.take base)) _) h hshort
        have hmem := hempty.mem (List.mem_cons_self)
        simp only [List.mem_cons,List.not_mem_nil,or_false] at hmem
        rcases hmem with rfl | rfl | rfl
        · exact absurd rfl hp
        · exact absurd rfl hq
        · exact absurd rfl hr
      · rintro ⟨hshown,-⟩
        exact absurd (hshown base len rfl) hend

/-- A text begins with its first group, unless the groups left out come first. -/
theorem pieces_cases (a : Ipv6Address) :
    (∃ len, a.compressed = some (0,len) ∧
      a.pieces = [] :: [] :: sidePieces (a.groups.drop len)) ∨
    ∃ rest, rest ≠ [] ∧ a.pieces = hexText (a.groups.getD 0 0) :: rest := by
  obtain ⟨g₀,g₁,g₂,g₃,g₄,g₅,g₆,g₇,hgroups⟩ := a.exists_groups
  rw [pieces]
  cases hrun : a.compressed with
  | none =>
    refine Or.inr ⟨_,?_,by rw [hgroups]; rfl⟩
    exact List.cons_ne_nil _ _
  | some run =>
    obtain ⟨base,len⟩ := run
    cases base with
    | zero =>
      refine Or.inl ⟨len,rfl,?_⟩
      simp [sidePieces]
    | succ base =>
      refine Or.inr ⟨(a.groups.tail.take base).map hexText ++
        [] :: sidePieces (a.groups.drop (base+1+len)),?_,?_⟩
      · exact List.append_ne_nil_of_right_ne_nil _ (List.cons_ne_nil _ _)
      · rw [hgroups]
        rfl

theorem value_eq {g₀ g₁ g₂ g₃ g₄ g₅ g₆ g₇ : UInt16} (h : a.groups = [g₀,g₁,g₂,g₃,g₄,g₅,g₆,g₇]) :
    a.value = g₀.toNat*2^112+g₁.toNat*2^96+g₂.toNat*2^80+g₃.toNat*2^64+g₄.toNat*2^48+
      g₅.toNat*2^32+g₆.toNat*2^16+g₇.toNat := by
  rw [value,h]
  simp only [List.foldl_cons,List.foldl_nil]
  ring

theorem groups_of_value_lt_two (h : a.value < 2) :
    a.groups = [0,0,0,0,0,0,0,UInt16.ofNat a.value] := by
  obtain ⟨g₀,g₁,g₂,g₃,g₄,g₅,g₆,g₇,hgroups⟩ := a.exists_groups
  have hvalue := value_eq hgroups
  have hzero : ∀ g : UInt16, g.toNat = 0 → g = 0 := fun g hg => UInt16.toNat_inj.mp hg
  rw [hgroups,hzero g₀ (by omega),hzero g₁ (by omega),hzero g₂ (by omega),hzero g₃ (by omega),
    hzero g₄ (by omega),hzero g₅ (by omega),hzero g₆ (by omega)]
  have hlast : a.value = g₇.toNat := by omega
  rw [hlast,UInt16.ofNat_toNat]

theorem value_of_groups {v : UInt16} (h : a.groups = [0,0,0,0,0,0,0,v]) : a.value = v.toNat := by
  rw [value_eq h]
  simp

theorem groups_of_compressed_zero {len : ℕ} (h : a.compressed = some (0,len)) :
    a.groups = List.replicate len 0 ++ a.groups.drop len := by
  obtain ⟨-,hle,hzero⟩ := compressed_eq_some h
  rw [zero_add] at hle
  have htake : a.groups.take len = List.replicate len 0 := by
    rw [List.eq_replicate_iff,List.length_take,a.length_eq]
    refine ⟨by omega,fun g hg => ?_⟩
    obtain ⟨i,hi,rfl⟩ := List.getElem_of_mem hg
    rw [List.length_take] at hi
    have hlength := a.length_eq
    have hget := hzero i (Nat.zero_le i) (by omega)
    rw [List.getD_eq_getElem _ _ (by omega)] at hget
    rw [List.getElem_take,hget]
  calc a.groups = a.groups.take len ++ a.groups.drop len := (List.take_append_drop len _).symm
    _ = _ := by rw [htake]

theorem pieces_eq_any : a.pieces = [[],[],[]] ↔ a.value = 0 := by
  constructor
  · intro h
    rcases a.pieces_cases with ⟨len,hrun,hpieces⟩ | ⟨rest,-,hpieces⟩
    · rw [hpieces] at h
      have hside : sidePieces (a.groups.drop len) = [[]] := by simpa using h
      have hnil : a.groups.drop len = [] := by
        rw [sidePieces] at hside
        split at hside
        · assumption
        · obtain ⟨g,-,hg⟩ := List.map_eq_singleton_iff.mp hside
          exact absurd hg (hexText_ne_nil g)
      have hgroups := groups_of_compressed_zero hrun
      rw [hnil,List.append_nil] at hgroups
      have hlen : len = 8 := by
        rw [← a.length_eq,hgroups,List.length_replicate]
      subst hlen
      exact value_of_groups hgroups
    · rw [hpieces] at h
      exact absurd (List.cons.inj h).1 (hexText_ne_nil _)
  · intro h
    have hgroups := groups_of_value_lt_two (a := a) (by omega)
    rw [h] at hgroups
    obtain ⟨groups,hlength⟩ := a
    obtain rfl : groups = [0,0,0,0,0,0,0,0] := hgroups
    rfl

theorem pieces_eq_loopback : a.pieces = [[],[],['1']] ↔ a.value = 1 := by
  constructor
  · intro h
    rcases a.pieces_cases with ⟨len,hrun,hpieces⟩ | ⟨rest,-,hpieces⟩
    · rw [hpieces] at h
      have hside : sidePieces (a.groups.drop len) = [['1']] := by simpa using h
      have hone : ∃ g, a.groups.drop len = [g] ∧ hexText g = ['1'] := by
        rw [sidePieces] at hside
        split at hside
        · exact absurd (List.cons.inj hside).1.symm (List.cons_ne_nil _ _)
        · exact List.map_eq_singleton_iff.mp hside
      obtain ⟨g,hdrop,hg⟩ := hone
      obtain rfl : g = 1 := hexText_inj (hg.trans (show ['1'] = hexText 1 from rfl))
      have hlen : len = 7 := by
        have hlength := congrArg List.length hdrop
        rw [List.length_drop,a.length_eq,List.length_singleton] at hlength
        omega
      have hgroups := groups_of_compressed_zero hrun
      rw [hdrop,hlen] at hgroups
      exact value_of_groups hgroups
    · rw [hpieces] at h
      exact absurd (List.cons.inj h).1 (hexText_ne_nil _)
  · intro h
    have hgroups := groups_of_value_lt_two (a := a) (by omega)
    rw [h] at hgroups
    obtain ⟨groups,hlength⟩ := a
    obtain rfl : groups = [0,0,0,0,0,0,0,1] := hgroups
    rfl

/-- Nothing but zeros before ffff: exactly the first five groups are left out. -/
theorem compressed_mapped {g₆ g₇ : UInt16} (h : a.groups = [0,0,0,0,0,0xffff,g₆,g₇]) :
    a.compressed = some (0,5) := by
  rw [compressed,h,longestZeros]
  by_cases h₆ : g₆ = 0
  · by_cases h₇ : g₇ = 0
    · rw [h₆,h₇]
      rfl
    · simp [h₆,h₇,List.range,List.range.loop,zerosFrom]
  · by_cases h₇ : g₇ = 0
    · simp [h₆,h₇,List.range,List.range.loop,zerosFrom]
    · simp [h₆,h₇,List.range,List.range.loop,zerosFrom]

end Ipv6Address

end Pieces

end Library
