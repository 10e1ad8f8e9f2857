import Mathlib

/-! Strings with the white space of a scripting language. -/
namespace Library

/-- White space and line terminators, the byte order mark included. -/
def isWhiteSpace (c : Char) : Bool :=
  let n := c.toNat
  (9 ≤ n && n ≤ 13) || n == 0x20 || n == 0xA0 || n == 0x1680 || (0x2000 ≤ n && n ≤ 0x200A) ||
    n == 0x2028 || n == 0x2029 || n == 0x202F || n == 0x205F || n == 0x3000 || n == 0xFEFF

def trim (s : String) : String :=
  String.ofList ((s.toList.dropWhile isWhiteSpace).reverse.dropWhile isWhiteSpace).reverse

theorem dropWhile_rdropWhile {α : Type*} (p : α → Bool) (l : List α) :
    ((l.dropWhile p).rdropWhile p).dropWhile p = (l.dropWhile p).rdropWhile p := by
  have hprefix := List.rdropWhile_prefix p (l := l.dropWhile p)
  cases hkept : (l.dropWhile p).rdropWhile p with
  | nil => rfl
  | cons a kept =>
    rw [hkept] at hprefix
    obtain ⟨rest,hrest⟩ := hprefix
    have hhead : ¬ p a = true := by
      intro ha
      have hagain := List.dropWhile_idempotent p l
      rw [← hrest,List.cons_append,List.dropWhile_cons_of_pos ha] at hagain
      have hlen := congrArg List.length hagain
      have hle := (List.dropWhile_suffix p (l := kept ++ rest)).length_le
      simp only [List.length_cons] at hlen
      omega
    exact List.dropWhile_cons_of_neg hhead

@[simp] theorem trim_trim (s : String) : trim (trim s) = trim s := by
  have hends : ∀ l : List Char, (l.reverse.dropWhile isWhiteSpace).reverse =
      l.rdropWhile isWhiteSpace := fun _ => rfl
  unfold trim
  simp only [String.toList_ofList,hends,dropWhile_rdropWhile,List.rdropWhile_idempotent]

theorem trim_eq_self {s : String} {c d : Char} {tail init : List Char} (hc : isWhiteSpace c = false)
    (hd : isWhiteSpace d = false) (hfirst : s.toList = c :: tail) (hlast : s.toList = init ++ [d]) :
    trim s = s := by
  unfold trim
  rw [hfirst,List.dropWhile_cons_of_neg (by simp [hc]),← hfirst,hlast,List.reverse_append,
    List.reverse_singleton,List.singleton_append,List.dropWhile_cons_of_neg (by simp [hd]),
    List.reverse_cons,List.reverse_reverse,← hlast,String.ofList_toList]

/-! The same on lists of characters. -/
section Trim

def trimEnd (s : List Char) : List Char := s.rdropWhile isWhiteSpace

def trimText (s : List Char) : List Char := trimEnd (s.dropWhile isWhiteSpace)

def IsBlank (s : List Char) : Prop := ∀ c ∈ s, isWhiteSpace c = true

def IsTrimmed (s : List Char) : Prop :=
  (∀ c ∈ s.head?, isWhiteSpace c = false) ∧ ∀ c ∈ s.getLast?, isWhiteSpace c = false

theorem trimEnd_append {s trail : List Char} (htrail : IsBlank trail) :
    trimEnd (s ++ trail) = trimEnd s := by
  induction trail using List.reverseRecOn with
  | nil => rw [List.append_nil]
  | append_singleton trail c ih =>
    rw [trimEnd,← List.append_assoc,List.rdropWhile_concat_pos _ _ _ (htrail c (by simp))]
    exact ih fun d hd => htrail d (List.mem_append_left _ hd)

theorem trimEnd_eq_self {s : List Char} (h : ∀ c ∈ s.getLast?, isWhiteSpace c = false) :
    trimEnd s = s := by
  refine List.rdropWhile_eq_self_iff.mpr ?_
  intro hs hwhite
  have hlast := h _ (List.getLast?_eq_some_getLast hs)
  rw [hlast] at hwhite
  cases hwhite

theorem dropWhile_lead {lead s : List Char} (hlead : IsBlank lead)
    (hs : ∀ c ∈ s.head?, isWhiteSpace c = false) : (lead ++ s).dropWhile isWhiteSpace = s := by
  rw [List.dropWhile_append_of_pos hlead]
  cases s with
  | nil => rfl
  | cons c s => exact List.dropWhile_cons_of_neg (by simpa using hs c rfl)

theorem trimText_of {lead mid trail : List Char} (hlead : IsBlank lead) (htrail : IsBlank trail)
    (hmid : IsTrimmed mid) (hne : mid ≠ []) :
    trimText (lead ++ mid ++ trail) = mid ∧ trimEnd (lead ++ mid ++ trail) = lead ++ mid := by
  have hhead : ∀ c ∈ (mid ++ trail).head?, isWhiteSpace c = false := by
    cases mid with
    | nil => exact absurd rfl hne
    | cons c mid => exact hmid.1
  have hlast : ∀ c ∈ (lead ++ mid).getLast?, isWhiteSpace c = false := by
    intro c hc
    rw [List.getLast?_append] at hc
    cases hmidLast : mid.getLast? with
    | none => exact absurd (List.getLast?_eq_none_iff.mp hmidLast) hne
    | some d =>
      rw [hmidLast] at hc
      obtain rfl : d = c := Option.some.inj hc
      exact hmid.2 d hmidLast
  constructor
  · rw [trimText,List.append_assoc,dropWhile_lead hlead hhead,trimEnd_append htrail,
      trimEnd_eq_self hmid.2]
  · rw [trimEnd_append htrail,trimEnd_eq_self hlast]

theorem trimText_of_isBlank {s : List Char} (h : IsBlank s) : trimText s = [] := by
  have hdrop := dropWhile_lead (s := []) h (by simp)
  rw [List.append_nil] at hdrop
  rw [trimText,hdrop]
  rfl

theorem exists_trim (s : List Char) :
    ∃ lead trail, s = lead ++ trimText s ++ trail ∧ IsBlank lead ∧ IsBlank trail ∧
      IsTrimmed (trimText s) := by
  refine ⟨s.takeWhile isWhiteSpace,(s.dropWhile isWhiteSpace).rtakeWhile isWhiteSpace,?_,?_,?_,
    ?_,?_⟩
  · rw [List.append_assoc,trimText,trimEnd,List.rdropWhile_append_rtakeWhile,
      List.takeWhile_append_dropWhile]
  · exact fun c hc => List.mem_takeWhile_imp hc
  · exact fun c hc => List.mem_rtakeWhile_imp hc
  · intro c hc
    have hsame := dropWhile_rdropWhile isWhiteSpace s
    have hhead := List.head?_dropWhile_not isWhiteSpace (trimText s)
    rw [show (trimText s).dropWhile isWhiteSpace = trimText s from hsame,Option.mem_def.mp hc]
      at hhead
    simpa using hhead
  · intro c hc
    have hne : trimText s ≠ [] := by
      intro hnil
      rw [hnil] at hc
      cases hc
    have hlast : ¬isWhiteSpace ((trimText s).getLast hne) = true :=
      List.rdropWhile_last_not isWhiteSpace (s.dropWhile isWhiteSpace) hne
    rw [Option.mem_def,List.getLast?_eq_some_getLast hne] at hc
    obtain rfl := Option.some.inj hc
    simpa using hlast

theorem trimText_of_isTrimmed {s : List Char} (h : IsTrimmed s) : trimText s = s := by
  by_cases hs : s = []
  · rw [hs]
    rfl
  · have hblank : IsBlank [] := fun c hc => absurd hc List.not_mem_nil
    have hsame := (trimText_of hblank hblank h hs).1
    rwa [List.nil_append,List.append_nil] at hsame

theorem trimText_append {s trail : List Char} (htrail : IsBlank trail) :
    trimText (s ++ trail) = trimText s := by
  obtain ⟨lead,rest,hs,hlead,hrest,hmid⟩ := exists_trim s
  have hblank : IsBlank (rest ++ trail) := by
    intro c hc
    rcases List.mem_append.mp hc with hc | hc
    · exact hrest c hc
    · exact htrail c hc
  by_cases hne : trimText s = []
  · rw [hne] at hs ⊢
    refine trimText_of_isBlank ?_
    rw [hs,List.append_nil,List.append_assoc]
    intro c hc
    rcases List.mem_append.mp hc with hc | hc
    · exact hlead c hc
    · exact hblank c hc
  · have hall := (trimText_of hlead hblank hmid hne).1
    rw [← List.append_assoc,← hs] at hall
    exact hall

theorem trimText_trimEnd (s : List Char) : trimText (trimEnd s) = trimText s := by
  have hs : s = trimEnd s ++ s.rtakeWhile isWhiteSpace := List.rdropWhile_append_rtakeWhile.symm
  have htrail : IsBlank (s.rtakeWhile isWhiteSpace) := fun c hc => List.mem_rtakeWhile_imp hc
  conv_rhs => rw [hs,trimText_append htrail]

theorem head?_trimText {lead rest : List Char} {c : Char} (hlead : IsBlank lead)
    (hc : isWhiteSpace c = false) : (trimText (lead ++ c :: rest)).head? = some c := by
  have hdrop : (lead ++ c :: rest).dropWhile isWhiteSpace = c :: rest := by
    refine dropWhile_lead hlead ?_
    rintro d ⟨⟩
    exact hc
  rw [trimText,hdrop]
  have hprefix := List.rdropWhile_prefix isWhiteSpace (l := c :: rest)
  cases hkept : (c :: rest).rdropWhile isWhiteSpace with
  | nil =>
    have hwhite := List.rdropWhile_eq_nil_iff.mp hkept c List.mem_cons_self
    rw [hc] at hwhite
    cases hwhite
  | cons d kept =>
    rw [hkept] at hprefix
    obtain ⟨rfl,-⟩ := List.cons_prefix_cons.mp hprefix
    rw [trimEnd,hkept]
    rfl

end Trim

end Library
