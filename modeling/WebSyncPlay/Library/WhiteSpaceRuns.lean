import WebSyncPlay.Library.TextMatch
import Mathlib.Data.List.DropRight

/-! Texts whose runs of white space are collapsed to one blank each. -/
namespace Library

section Runs

variable {α : Type*} (ws : α → Bool) (blank : α)

/-- Every run becomes one blank; where a run has begun already, its rest is dropped. -/
def squash : Bool → List α → List α
  | _,[] => []
  | inRun,c :: rest =>
    if ws c then (if inRun then squash true rest else blank :: squash true rest)
    else c :: squash false rest

/-- The part of a text that gives the first characters of the squashed one. -/
def cutRuns : ℕ → Bool → List α → List α
  | _,_,[] => []
  | n,inRun,c :: rest =>
    if n = 0 then []
    else if ws c then (if inRun then c :: cutRuns n true rest else c :: cutRuns (n-1) true rest)
    else c :: cutRuns (n-1) false rest

variable {ws blank} {inRun : Bool} {s t : List α} {c : α}

theorem squash_cutRuns (n : ℕ) :
    squash ws blank inRun (cutRuns ws n inRun s) = (squash ws blank inRun s).take n := by
  induction s generalizing n inRun with
  | nil => simp [squash,cutRuns]
  | cons c rest ih =>
    rw [cutRuns]
    by_cases hn : n = 0
    · simp [hn,squash]
    obtain ⟨m,rfl⟩ := Nat.exists_eq_succ_of_ne_zero hn
    by_cases hc : ws c = true
    · cases inRun with
      | true => simp [hc,squash,ih]
      | false => simp [hc,squash,ih]
    · simp [hc,squash,ih]

theorem prefix_of_cutRuns (n : ℕ) : cutRuns ws n inRun s <+: s := by
  induction s generalizing n inRun with
  | nil => exact List.prefix_refl _
  | cons c rest ih =>
    rw [cutRuns]
    split_ifs
    · exact List.nil_prefix
    · exact (List.prefix_cons_inj c).mpr (ih _)
    · exact (List.prefix_cons_inj c).mpr (ih _)
    · exact (List.prefix_cons_inj c).mpr (ih _)

theorem dropWhile_squash (hblank : ws blank = true) :
    (squash ws blank inRun s).dropWhile ws = squash ws blank true s := by
  induction s generalizing inRun with
  | nil => rfl
  | cons c rest ih =>
    by_cases hc : ws c = true
    · cases inRun with
      | true => simp [hc,squash,ih]
      | false => simp [hc,squash,ih,hblank]
    · simp [hc,squash]

theorem squash_dropWhile : squash ws blank true (s.dropWhile ws) = squash ws blank true s := by
  induction s with
  | nil => rfl
  | cons c rest ih =>
    by_cases hc : ws c = true
    · simp [hc,squash,ih]
    · simp [hc]

theorem squash_squash (hblank : ws blank = true) :
    squash ws blank inRun (squash ws blank inRun s) = squash ws blank inRun s := by
  induction s generalizing inRun with
  | nil => rfl
  | cons c rest ih =>
    by_cases hc : ws c = true
    · cases inRun with
      | true => simp [hc,squash,ih]
      | false => simp [hc,squash,ih,hblank]
    · simp [hc,squash,ih]

/-- A start of a squashed text is squashed. -/
theorem squash_take (hblank : ws blank = true) (n : ℕ) :
    squash ws blank inRun ((squash ws blank inRun s).take n) =
      (squash ws blank inRun s).take n := by
  rw [← squash_cutRuns,squash_squash hblank]

theorem head?_squash : (squash ws blank true s).head? = (s.dropWhile ws).head? := by
  induction s with
  | nil => rfl
  | cons c rest ih =>
    by_cases hc : ws c = true
    · simp [hc,squash,ih]
    · simp [hc,squash]

theorem map_squash (f : α → α) (hws : ∀ c, ws (f c) = ws c) (hf : f blank = blank) :
    (squash ws blank inRun s).map f = squash ws blank inRun (s.map f) := by
  induction s generalizing inRun with
  | nil => rfl
  | cons c rest ih =>
    by_cases hc : ws c = true
    · cases inRun with
      | true => simp [hc,hws,squash,ih]
      | false => simp [hc,hws,squash,ih,hf]
    · simp [hc,hws,squash,ih]

theorem mem_squash (h : c ∈ squash ws blank inRun s) : c ∈ s ∨ c = blank := by
  induction s generalizing inRun with
  | nil => cases h
  | cons d rest ih =>
    rw [squash] at h
    split_ifs at h
    · exact (ih h).imp_left (List.mem_cons_of_mem d)
    · rcases List.mem_cons.mp h with rfl | h
      · exact .inr rfl
      · exact (ih h).imp_left (List.mem_cons_of_mem d)
    · rcases List.mem_cons.mp h with rfl | h
      · exact .inl List.mem_cons_self
      · exact (ih h).imp_left (List.mem_cons_of_mem d)

theorem rdropWhile_take_rdropWhile (s : List α) (n : ℕ) :
    ((s.rdropWhile ws).take n).rdropWhile ws = (s.take n).rdropWhile ws := by
  induction s using List.reverseRecOn with
  | nil => rfl
  | append_singleton s c ih =>
    by_cases hc : ws c = true
    · rw [List.rdropWhile_concat_pos _ _ _ hc,ih]
      by_cases hn : n ≤ s.length
      · rw [List.take_append_of_le_length hn]
      · rw [List.take_of_length_le (by omega : s.length ≤ n),
          List.take_of_length_le (by simp; omega),List.rdropWhile_concat_pos _ _ _ hc]
    · rw [List.rdropWhile_concat_neg _ _ _ hc]

theorem map_rdropWhile (f : α → α) (hws : ∀ c, ws (f c) = ws c) (s : List α) :
    (s.rdropWhile ws).map f = (s.map f).rdropWhile ws := by
  induction s using List.reverseRecOn with
  | nil => rfl
  | append_singleton s c ih =>
    rw [List.map_append,List.map_singleton]
    by_cases hc : ws c = true
    · rw [List.rdropWhile_concat_pos _ _ _ hc,
        List.rdropWhile_concat_pos _ _ _ ((hws c).trans hc),ih]
    · rw [List.rdropWhile_concat_neg _ _ _ hc,
        List.rdropWhile_concat_neg _ _ _ (by rw [hws c]; exact hc),List.map_append,List.map_singleton]

theorem squash_true_eq : squash ws blank true s = squash ws blank false (s.dropWhile ws) := by
  rw [← squash_dropWhile]
  cases hdrop : s.dropWhile ws with
  | nil => rfl
  | cons c rest =>
    have hnonempty : s.dropWhile ws ≠ [] := by
      rw [hdrop]
      exact List.cons_ne_nil c rest
    have hc : ¬ws c = true := by
      have hnot := List.head_dropWhile_not ws hnonempty
      simpa [hdrop] using hnot
    simp [squash,hc]

theorem rdropWhile_append_mark {mark : α} (hmark : ws mark = false) (s t : List α) :
    (s ++ mark :: t).rdropWhile ws = s ++ mark :: t.rdropWhile ws := by
  induction t using List.reverseRecOn with
  | nil =>
    rw [List.rdropWhile_concat_neg _ _ _ (by simp [hmark])]
    rfl
  | append_singleton t c ih =>
    have hassoc : s ++ mark :: (t ++ [c]) = s ++ mark :: t ++ [c] := by simp
    rw [hassoc]
    by_cases hc : ws c = true
    · rw [List.rdropWhile_concat_pos _ _ _ hc,List.rdropWhile_concat_pos _ _ _ hc,ih]
    · rw [List.rdropWhile_concat_neg _ _ _ hc,List.rdropWhile_concat_neg _ _ _ hc,hassoc]

end Runs

/-- A property of texts that white space separates: a text has it if and only if what stands before
and behind the white space has it. -/
structure Separable {α : Type*} (ws : α → Bool) (P : List α → Prop) : Prop where
  nil : P []
  split : ∀ {x y : List α} {w : α}, ws w = true → (P (x ++ w :: y) ↔ P x ∧ P [w] ∧ P y)

section Separated

variable {α : Type*} {ws : α → Bool} {blank : α} {P : List α → Prop} {s : List α}

theorem Separable.cons_iff (h : Separable ws P) {w : α} (hw : ws w = true) :
    P (w :: s) ↔ P [w] ∧ P s := by
  have hsplit := h.split (x := []) (y := s) hw
  rw [List.nil_append] at hsplit
  rw [hsplit,and_iff_right h.nil]

theorem Separable.squash (h : Separable ws P) (hws : ws blank = true) (hblank : P [blank])
    (hs : ∀ w ∈ s, ws w = true → P [w]) : P (squash ws blank true s) ↔ P s := by
  have hall : (∀ x, P (x ++ Library.squash ws blank false s) ↔ P (x ++ s)) ∧
      (P (Library.squash ws blank true s) ↔ P s) := by
    induction s with
    | nil => simp [Library.squash]
    | cons c rest ih =>
      obtain ⟨ihfalse,ihtrue⟩ := ih fun w hw => hs w (List.mem_cons_of_mem c hw)
      by_cases hc : ws c = true
      · have hcP := hs c List.mem_cons_self hc
        constructor
        · intro x
          rw [Library.squash,if_pos hc]
          simp only [Bool.false_eq_true,if_false]
          rw [h.split hws,h.split hc,ihtrue,and_iff_right hblank,and_iff_right hcP]
        · rw [Library.squash,if_pos hc,if_pos rfl,ihtrue,h.cons_iff hc,and_iff_right hcP]
      · constructor
        · intro x
          have hstep := ihfalse (x ++ [c])
          simpa [Library.squash,hc] using hstep
        · have hstep := ihfalse [c]
          simpa [Library.squash,hc] using hstep
  exact hall.2

theorem Separable.rdropWhile (h : Separable ws P) (hs : ∀ w ∈ s, ws w = true → P [w]) :
    P (s.rdropWhile ws) ↔ P s := by
  induction s using List.reverseRecOn with
  | nil => rfl
  | append_singleton s c ih =>
    by_cases hc : ws c = true
    · rw [List.rdropWhile_concat_pos _ _ _ hc,h.split hc,and_iff_right (hs c (by simp) hc),
        and_iff_left h.nil]
      exact ih fun w hw => hs w (List.mem_append_left _ hw)
    · rw [List.rdropWhile_concat_neg _ _ _ hc]

end Separated

section Marked

variable {α : Type*} [DecidableEq α] (ws : α → Bool) (mark : α) (word : List α)

/-- A word at the start of a text with a mark behind it; white space before either is passed over. -/
def startsMarked (s : List α) : Bool :=
  match literal word (s.dropWhile ws) with
  | some rest => (rest.dropWhile ws).head? = some mark
  | none => false

variable {ws mark word} {blank : α} {s t : List α}

theorem literal_squash (hword : ∀ c ∈ word, ws c = false) (hblank : ws blank = true) :
    literal word (squash ws blank false s) = (literal word s).map (squash ws blank false) := by
  induction word generalizing s with
  | nil => simp [literal]
  | cons c word ih =>
    have hc : ws c = false := hword c List.mem_cons_self
    have hcons : ∀ (d : α) (r : List α), literal (c :: word) (d :: r) =
        if c = d then literal word r else none := by
      intro d r
      by_cases hd : c = d
      · simp [literal,hd]
      · simp [literal,hd]
    have hnil : literal (c :: word) ([] : List α) = none := by simp [literal]
    cases s with
    | nil => rw [squash,hnil]; rfl
    | cons d rest =>
      by_cases hd : ws d = true
      · have hne : c ≠ d := fun h => by rw [h,hd] at hc; cases hc
        have hne' : c ≠ blank := fun h => by rw [h,hblank] at hc; cases hc
        simp [squash,hd,hcons,hne,hne']
      · simp only [squash,hd,if_false,hcons,Bool.false_eq_true]
        by_cases hcd : c = d
        · rw [if_pos hcd,if_pos hcd]
          exact ih fun e he => hword e (List.mem_cons_of_mem c he)
        · rw [if_neg hcd,if_neg hcd]
          rfl

theorem startsMarked_squash (hword : ∀ c ∈ word, ws c = false) (hblank : ws blank = true) :
    startsMarked ws mark word (squash ws blank true s) = startsMarked ws mark word s := by
  have hdropped : (squash ws blank true s).dropWhile ws = squash ws blank true s :=
    dropWhile_squash hblank
  rw [startsMarked,startsMarked,hdropped,squash_true_eq,literal_squash hword hblank]
  cases literal word (s.dropWhile ws) with
  | none => rfl
  | some rest =>
    rw [Option.map_some]
    simp only [dropWhile_squash hblank,head?_squash]

theorem startsMarked_append (hne : word ≠ [])
    (h : startsMarked ws mark word s = true) (t : List α) :
    startsMarked ws mark word (s ++ t) = true := by
  rw [startsMarked] at h ⊢
  cases hlit : literal word (s.dropWhile ws) with
  | none => rw [hlit] at h; cases h
  | some rest =>
    rw [hlit] at h
    have hdrop : s.dropWhile ws = word ++ rest := literal_eq_some.mp hlit
    have hmark : (rest.dropWhile ws).head? = some mark := of_decide_eq_true h
    have hrest : rest.dropWhile ws ≠ [] := by
      intro hnil
      rw [hnil] at hmark
      cases hmark
    have hne' : s.dropWhile ws ≠ [] := by
      rw [hdrop]
      simp [hne]
    have happend : (s ++ t).dropWhile ws = word ++ (rest ++ t) := by
      rw [List.dropWhile_append,if_neg (by simpa using hne'),hdrop,List.append_assoc]
    rw [literal_eq_some.mpr happend]
    dsimp only
    rw [List.dropWhile_append,if_neg (by simpa using hrest),List.head?_append,hmark,Option.some_or]
    exact decide_eq_true rfl

theorem startsMarked_of {lead rest : List α} (hne : word ≠ []) (hword : ∀ c ∈ word, ws c = false)
    (hmark : ws mark = false) (hlead : ∀ c ∈ lead, ws c = true) :
    startsMarked ws mark word (word ++ (lead ++ mark :: rest)) = true := by
  obtain ⟨first,tail,rfl⟩ := List.exists_cons_of_ne_nil hne
  have hfirst : ¬ws first = true := by simp [hword first List.mem_cons_self]
  have hdrop : (first :: tail ++ (lead ++ mark :: rest)).dropWhile ws =
      first :: tail ++ (lead ++ mark :: rest) := by
    rw [List.cons_append,List.dropWhile_cons_of_neg hfirst]
  rw [startsMarked,hdrop,literal_eq_some.mpr rfl]
  dsimp only
  rw [List.dropWhile_append_of_pos hlead,List.dropWhile_cons_of_neg (by simp [hmark])]
  exact decide_eq_true rfl

/-- In a squashed text the mark comes at most one blank behind the word. -/
theorem exists_marked (hword : ∀ c ∈ word, ws c = false) (hblank : ws blank = true)
    (h : startsMarked ws mark word (squash ws blank true s) = true) :
    ∃ lead rest, squash ws blank true s = word ++ (lead ++ mark :: rest) ∧ lead.length ≤ 1 ∧
      ∀ c ∈ lead, ws c = true := by
  have hdropped : (squash ws blank true s).dropWhile ws = squash ws blank true s :=
    dropWhile_squash hblank
  rw [startsMarked,hdropped] at h
  rw [squash_true_eq] at h ⊢
  cases hlit : literal word (squash ws blank false (s.dropWhile ws)) with
  | none => rw [hlit] at h; cases h
  | some rest =>
    rw [hlit] at h
    have hmarked : (rest.dropWhile ws).head? = some mark := of_decide_eq_true h
    have hsplit := literal_eq_some.mp hlit
    rw [literal_squash hword hblank] at hlit
    obtain ⟨r,-,rfl⟩ := Option.map_eq_some_iff.mp hlit
    cases r with
    | nil => cases hmarked
    | cons c r =>
      by_cases hc : ws c = true
      · have hrun : squash ws blank false (c :: r) = blank :: squash ws blank true r := by
          simp [squash,hc]
        rw [hrun,List.dropWhile_cons_of_pos hblank,dropWhile_squash hblank] at hmarked
        obtain ⟨q,hq⟩ := List.head?_eq_some_iff.mp hmarked
        refine ⟨[blank],q,?_,le_refl 1,by simpa using hblank⟩
        rw [hsplit,hrun,hq]
        rfl
      · have hchar : squash ws blank false (c :: r) = c :: squash ws blank false r := by
          simp [squash,hc]
        rw [hchar,List.dropWhile_cons_of_neg hc,List.head?_cons] at hmarked
        obtain rfl := Option.some.inj hmarked
        exact ⟨[],squash ws blank false r,by rw [hsplit,hchar]; rfl,Nat.zero_le 1,by simp⟩

theorem startsMarked_cut (hne : word ≠ []) (hword : ∀ c ∈ word, ws c = false)
    (hblank : ws blank = true) (hmark : ws mark = false) {n : ℕ} (hn : word.length+2 ≤ n) :
    startsMarked ws mark word (((squash ws blank true s).take n).rdropWhile ws) =
      startsMarked ws mark word (squash ws blank true s) := by
  rw [Bool.eq_iff_iff]
  constructor
  · intro h
    have hprefix : ((squash ws blank true s).take n).rdropWhile ws <+: squash ws blank true s :=
      (List.rdropWhile_prefix ws _).trans (List.take_prefix n _)
    obtain ⟨t,ht⟩ := hprefix
    have happend := startsMarked_append hne h t
    rwa [ht] at happend
  · intro h
    obtain ⟨lead,rest,hsplit,hlength,hlead⟩ := exists_marked hword hblank h
    have htake : (squash ws blank true s).take n =
        word ++ lead ++ mark :: rest.take (n-(word.length+lead.length+1)) := by
      have hroom : n = (word ++ lead).length+(n-(word.length+lead.length+1)+1) := by
        rw [List.length_append]
        omega
      rw [hsplit,← List.append_assoc,hroom,List.take_length_add_append,List.take_succ_cons]
      congr 3
      rw [List.length_append]
      omega
    rw [htake,rdropWhile_append_mark hmark,List.append_assoc]
    exact startsMarked_of hne hword hmark hlead

end Marked

end Library
