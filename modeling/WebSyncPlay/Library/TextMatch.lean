import Mathlib.Data.List.Forall2
import Mathlib.Data.List.TakeWhile

/-! Matching texts: literals, runs of characters, and matches that begin at the start of a text or
after a separator. -/
namespace Library

section Matching

variable {α : Type*} [DecidableEq α]

def literal (lit s : List α) : Option (List α) :=
  if lit <+: s then some (s.drop lit.length) else none

/-- From one to `most` characters, as many as there are. -/
def charRun (p : α → Bool) (most : ℕ) (s : List α) : Option (List α × List α) :=
  if 1 ≤ (s.takeWhile p).length ∧ (s.takeWhile p).length ≤ most then
    some (s.takeWhile p,s.dropWhile p)
  else none

def IsRun (p : α → Bool) (most : ℕ) (run : List α) : Prop :=
  1 ≤ run.length ∧ run.length ≤ most ∧ ∀ c ∈ run, p c = true

theorem literal_eq_some {lit s rest : List α} : literal lit s = some rest ↔ s = lit ++ rest := by
  rw [literal]
  constructor
  · intro h
    split at h
    · rename_i hstart
      obtain ⟨t,rfl⟩ := hstart
      rw [List.drop_left] at h
      rw [Option.some.inj h]
    · cases h
  · rintro rfl
    rw [if_pos (List.prefix_append lit rest),List.drop_left]

omit [DecidableEq α] in
theorem charRun_eq_some {p : α → Bool} {most : ℕ} {s run rest : List α} :
    charRun p most s = some (run,rest) ↔
      s = run ++ rest ∧ IsRun p most run ∧ ∀ c ∈ rest.head?, p c = false := by
  rw [charRun]
  constructor
  · intro h
    split at h
    · rename_i hlength
      obtain ⟨rfl,rfl⟩ := Prod.mk.inj (Option.some.inj h)
      refine ⟨(List.takeWhile_append_dropWhile).symm,⟨hlength.1,hlength.2,?_⟩,?_⟩
      · intro c hc
        exact List.mem_takeWhile_imp hc
      · intro c hc
        have hhead := List.head?_dropWhile_not p s
        rw [Option.mem_def.mp hc] at hhead
        simpa using hhead
    · cases h
  · rintro ⟨rfl,⟨hone,hmost,hall⟩,hrest⟩
    have hstop : rest.takeWhile p = [] ∧ rest.dropWhile p = rest := by
      cases rest with
      | nil => exact ⟨rfl,rfl⟩
      | cons c rest =>
        have hc : ¬p c = true := by simpa using hrest c rfl
        exact ⟨List.takeWhile_cons_of_neg hc,List.dropWhile_cons_of_neg hc⟩
    have htake : (run ++ rest).takeWhile p = run := by
      rw [List.takeWhile_append_of_pos hall,hstop.1,List.append_nil]
    have hdrop : (run ++ rest).dropWhile p = rest := by
      rw [List.dropWhile_append_of_pos hall,hstop.2]
    rw [htake,hdrop,if_pos ⟨hone,hmost⟩]

@[simp] theorem literal_append (lit rest : List α) : literal lit (lit ++ rest) = some rest :=
  literal_eq_some.mpr rfl

omit [DecidableEq α] in
theorem charRun_append {p : α → Bool} {most : ℕ} {run rest : List α} (hrun : IsRun p most run)
    (hstop : ∀ c ∈ rest.head?, p c = false) : charRun p most (run ++ rest) = some (run,rest) :=
  charRun_eq_some.mpr ⟨rfl,hrun,hstop⟩

omit [DecidableEq α] in
theorem charRun_end {p : α → Bool} {most : ℕ} {run : List α} (hrun : IsRun p most run) :
    charRun p most (run ++ []) = some (run,[]) := by
  refine charRun_append hrun ?_
  intro c hc
  cases hc

omit [DecidableEq α] in
theorem not_mem_of_isRun {p : α → Bool} {most : ℕ} {run : List α} (h : IsRun p most run) {c : α}
    (hc : p c = false) : c ∉ run := by
  intro hmem
  rw [h.2.2 c hmem] at hc
  cases hc

end Matching

section Pieces

variable {α β : Type*} [DecidableEq α]

def afterSep (sep : α) : List α → List (List α)
  | [] => []
  | c :: cs => if c = sep then cs :: afterSep sep cs else afterSep sep cs

/-- The first match that begins at the start or after a separator. -/
def searchAfter (sep : α) (f : List α → Option β) (s : List α) : Option β :=
  (s :: afterSep sep s).findSome? f

variable {sep : α}

theorem afterSep_append {piece : List α} (h : sep ∉ piece) (s : List α) :
    afterSep sep (piece ++ s) = afterSep sep s := by
  induction piece with
  | nil => rfl
  | cons c piece ih =>
    have hc : c ≠ sep := fun hsame => h (hsame ▸ List.mem_cons_self)
    rw [List.cons_append,afterSep,if_neg hc,ih fun hin => h (List.mem_cons_of_mem c hin)]

omit [DecidableEq α] in
theorem mem_intercalate {c : α} {ps : List (List α)} (h : c ∈ [sep].intercalate ps) :
    c = sep ∨ ∃ p ∈ ps, c ∈ p := by
  induction ps with
  | nil => cases h
  | cons p ps ih =>
    cases ps with
    | nil =>
      rw [List.intercalate_singleton] at h
      exact Or.inr ⟨p,List.mem_cons_self,h⟩
    | cons q ps =>
      rw [List.intercalate_cons_cons] at h
      simp only [List.mem_append,List.mem_singleton] at h
      rcases h with (hp | hsame) | hrest
      · exact Or.inr ⟨p,List.mem_cons_self,hp⟩
      · exact Or.inl hsame
      · rcases ih hrest with hsame | ⟨r,hr,hc⟩
        · exact Or.inl hsame
        · exact Or.inr ⟨r,List.mem_cons_of_mem p hr,hc⟩

omit [DecidableEq α] in
theorem intercalate_cons_of_ne_nil {first : List α} {rest : List (List α)} (hrest : rest ≠ []) :
    [sep].intercalate (first :: rest) = first ++ sep :: [sep].intercalate rest := by
  rw [List.intercalate_cons_of_ne_nil hrest,List.append_assoc,List.singleton_append]

omit [DecidableEq α] in
theorem intercalate_append {ps qs : List (List α)} (hps : ps ≠ [])
    (hqs : qs ≠ []) :
    [sep].intercalate (ps ++ qs) = [sep].intercalate ps ++ sep :: [sep].intercalate qs := by
  induction ps with
  | nil => exact absurd rfl hps
  | cons p ps ih =>
    cases ps with
    | nil =>
      rw [List.singleton_append,List.intercalate_cons_of_ne_nil hqs,List.intercalate_singleton,
        List.append_assoc,List.singleton_append]
    | cons q ps =>
      rw [List.cons_append,List.cons_append,List.intercalate_cons_cons,← List.cons_append,
        ih (List.cons_ne_nil q ps),List.intercalate_cons_cons,List.append_assoc,List.append_assoc]
      simp only [List.append_assoc]

omit [DecidableEq α] in
theorem intercalate_flatten {blocks : List (List (List α))} (hne : ∀ block ∈ blocks, block ≠ []) :
    [sep].intercalate blocks.flatten = [sep].intercalate (blocks.map [sep].intercalate) := by
  induction blocks with
  | nil => rfl
  | cons first blocks ih =>
    have hfirst := hne first List.mem_cons_self
    have hrest := fun block hblock => hne block (List.mem_cons_of_mem first hblock)
    cases blocks with
    | nil => simp
    | cons second blocks =>
      have hflat : (second :: blocks).flatten ≠ [] := by
        rw [List.flatten_cons]
        exact List.append_ne_nil_of_left_ne_nil (hrest second List.mem_cons_self) _
      have hmap : (second :: blocks).map [sep].intercalate ≠ [] := by simp
      rw [List.flatten_cons,intercalate_append hfirst hflat,ih hrest]
      exact (intercalate_cons_of_ne_nil hmap).symm

omit [DecidableEq α] in
theorem exists_forall₂_flatten {β : Type*} {R : α → β → Prop} {blocks : List (List α)} {l : List β}
    (h : List.Forall₂ R blocks.flatten l) :
    ∃ blocks', blocks'.flatten = l ∧ List.Forall₂ (List.Forall₂ R) blocks blocks' := by
  induction blocks generalizing l with
  | nil => exact ⟨[],(List.forall₂_nil_left_iff.mp h).symm,.nil⟩
  | cons block blocks ih =>
    rw [List.flatten_cons] at h
    obtain ⟨blocks',hflat,hrest⟩ := ih (List.forall₂_drop_append _ _ _ h.flip).flip
    refine ⟨l.take block.length :: blocks',?_,
      .cons (List.forall₂_take_append _ _ _ h.flip).flip hrest⟩
    rw [List.flatten_cons,hflat,List.take_append_drop]

omit [DecidableEq α] in
theorem exists_of_mem_forall₂ {β : Type*} {R : α → β → Prop} {l : List α} {l' : List β}
    (h : List.Forall₂ R l l') {b : β} (hb : b ∈ l') : ∃ a ∈ l, R a b := by
  induction h with
  | nil => cases hb
  | cons hfirst _ ih =>
    rcases List.mem_cons.mp hb with rfl | hb
    · exact ⟨_,List.mem_cons_self,hfirst⟩
    · obtain ⟨a,ha,hab⟩ := ih hb
      exact ⟨a,List.mem_cons_of_mem _ ha,hab⟩

omit [DecidableEq α] in
theorem mem_intercalate_of_mem {c : α} {p : List α} {ps : List (List α)} (hp : p ∈ ps)
    (hc : c ∈ p) : c ∈ [sep].intercalate ps := by
  induction ps with
  | nil => cases hp
  | cons first ps ih =>
    cases ps with
    | nil =>
      rw [List.intercalate_singleton]
      rwa [← List.mem_singleton.mp hp]
    | cons second ps =>
      rw [intercalate_cons_of_ne_nil (List.cons_ne_nil second ps)]
      rcases List.mem_cons.mp hp with rfl | hp
      · exact List.mem_append_left _ hc
      · exact List.mem_append_right _ (List.mem_cons_of_mem sep (ih hp))

theorem exists_intercalate (s : List α) :
    ∃ ps, ps ≠ [] ∧ (∀ p ∈ ps, sep ∉ p) ∧ s = [sep].intercalate ps := by
  induction s with
  | nil => exact ⟨[[]],by simp,by simp,rfl⟩
  | cons c s ih =>
    obtain ⟨ps,hne,hfree,rfl⟩ := ih
    by_cases hc : c = sep
    · refine ⟨[] :: ps,List.cons_ne_nil _ _,?_,?_⟩
      · intro p hp
        rcases List.mem_cons.mp hp with rfl | hp
        · exact List.not_mem_nil
        · exact hfree p hp
      · rw [intercalate_cons_of_ne_nil hne,hc]
        rfl
    · cases ps with
      | nil => exact absurd rfl hne
      | cons first ps =>
        refine ⟨(c :: first) :: ps,List.cons_ne_nil _ _,?_,?_⟩
        · intro p hp
          rcases List.mem_cons.mp hp with rfl | hp
          · intro hin
            rcases List.mem_cons.mp hin with hin | hin
            · exact hc hin.symm
            · exact hfree first List.mem_cons_self hin
          · exact hfree p (List.mem_cons_of_mem first hp)
        · cases ps with
          | nil => rw [List.intercalate_singleton,List.intercalate_singleton]
          | cons second ps =>
            rw [List.intercalate_cons_cons,List.intercalate_cons_cons]
            rfl

omit [DecidableEq α] in
theorem prefix_append_sep {s first rest : List α} (hs : sep ∉ s) :
    s <+: first ++ sep :: rest ↔ s <+: first := by
  constructor
  · intro h
    rcases List.prefix_or_prefix_of_prefix h (List.prefix_append first _) with hfirst | ⟨t,rfl⟩
    · exact hfirst
    · have ht := (List.prefix_append_right_inj first).mp h
      cases t with
      | nil => exact ⟨[],by simp⟩
      | cons c t =>
        obtain ⟨rfl,-⟩ := List.cons_prefix_cons.mp ht
        exact absurd (List.mem_append_right first List.mem_cons_self) hs
  · exact fun h => h.trans (List.prefix_append _ _)

omit [DecidableEq α] in
theorem append_sep_prefix {s first rest : List α} (hs : sep ∉ s) (hfirst : sep ∉ first) :
    s ++ [sep] <+: first ++ sep :: rest ↔ s = first := by
  constructor
  · intro h
    obtain ⟨t,rfl⟩ := (prefix_append_sep hs).mp ((List.prefix_append s [sep]).trans h)
    rw [List.append_assoc] at h
    have htail := (List.prefix_append_right_inj s).mp h
    cases t with
    | nil => rw [List.append_nil]
    | cons c t =>
      obtain ⟨rfl,-⟩ := List.cons_prefix_cons.mp htail
      exact absurd (List.mem_append_right s List.mem_cons_self) hfirst
  · rintro rfl
    exact (List.prefix_append_right_inj s).mpr (List.prefix_append [sep] rest)

/-- Pieces can be told from their join. -/
theorem intercalate_inj {ps qs : List (List α)} (hps : ps ≠ []) (hqs : qs ≠ [])
    (hp : ∀ p ∈ ps, sep ∉ p) (hq : ∀ q ∈ qs, sep ∉ q)
    (h : [sep].intercalate ps = [sep].intercalate qs) : ps = qs := by
  rw [← List.splitOn_intercalate sep hp hps,← List.splitOn_intercalate sep hq hqs,h]

theorem mem_starts_intercalate {pieces : List (List α)} (hne : pieces ≠ [])
    (hsep : ∀ p ∈ pieces, sep ∉ p) {s : List α} :
    s ∈ [sep].intercalate pieces :: afterSep sep ([sep].intercalate pieces) ↔
      ∃ ps, ps ≠ [] ∧ ps <:+ pieces ∧ s = [sep].intercalate ps := by
  induction pieces with
  | nil => exact absurd rfl hne
  | cons p pieces ih =>
    cases pieces with
    | nil =>
      have hafter : afterSep sep ([sep].intercalate [p]) = [] := by
        have happ := afterSep_append (hsep p List.mem_cons_self) []
        rw [List.append_nil] at happ
        rw [List.intercalate_singleton,happ]
        rfl
      rw [hafter]
      constructor
      · intro hs
        exact ⟨[p],by simp,List.suffix_rfl,List.mem_singleton.mp hs⟩
      · rintro ⟨ps,hps,hsuffix,rfl⟩
        rcases List.suffix_cons_iff.mp hsuffix with rfl | hnil
        · exact List.mem_cons_self
        · exact absurd (List.suffix_nil.mp hnil) hps
    | cons q pieces =>
      have hrest := ih (by simp) fun p' hp' => hsep p' (List.mem_cons_of_mem p hp')
      have hafter : afterSep sep ([sep].intercalate (p :: q :: pieces)) =
          [sep].intercalate (q :: pieces) :: afterSep sep ([sep].intercalate (q :: pieces)) := by
        rw [List.intercalate_cons_cons,List.append_assoc,List.singleton_append,
          afterSep_append (hsep p List.mem_cons_self),afterSep,if_pos rfl]
      rw [hafter,List.mem_cons,hrest]
      constructor
      · rintro (rfl | ⟨ps,hps,hsuffix,rfl⟩)
        · exact ⟨_,by simp,List.suffix_rfl,rfl⟩
        · exact ⟨ps,hps,hsuffix.trans (List.suffix_cons p _),rfl⟩
      · rintro ⟨ps,hps,hsuffix,rfl⟩
        rcases List.suffix_cons_iff.mp hsuffix with rfl | hsuffix
        · exact Or.inl rfl
        · exact Or.inr ⟨ps,hps,hsuffix,rfl⟩

theorem searchAfter_intercalate {f : List α → Option β} {shape : β → List (List α)}
    {ok : β → Prop} {k : ℕ} (hk : 0 < k) (hlength : ∀ x, (shape x).length = k)
    (hf : ∀ s x, f s = some x ↔ s = [sep].intercalate (shape x) ∧ ok x)
    (hfree : ∀ x, ok x → ∀ p ∈ shape x, sep ∉ p)
    (hinj : ∀ x y, ok x → ok y → shape x = shape y → x = y)
    {pieces : List (List α)} (hne : pieces ≠ []) (hsep : ∀ p ∈ pieces, sep ∉ p) {x : β} :
    searchAfter sep f ([sep].intercalate pieces) = some x ↔ shape x <:+ pieces ∧ ok x := by
  have hnonempty : ∀ y, shape y ≠ [] := by
    intro y hy
    have hzero := hlength y
    rw [hy] at hzero
    exact absurd hzero (Nat.ne_of_lt hk)
  have hfound : ∀ y, searchAfter sep f ([sep].intercalate pieces) = some y →
      shape y <:+ pieces ∧ ok y := by
    intro y hy
    obtain ⟨s,hs,hmatch⟩ := List.exists_of_findSome?_eq_some hy
    obtain ⟨ps,hps,hsuffix,rfl⟩ := (mem_starts_intercalate hne hsep).mp hs
    obtain ⟨htext,hok⟩ := (hf _ _).mp hmatch
    have hsame : ps = shape y := intercalate_inj hps (hnonempty y)
      (fun p hp => hsep p (hsuffix.mem hp)) (hfree y hok) htext
    exact ⟨hsame ▸ hsuffix,hok⟩
  constructor
  · exact hfound x
  · rintro ⟨hsuffix,hok⟩
    have hstart := (mem_starts_intercalate hne hsep).mpr ⟨shape x,hnonempty x,hsuffix,rfl⟩
    have hmatch := (hf _ x).mpr ⟨rfl,hok⟩
    cases hsearch : searchAfter sep f ([sep].intercalate pieces) with
    | none =>
      have hnone := List.findSome?_eq_none_iff.mp hsearch _ hstart
      rw [hnone] at hmatch
      cases hmatch
    | some y =>
      obtain ⟨hsuffix',hok'⟩ := hfound y hsearch
      have hle : (shape x).length ≤ (shape y).length := le_of_eq (by rw [hlength,hlength])
      have hsame : shape x = shape y :=
        (List.suffix_of_suffix_length_le hsuffix hsuffix' hle).eq_of_length (by
          rw [hlength,hlength])
      rw [hinj x y hok hok' hsame]

end Pieces

end Library
