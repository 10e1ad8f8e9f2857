import WebSyncPlay.Library.TextMatch

/-! Scanning a text, from left to right, for a keyword with a value in quotes, and what becomes of
a scan when values are replaced. -/
namespace Library

inductive Piece (α : Type*)
  | text (c : α)
  | quoted (q : α) (value : List α)
  deriving DecidableEq

namespace Piece

variable {α : Type*}

def raw (key : List α) : Piece α → List α
  | .text c => [c]
  | .quoted q v => key ++ q :: (v ++ [q])

def render (key : List α) (ps : List (Piece α)) : List α := ps.flatMap (raw key)

def value : Piece α → Option (List α)
  | .text _ => none
  | .quoted _ v => some v

def values (ps : List (Piece α)) : List (List α) := ps.filterMap value

def mapValue (f : α → List α → List α) : Piece α → Piece α
  | .text c => .text c
  | .quoted q v => .quoted q (f q v)

def texts (s : List α) : List (Piece α) := s.map .text

variable [DecidableEq α]

/-- The value of the keyword at the start of a text, and what follows it. Values are not empty. -/
def quotedAt (key : List α) (q : α) (s : List α) : Option (List α × List α) :=
  (literal (key ++ [q]) s).bind fun t =>
    if t.takeWhile (· ≠ q) ≠ [] ∧ t.dropWhile (· ≠ q) ≠ [] then
      some (t.takeWhile (· ≠ q),(t.dropWhile (· ≠ q)).tail)
    else none

def scanGo (key : List α) (q : α) : ℕ → List α → List (Piece α)
  | 0,_ => []
  | _,[] => []
  | n+1,c :: s =>
    match quotedAt key q (c :: s) with
    | some (v,rest) => .quoted q v :: scanGo key q n rest
    | none => .text c :: scanGo key q n s

def scan (key : List α) (q : α) (s : List α) : List (Piece α) := scanGo key q s.length s

/-- The pieces as a scan for one of the quotes sees them: other values are text. -/
def view (key : List α) (q : α) : Piece α → List (Piece α)
  | .text c => [.text c]
  | .quoted p v => if p = q then [.quoted p v] else texts (raw key (.quoted p v))

section Basic

variable {key : List α} {q : α}

omit [DecidableEq α] in
@[simp] theorem render_nil : render key ([] : List (Piece α)) = [] := rfl

omit [DecidableEq α] in
@[simp] theorem render_cons (p : Piece α) (ps : List (Piece α)) :
    render key (p :: ps) = raw key p ++ render key ps := List.flatMap_cons

omit [DecidableEq α] in
@[simp] theorem render_append (ps qs : List (Piece α)) :
    render key (ps ++ qs) = render key ps ++ render key qs := List.flatMap_append

omit [DecidableEq α] in
@[simp] theorem render_texts (s : List α) : render key (texts s) = s := by
  induction s with
  | nil => rfl
  | cons c s ih =>
    rw [texts,List.map_cons,render_cons,← texts,ih]
    rfl

omit [DecidableEq α] in
theorem mem_values {ps : List (Piece α)} {v : List α} :
    v ∈ values ps ↔ ∃ p, .quoted p v ∈ ps := by
  rw [values,List.mem_filterMap]
  constructor
  · rintro ⟨piece,hin,hvalue⟩
    cases piece with
    | text c => cases hvalue
    | quoted p w =>
      obtain rfl : w = v := Option.some.inj hvalue
      exact ⟨p,hin⟩
  · rintro ⟨p,hin⟩
    exact ⟨_,hin,rfl⟩

omit [DecidableEq α] in
@[simp] theorem values_append (ps qs : List (Piece α)) : values (ps ++ qs) = values ps ++ values qs :=
  List.filterMap_append

omit [DecidableEq α] in
@[simp] theorem values_texts (s : List α) : values (texts s) = [] := by
  induction s with
  | nil => rfl
  | cons c s ih => exact ih

theorem render_flatMap_view (ps : List (Piece α)) :
    render key (ps.flatMap (view key q)) = render key ps := by
  induction ps with
  | nil => rfl
  | cons piece ps ih =>
    rw [List.flatMap_cons,render_append,ih,render_cons]
    cases piece with
    | text c => simp [view]
    | quoted p v =>
      rw [view]
      split
      · simp
      · rw [render_texts]

theorem values_flatMap_view (f : List α → List α) (ps : List (Piece α)) :
    values ((ps.map (mapValue fun _ => f)).flatMap (view key q)) =
      (values (ps.flatMap (view key q))).map f := by
  induction ps with
  | nil => rfl
  | cons piece ps ih =>
    rw [List.map_cons,List.flatMap_cons,List.flatMap_cons,values_append,values_append,ih,
      List.map_append]
    refine congrArg (· ++ _) ?_
    cases piece with
    | text c => rfl
    | quoted p v =>
      rw [mapValue,view,view]
      split
      · rfl
      · rw [values_texts,values_texts]
        rfl

theorem map_flatMap_view (f : List α → List α) (ps : List (Piece α)) :
    (ps.flatMap (view key q)).map (mapValue fun _ => f) =
      (ps.map (mapValue fun p v => if p = q then f v else v)).flatMap (view key q) := by
  induction ps with
  | nil => rfl
  | cons piece ps ih =>
    rw [List.map_cons,List.flatMap_cons,List.flatMap_cons,List.map_append,ih]
    refine congrArg (· ++ _) ?_
    cases piece with
    | text c => rfl
    | quoted p v =>
      rw [mapValue,view,view]
      by_cases hpq : p = q
      · rw [if_pos hpq,if_pos hpq,if_pos hpq]
        rfl
      · rw [if_neg hpq,if_neg hpq,if_neg hpq,texts,List.map_map]
        rfl

omit [DecidableEq α] in
theorem mem_render_map {f : α → List α → List α} {ps : List (Piece α)} {c : α}
    (h : c ∈ render key (ps.map (mapValue f))) :
    c ∈ render key ps ∨ ∃ p v, .quoted p v ∈ ps ∧ c ∈ f p v := by
  induction ps with
  | nil => exact Or.inl h
  | cons piece ps ih =>
    rw [List.map_cons,render_cons,List.mem_append] at h
    rw [render_cons,List.mem_append]
    rcases h with h | h
    · cases piece with
      | text d => exact Or.inl (Or.inl h)
      | quoted p v =>
        simp only [mapValue,raw,List.mem_append,List.mem_cons,List.not_mem_nil,or_false] at h ⊢
        rcases h with h | h | h | h
        · exact Or.inl (Or.inl (Or.inl h))
        · exact Or.inl (Or.inl (Or.inr (Or.inl h)))
        · exact Or.inr ⟨p,v,Or.inl rfl,h⟩
        · exact Or.inl (Or.inl (Or.inr (Or.inl h)))
    · rcases ih h with hrest | ⟨p,v,hin,hc⟩
      · exact Or.inl (Or.inr hrest)
      · exact Or.inr ⟨p,v,List.mem_cons_of_mem piece hin,hc⟩

omit [DecidableEq α] in
theorem mem_render_of_value {p c : α} {v : List α} {ps : List (Piece α)} (h : .quoted p v ∈ ps)
    (hc : c ∈ v) : c ∈ render key ps := by
  rw [render,List.mem_flatMap]
  refine ⟨_,h,?_⟩
  simp [raw,hc]

theorem mem_flatMap_view {ps : List (Piece α)} {v : List α} :
    .quoted q v ∈ ps.flatMap (view key q) ↔ .quoted q v ∈ ps := by
  rw [List.mem_flatMap]
  constructor
  · rintro ⟨piece,hin,hview⟩
    cases piece with
    | text c =>
      have hsame := List.mem_singleton.mp hview
      cases hsame
    | quoted p w =>
      rw [view] at hview
      split at hview
      · rw [List.mem_singleton.mp hview]
        exact hin
      · have hvalue : v ∈ values (texts (raw key (.quoted p w))) := mem_values.mpr ⟨q,hview⟩
        rw [values_texts] at hvalue
        cases hvalue
  · intro hin
    refine ⟨_,hin,?_⟩
    rw [view,if_pos rfl]
    exact List.mem_cons_self

theorem quotedAt_eq_some {s v rest : List α} :
    quotedAt key q s = some (v,rest) ↔
      s = key ++ q :: (v ++ q :: rest) ∧ v ≠ [] ∧ q ∉ v := by
  rw [quotedAt]
  constructor
  · intro hat
    obtain ⟨t,ht,h⟩ := Option.bind_eq_some_iff.mp hat
    clear hat
    obtain rfl := literal_eq_some.mp ht
    split at h
    · rename_i hparts
      obtain ⟨rfl,rfl⟩ := Prod.mk.inj (Option.some.inj h)
      refine ⟨?_,hparts.1,?_⟩
      · have hhead : t.dropWhile (· ≠ q) = q :: (t.dropWhile (· ≠ q)).tail := by
          cases hdrop : t.dropWhile (· ≠ q) with
          | nil => exact absurd hdrop hparts.2
          | cons c rest =>
            have hnot := List.head?_dropWhile_not (· ≠ q) t
            rw [hdrop] at hnot
            have hc : c = q := by simpa using hnot
            rw [hc,List.tail_cons]
        rw [List.append_assoc,List.singleton_append,← hhead,List.takeWhile_append_dropWhile]
      · intro hmem
        simpa using List.mem_takeWhile_imp hmem
    · cases h
  · rintro ⟨rfl,hv,hq⟩
    have hall : ∀ c ∈ v, decide (c ≠ q) = true := by
      intro c hc
      have hne : c ≠ q := fun hsame => hq (hsame ▸ hc)
      simpa using hne
    have htake : (v ++ q :: rest).takeWhile (· ≠ q) = v := by
      rw [List.takeWhile_append_of_pos hall,List.takeWhile_cons_of_neg (by simp),List.append_nil]
    have hdrop : (v ++ q :: rest).dropWhile (· ≠ q) = q :: rest := by
      rw [List.dropWhile_append_of_pos hall,List.dropWhile_cons_of_neg (by simp)]
    have hsplit : key ++ q :: (v ++ q :: rest) = (key ++ [q]) ++ (v ++ q :: rest) := by simp
    rw [hsplit,literal_append,Option.bind_some,htake,hdrop,if_pos ⟨hv,List.cons_ne_nil _ _⟩]
    rfl

/-- A value begins wherever the keyword and a quote are followed by something else and, later, the
quote. -/
theorem quotedAt_isSome {s : List α} : (∃ v rest, quotedAt key q s = some (v,rest)) ↔
    ∃ t, s = key ++ q :: t ∧ t.head? ≠ some q ∧ q ∈ t := by
  constructor
  · rintro ⟨v,rest,h⟩
    obtain ⟨rfl,hv,hq⟩ := quotedAt_eq_some.mp h
    refine ⟨_,rfl,?_,by simp⟩
    cases v with
    | nil => exact absurd rfl hv
    | cons c v =>
      intro hhead
      obtain rfl : c = q := by simpa using hhead
      exact hq List.mem_cons_self
  · rintro ⟨t,rfl,hhead,hmem⟩
    obtain ⟨v,rest,rfl,hq⟩ := List.eq_append_cons_of_mem hmem
    refine ⟨v,rest,quotedAt_eq_some.mpr ⟨rfl,?_,hq⟩⟩
    rintro rfl
    exact hhead rfl

theorem scanGo_eq {n m : ℕ} {s : List α} (hn : s.length ≤ n) (hm : s.length ≤ m) :
    scanGo key q n s = scanGo key q m s := by
  induction n generalizing m s with
  | zero =>
    obtain rfl := List.length_eq_zero_iff.mp (Nat.le_zero.mp hn)
    cases m <;> rfl
  | succ n ih =>
    cases s with
    | nil => cases m <;> rfl
    | cons c s =>
      rw [List.length_cons] at hn hm
      cases m with
      | zero => omega
      | succ m =>
        rw [scanGo,scanGo]
        cases hat : quotedAt key q (c :: s) with
        | none =>
          dsimp only
          rw [ih (m := m) (by omega) (by omega)]
        | some found =>
          obtain ⟨v,rest⟩ := found
          obtain ⟨hs,-,-⟩ := quotedAt_eq_some.mp hat
          have hlength := congrArg List.length hs
          simp only [List.length_cons,List.length_append] at hlength
          dsimp only
          rw [ih (m := m) (by omega) (by omega)]

@[simp] theorem scan_nil : scan key q [] = [] := rfl

theorem scan_of_some {s v rest : List α} (h : quotedAt key q s = some (v,rest)) :
    scan key q s = .quoted q v :: scan key q rest := by
  obtain ⟨hs,-,-⟩ := quotedAt_eq_some.mp h
  have hlength := congrArg List.length hs
  simp only [List.length_cons,List.length_append] at hlength
  cases s with
  | nil => exact absurd hlength (by simp)
  | cons c s =>
    rw [scan,List.length_cons,scanGo,h]
    rw [List.length_cons] at hlength
    exact congrArg _ (scanGo_eq (by omega) le_rfl)

theorem scan_of_none {c : α} {s : List α} (h : quotedAt key q (c :: s) = none) :
    scan key q (c :: s) = .text c :: scan key q s := by
  rw [scan,List.length_cons,scanGo,h]
  rfl

theorem scan_cases (key : List α) (q c : α) (s : List α) :
    (∃ v rest, quotedAt key q (c :: s) = some (v,rest) ∧
      scan key q (c :: s) = .quoted q v :: scan key q rest) ∨
    quotedAt key q (c :: s) = none ∧ scan key q (c :: s) = .text c :: scan key q s := by
  cases h : quotedAt key q (c :: s) with
  | none => exact Or.inr ⟨rfl,scan_of_none h⟩
  | some found => exact Or.inl ⟨found.1,found.2,rfl,scan_of_some h⟩

/-- A scan leaves nothing out. -/
@[simp] theorem render_scan (s : List α) : render key (scan key q s) = s := by
  induction hn : s.length using Nat.strong_induction_on generalizing s with
  | _ n ih =>
    cases s with
    | nil => rfl
    | cons c s =>
      rcases scan_cases key q c s with ⟨v,rest,hat,hscan⟩ | ⟨-,hscan⟩
      · obtain ⟨hs,-,-⟩ := quotedAt_eq_some.mp hat
        have hlength := congrArg List.length hs
        simp only [List.length_cons,List.length_append] at hlength hn
        rw [hscan,render_cons,ih rest.length (by omega) rest rfl,hs]
        simp [raw]
      · rw [hscan,render_cons,ih s.length (by rw [← hn]; simp) s rfl]
        rfl

theorem scan_eq_quoted {p : α} {s v : List α} {ps : List (Piece α)}
    (h : scan key q s = .quoted p v :: ps) :
    p = q ∧ ∃ rest, quotedAt key q s = some (v,rest) ∧ scan key q rest = ps := by
  cases s with
  | nil => cases h
  | cons c s =>
    rcases scan_cases key q c s with ⟨v',rest,hat,hscan⟩ | ⟨-,hscan⟩
    · rw [hscan] at h
      obtain ⟨hpiece,rfl⟩ := List.cons.inj h
      obtain ⟨rfl,rfl⟩ := Piece.quoted.inj hpiece
      exact ⟨rfl,rest,hat,rfl⟩
    · rw [hscan] at h
      obtain ⟨hpiece,-⟩ := List.cons.inj h
      cases hpiece

theorem scan_eq_text {c d : α} {s : List α} {ps : List (Piece α)}
    (h : scan key q (c :: s) = .text d :: ps) :
    quotedAt key q (c :: s) = none ∧ scan key q s = ps := by
  rcases scan_cases key q c s with ⟨v,rest,-,hscan⟩ | ⟨hat,hscan⟩
  · rw [hscan] at h
    obtain ⟨hpiece,-⟩ := List.cons.inj h
    cases hpiece
  · rw [hscan] at h
    exact ⟨hat,(List.cons.inj h).2⟩

theorem scan_of_texts_append {a s : List α} {ps : List (Piece α)}
    (h : scan key q (a ++ s) = texts a ++ ps) : scan key q s = ps := by
  induction a with
  | nil => exact h
  | cons c a ih => exact ih (scan_eq_text h).2

/-- What is left of a scan is the scan of what is left. -/
theorem scan_of_append {s : List α} {ps qs : List (Piece α)} (h : scan key q s = ps ++ qs) :
    scan key q (render key qs) = qs := by
  induction ps generalizing s with
  | nil =>
    obtain rfl : scan key q s = qs := h
    rw [render_scan]
  | cons piece ps ih =>
    cases piece with
    | text d =>
      cases s with
      | nil => cases h
      | cons c s => exact ih (scan_eq_text h).2
    | quoted p v =>
      obtain ⟨-,rest,-,hrest⟩ := scan_eq_quoted h
      exact ih hrest

theorem scan_texts_append {a : List α} {p : α} (ha : q ∉ a) (hpq : p ≠ q) (hp : p ∉ key)
    (s : List α) : scan key q (a ++ p :: s) = texts (a ++ [p]) ++ scan key q s := by
  induction a with
  | nil =>
    have hnone : quotedAt key q (p :: s) = none := by
      cases hat : quotedAt key q (p :: s) with
      | none => rfl
      | some found =>
        obtain ⟨htext,-,-⟩ := quotedAt_eq_some.mp hat
        cases key with
        | nil => exact absurd (List.cons.inj htext).1 hpq
        | cons k ks =>
          obtain ⟨rfl,-⟩ := List.cons.inj htext
          exact absurd List.mem_cons_self hp
    rw [List.nil_append,scan_of_none hnone]
    rfl
  | cons c a ih =>
    have hnone : quotedAt key q (c :: (a ++ p :: s)) = none := by
      cases hat : quotedAt key q (c :: (a ++ p :: s)) with
      | none => rfl
      | some found =>
        obtain ⟨htext,-,-⟩ := quotedAt_eq_some.mp hat
        have hkey : key ++ [q] <+: (c :: a) ++ [p] ++ s := by
          refine ⟨found.1 ++ q :: found.2,?_⟩
          simpa using htext.symm
        rcases List.prefix_or_prefix_of_prefix hkey (List.prefix_append _ s) with hin | hin
        · have hmem : q ∈ (c :: a) ++ [p] := hin.mem (by simp)
          rcases List.mem_append.mp hmem with hmem | hmem
          · exact absurd hmem ha
          · exact absurd (List.mem_singleton.mp hmem).symm hpq
        · have hmem : p ∈ key ++ [q] := hin.mem (by simp)
          rcases List.mem_append.mp hmem with hmem | hmem
          · exact absurd hmem hp
          · exact absurd (List.mem_singleton.mp hmem) hpq
    rw [List.cons_append,scan_of_none hnone,ih fun hin => ha (List.mem_cons_of_mem c hin)]
    rfl

theorem mem_scan {p : α} {s v : List α} (h : .quoted p v ∈ scan key q s) :
    p = q ∧ v ≠ [] ∧ q ∉ v := by
  induction hn : s.length using Nat.strong_induction_on generalizing s with
  | _ n ih =>
    cases s with
    | nil => cases h
    | cons c s =>
      rcases scan_cases key q c s with ⟨w,rest,hat,hscan⟩ | ⟨-,hscan⟩
      · obtain ⟨htext,hw,hqw⟩ := quotedAt_eq_some.mp hat
        have hshort : rest.length < n := by
          rw [← hn,htext]
          simp only [List.length_append,List.length_cons]
          omega
        rw [hscan] at h
        rcases List.mem_cons.mp h with hsame | h
        · obtain ⟨rfl,rfl⟩ := Piece.quoted.inj hsame
          exact ⟨rfl,hw,hqw⟩
        · exact ih rest.length hshort h rfl
      · have hshort : s.length < n := by
          rw [← hn]
          exact Nat.lt_succ_self _
        rw [hscan] at h
        rcases List.mem_cons.mp h with hsame | h
        · cases hsame
        · exact ih s.length hshort h rfl

theorem flatMap_view_scan (s : List α) : (scan key q s).flatMap (view key q) = scan key q s := by
  have hself : ∀ piece ∈ scan key q s, view key q piece = [piece] := by
    intro piece hin
    cases piece with
    | text c => rfl
    | quoted p v =>
      obtain ⟨rfl,-⟩ := mem_scan hin
      rw [view,if_pos rfl]
  generalize scan key q s = ps at hself
  induction ps with
  | nil => rfl
  | cons piece ps ih =>
    rw [List.flatMap_cons,hself piece List.mem_cons_self,
      ih fun other hin => hself other (List.mem_cons_of_mem piece hin)]
    rfl

theorem scan_texts {s : List α} (hs : q ∉ s) : scan key q s = texts s := by
  induction s with
  | nil => rfl
  | cons c s ih =>
    have hnone : quotedAt key q (c :: s) = none := by
      cases hat : quotedAt key q (c :: s) with
      | none => rfl
      | some found =>
        obtain ⟨htext,-,-⟩ := quotedAt_eq_some.mp hat
        rw [htext] at hs
        exact absurd (List.mem_append_right key List.mem_cons_self) hs
    rw [scan_of_none hnone,ih fun hin => hs (List.mem_cons_of_mem c hin)]
    rfl

theorem quotedAt_append {a s v rest : List α} (hlength : s.length ≤ rest.length) :
    quotedAt key q (a ++ s) = some (v,rest) ↔
      ∃ r, rest = r ++ s ∧ quotedAt key q a = some (v,r) := by
  constructor
  · intro hat
    obtain ⟨htext,hv,hqv⟩ := quotedAt_eq_some.mp hat
    obtain ⟨r,rfl⟩ : s <:+ rest := by
      have hrest : rest <:+ a ++ s := ⟨key ++ q :: (v ++ [q]),by rw [htext]; simp⟩
      exact List.suffix_of_suffix_length_le (List.suffix_append a s) hrest hlength
    refine ⟨r,rfl,quotedAt_eq_some.mpr ⟨?_,hv,hqv⟩⟩
    refine List.append_cancel_right (?_ : a ++ s = _ ++ s)
    rw [htext]
    simp
  · rintro ⟨r,rfl,hat⟩
    obtain ⟨rfl,hv,hqv⟩ := quotedAt_eq_some.mp hat
    exact quotedAt_eq_some.mpr ⟨by simp,hv,hqv⟩

/-- Two texts scan one after the other when no value runs from the first into the second. -/
theorem scan_append {a s : List α} (h : ∀ (a' v rest : List α),
      v ∈ values (scan key q (a ++ s)) → quotedAt key q (a' ++ s) = some (v,rest) → a' <:+ a →
        s.length ≤ rest.length) :
    scan key q (a ++ s) = scan key q a ++ scan key q s := by
  induction hn : a.length using Nat.strong_induction_on generalizing a with
  | _ n ih =>
    cases a with
    | nil => rfl
    | cons c a =>
      rcases scan_cases key q c (a ++ s) with ⟨v,rest,hat,hscan⟩ | ⟨hat,hscan⟩
      · have hlength := h (c :: a) v rest
          (by rw [List.cons_append,hscan]; exact List.mem_cons_self) hat List.suffix_rfl
        obtain ⟨r,rfl,hat'⟩ := (quotedAt_append (a := c :: a) hlength).mp hat
        obtain ⟨htext,-,-⟩ := quotedAt_eq_some.mp hat'
        have hsuffix : r <:+ c :: a := ⟨key ++ q :: (v ++ [q]),by rw [htext]; simp⟩
        have hshort : r.length < n := by
          rw [← hn,htext]
          simp only [List.length_append,List.length_cons]
          omega
        rw [List.cons_append,hscan,scan_of_some hat',List.cons_append]
        refine congrArg _ (ih r.length hshort ?_ rfl)
        intro a' w rest' hw hat'' hin
        refine h a' w rest' ?_ hat'' (hin.trans hsuffix)
        rw [List.cons_append,hscan]
        exact List.mem_cons_of_mem _ hw
      · have hnone : quotedAt key q (c :: a) = none := by
          cases hfirst : quotedAt key q (c :: a) with
          | none => rfl
          | some found =>
            have hlength : s.length ≤ (found.2 ++ s).length := by
              rw [List.length_append]
              exact Nat.le_add_left _ _
            have hall := (quotedAt_append hlength).mpr ⟨found.2,rfl,hfirst⟩
            rw [List.cons_append,hat] at hall
            cases hall
        have hshort : a.length < n := by
          rw [← hn]
          exact Nat.lt_succ_self _
        rw [List.cons_append,hscan,scan_of_none hnone,List.cons_append]
        refine congrArg _ (ih a.length hshort ?_ rfl)
        intro a' w rest' hw hat'' hin
        refine h a' w rest' ?_ hat'' (hin.trans (List.suffix_cons c a))
        rw [List.cons_append,hscan]
        exact hw

theorem exists_of_quotedAt_append {a s v rest : List α}
    (hat : quotedAt key q (a ++ s) = some (v,rest)) (hlength : ¬s.length ≤ rest.length) :
    ∃ b, b ≠ [] ∧ s = b ++ rest ∧ key ++ q :: (v ++ [q]) = a ++ b := by
  obtain ⟨htext,-,-⟩ := quotedAt_eq_some.mp hat
  have hsplit : a ++ s = (key ++ q :: (v ++ [q])) ++ rest := by simpa using htext
  rcases List.append_eq_append_iff.mp hsplit with ⟨b,hb,hs⟩ | ⟨b,-,hrest⟩
  · refine ⟨b,?_,hs,hb⟩
    rintro rfl
    rw [hs,List.nil_append] at hlength
    exact hlength le_rfl
  · rw [hrest,List.length_append] at hlength
    omega

theorem scan_append_texts {a s : List α} (hs : q ∉ s) :
    scan key q (a ++ s) = scan key q a ++ texts s := by
  rw [scan_append,scan_texts hs]
  intro a' v rest _ hat _
  by_contra hlength
  obtain ⟨b,hb,hsb,hmatch⟩ := exists_of_quotedAt_append hat hlength
  have hlast : q ∈ b := by
    have hend : (key ++ q :: (v ++ [q])).getLast? = some q := by
      rw [← List.cons_append,← List.append_assoc,List.getLast?_append]
      rfl
    rw [hmatch,List.getLast?_append] at hend
    cases hbl : b.getLast? with
    | none => exact absurd (List.getLast?_eq_none_iff.mp hbl) hb
    | some d =>
      rw [hbl] at hend
      obtain rfl : d = q := Option.some.inj hend
      exact List.mem_of_getLast? hbl
  rw [hsb] at hs
  exact hs (List.mem_append_left rest hlast)

theorem scan_line {nl : α} (hkey : nl ∉ key) (hq : nl ≠ q) {a s : List α}
    (h : ∀ v ∈ values (scan key q (a ++ nl :: s)), nl ∉ v) :
    scan key q (a ++ nl :: s) = scan key q a ++ .text nl :: scan key q s := by
  rw [scan_append]
  · refine congrArg _ ?_
    exact scan_texts_append (List.not_mem_nil) hq hkey s
  intro a' v rest hv hat _
  by_contra hlength
  obtain ⟨b,hb,hsb,hmatch⟩ := exists_of_quotedAt_append hat hlength
  have hmem : nl ∈ key ++ q :: (v ++ [q]) := by
    rw [hmatch]
    cases b with
    | nil => exact absurd rfl hb
    | cons d b =>
      obtain ⟨rfl,-⟩ := List.cons.inj hsb
      simp
  simp only [List.mem_append,List.mem_cons,List.not_mem_nil,or_false] at hmem
  rcases hmem with hin | hin | hin | hin
  · exact hkey hin
  · exact hq hin
  · exact h v hv hin
  · exact hq hin

/-- Texts that are scanned one after the other: so are those after the first. -/
theorem scan_intercalate_cons {nl : α} {first : List α} {rest : List (List α)} (hne : rest ≠ [])
    (h : scan key q ([nl].intercalate (first :: rest)) =
      [.text nl].intercalate ((first :: rest).map (scan key q))) :
    scan key q ([nl].intercalate rest) = [.text nl].intercalate (rest.map (scan key q)) ∧
      scan key q (first ++ nl :: [nl].intercalate rest) =
        scan key q first ++ .text nl :: scan key q ([nl].intercalate rest) := by
  have hmap : rest.map (scan key q) ≠ [] := by simpa using hne
  rw [List.map_cons,intercalate_cons_of_ne_nil hne,intercalate_cons_of_ne_nil hmap] at h
  set tail := [Piece.text nl].intercalate (rest.map (scan key q)) with htail
  have htext : render key tail = [nl].intercalate rest := by
    have hall := congrArg (render key) h
    rw [render_scan,render_append,render_scan,render_cons] at hall
    exact ((List.cons.inj (List.append_cancel_left hall)).2).symm
  have hcut : scan key q (first ++ nl :: [nl].intercalate rest) =
      (scan key q first ++ [.text nl]) ++ tail := by
    rw [h]
    simp
  have hscan := scan_of_append hcut
  rw [htext] at hscan
  exact ⟨hscan,by rw [h,hscan]⟩

theorem values_intercalate {nl : α} (texts : List (List α)) :
    values ([.text nl].intercalate (texts.map (scan key q))) =
      texts.flatMap fun text => values (scan key q text) := by
  induction texts with
  | nil => rfl
  | cons first texts ih =>
    cases texts with
    | nil => simp
    | cons second texts =>
      rw [List.map_cons,intercalate_cons_of_ne_nil (by simp),values_append,List.flatMap_cons,← ih]
      rfl

/-- Texts out of which no value runs are scanned one after the other. -/
theorem scan_intercalate {nl : α} (hkey : nl ∉ key) (hq : nl ≠ q) {texts : List (List α)}
    (h : ∀ v ∈ values (scan key q ([nl].intercalate texts)), nl ∉ v) :
    scan key q ([nl].intercalate texts) = [.text nl].intercalate (texts.map (scan key q)) := by
  induction texts with
  | nil => rfl
  | cons first texts ih =>
    cases texts with
    | nil => simp
    | cons second texts =>
      have hmap : (second :: texts).map (scan key q) ≠ [] := by simp
      rw [intercalate_cons_of_ne_nil (List.cons_ne_nil second texts)] at h ⊢
      have hfirst := scan_line hkey hq h
      rw [hfirst] at h ⊢
      rw [ih fun v hv => h v (by rw [values_append]; exact List.mem_append_right _ hv)]
      exact (intercalate_cons_of_ne_nil hmap).symm

/-- No value runs out of a text in which all that start end. -/
theorem scan_of_closed {nl : α} (hkey : nl ∉ key) (hq : nl ≠ q) {a s : List α}
    (h : ∀ t, key ++ q :: t <:+ a → q ∈ t) :
    scan key q (a ++ nl :: s) = scan key q a ++ .text nl :: scan key q s := by
  rw [scan_append]
  · refine congrArg _ ?_
    exact scan_texts_append (List.not_mem_nil) hq hkey s
  intro a' v rest _ hat hsuffix
  by_contra hlength
  obtain ⟨b,hb,hsb,hmatch⟩ := exists_of_quotedAt_append hat hlength
  obtain ⟨d,b,rfl⟩ := List.exists_cons_of_ne_nil hb
  obtain ⟨rfl,-⟩ := List.cons.inj hsb
  obtain ⟨-,-,hqv⟩ := quotedAt_eq_some.mp hat
  rcases List.append_eq_append_iff.mp hmatch with ⟨t,rfl,ht⟩ | ⟨t,rfl,ht⟩
  · -- the match starts with all of its keyword in the text
    cases t with
    | nil =>
      obtain ⟨rfl,-⟩ := List.cons.inj ht
      exact hq rfl
    | cons e t =>
      obtain ⟨rfl,hv⟩ := List.cons.inj ht
      have hin : q ∈ t := h t hsuffix
      rcases List.append_eq_append_iff.mp hv with ⟨r,-,hr⟩ | ⟨r,rfl,-⟩
      · cases r with
        | nil =>
          obtain ⟨rfl,-⟩ := List.cons.inj hr
          exact hq rfl
        | cons f r =>
          have hempty := (List.cons.inj hr).2.symm
          exact List.append_ne_nil_of_right_ne_nil r (List.cons_ne_nil _ _) hempty
      · exact hqv (List.mem_append_left r hin)
  · cases t with
    | nil =>
      rw [List.nil_append] at ht
      obtain ⟨rfl,-⟩ := List.cons.inj ht
      exact hq rfl
    | cons e t =>
      obtain ⟨rfl,-⟩ := List.cons.inj ht
      exact hkey (List.mem_append_right a' List.mem_cons_self)

end Basic

/-! Values replaced. -/
section Refill

/-- One quote's values of a text, and what replaces them. Of the other quote's values only those
that are replaced are told apart. -/
inductive Refilled (key : List α) (q : α) : List (Piece α) → List (Piece α) → Prop
  | nil : Refilled key q [] []
  | text (c : α) {ps ps' : List (Piece α)} : Refilled key q ps ps' →
      Refilled key q (.text c :: ps) (.text c :: ps')
  | own (v : List α) {v' : List α} {ps ps' : List (Piece α)} : v' ≠ [] → q ∉ v' →
      Refilled key q ps ps' → Refilled key q (.quoted q v :: ps) (.quoted q v' :: ps')
  | other (w : List α) {w' : List α} {p : α} {ps ps' : List (Piece α)} : p ≠ q → p ∉ key →
      q ∉ w' → Refilled key q ps ps' →
      Refilled key q (texts (key ++ w) ++ ps) (texts (key ++ w' ++ [p]) ++ ps')

variable {key : List α} {k q : α} {ks : List α} {ps ps' : List (Piece α)}

omit [DecidableEq α] in
theorem Refilled.texts (s : List α) (h : Refilled key q ps ps') :
    Refilled key q (Piece.texts s ++ ps) (Piece.texts s ++ ps') := by
  induction s with
  | nil => exact h
  | cons c s ih => exact .text c ih

theorem Refilled.of_view {ps : List (Piece α)} {f : α → List α → List α}
    (hown : ∀ v, .quoted q v ∈ ps → v ≠ [] ∧ q ∉ v) (hkey : ∀ p v, .quoted p v ∈ ps → p ∉ key)
    (hf : ∀ p v, .quoted p v ∈ ps → f p v = v ∨ f p v ≠ [] ∧ q ∉ f p v) :
    Refilled key q (ps.flatMap (view key q))
      ((ps.map (mapValue f)).flatMap (view key q)) := by
  induction ps with
  | nil => exact .nil
  | cons piece ps ih =>
    have hrest := ih (fun v hv => hown v (List.mem_cons_of_mem _ hv))
      (fun p v hv => hkey p v (List.mem_cons_of_mem _ hv))
      (fun p v hv => hf p v (List.mem_cons_of_mem _ hv))
    rw [List.map_cons,List.flatMap_cons,List.flatMap_cons]
    cases piece with
    | text c => exact .text c hrest
    | quoted p v =>
      rw [mapValue,view,view]
      have hchange := hf p v List.mem_cons_self
      by_cases hpq : p = q
      · obtain rfl := hpq
        rw [if_pos rfl,if_pos rfl]
        have hv : f p v ≠ [] ∧ p ∉ f p v := by
          rcases hchange with hsame | hv
          · rw [hsame]
            exact hown v List.mem_cons_self
          · exact hv
        exact .own v hv.1 hv.2 hrest
      · rw [if_neg hpq,if_neg hpq]
        rcases hchange with hsame | hv
        · rw [hsame]
          exact hrest.texts _
        · have hfree : q ∉ p :: f p v := by
            intro hin
            rcases List.mem_cons.mp hin with hin | hin
            · exact hpq hin.symm
            · exact hv.2 hin
          have hother := Refilled.other (p :: (v ++ [p])) hpq (hkey p v List.mem_cons_self)
            hfree hrest
          simpa [raw] using hother

omit [DecidableEq α] in
theorem Refilled.mem (h : Refilled key q ps ps') (hq : q ∉ key)
    (hmem : q ∈ render key ps') : q ∈ render key ps := by
  induction h with
  | nil => exact hmem
  | text c _ ih =>
    rw [render_cons,raw,List.singleton_append,List.mem_cons] at hmem ⊢
    exact hmem.imp_right ih
  | own v _ _ _ _ =>
    rw [render_cons,raw]
    simp
  | other w hpq _ hw' _ ih =>
    rw [render_append,render_texts,List.mem_append] at hmem ⊢
    rcases hmem with hin | hin
    · simp only [List.mem_append,List.mem_singleton] at hin
      rcases hin with (hin | hin) | hin
      · exact absurd hin hq
      · exact absurd hin hw'
      · exact absurd hin.symm hpq
    · exact Or.inr (ih hin)

omit [DecidableEq α] in
theorem Refilled.head (h : Refilled (k :: ks) q ps ps') (hk : k ≠ q) {s s' : List α}
    (hs : s.head? ≠ some q) (hhead : (render (k :: ks) ps ++ s).head? = some q) :
    (render (k :: ks) ps' ++ s').head? = some q := by
  cases h with
  | nil => exact absurd hhead hs
  | text c _ => exact hhead
  | own v _ _ _ => exact absurd (Option.some.inj hhead) hk
  | other w _ _ _ _ => exact absurd (Option.some.inj hhead) hk

omit [DecidableEq α] in
theorem Refilled.of_prefix {m t' s' : List α} (h : Refilled (k :: ks) q ps ps') (hm : k ∉ m)
    (hs' : ∀ c ∈ s'.head?, c ∉ m) (hstart : render (k :: ks) ps' ++ s' = m ++ t') :
    ∃ us us', ps = Piece.texts m ++ us ∧ ps' = Piece.texts m ++ us' ∧
      Refilled (k :: ks) q us us' := by
  induction m generalizing ps ps' with
  | nil => exact ⟨ps,ps',rfl,rfl,h⟩
  | cons c m ih =>
    cases h with
    | nil =>
      rw [render_nil,List.nil_append] at hstart
      rw [hstart] at hs'
      exact absurd List.mem_cons_self (hs' c rfl)
    | text d h =>
      obtain ⟨rfl,hnext⟩ := List.cons.inj hstart
      obtain ⟨us,us',rfl,rfl,hus⟩ := ih h (fun hin => hm (List.mem_cons_of_mem d hin))
        (fun e he hin => hs' e he (List.mem_cons_of_mem d hin)) hnext
      exact ⟨us,us',rfl,rfl,hus⟩
    | own v _ _ _ =>
      obtain ⟨rfl,-⟩ := List.cons.inj hstart
      exact absurd List.mem_cons_self hm
    | other w _ _ _ _ =>
      obtain ⟨rfl,-⟩ := List.cons.inj hstart
      exact absurd List.mem_cons_self hm

theorem Refilled.scan_cons (h : Refilled (k :: ks) q ps ps') (hk : k ∉ ks) (hq : q ∉ k :: ks)
    {s s' : List α} {rest : List (Piece α)} (hs : s.head? ≠ some q)
    (hs' : ∀ c ∈ s'.head?, c ∉ k :: ks ∧ c ≠ q) (hmem : q ∈ s' → q ∈ s)
    (hscan : scan (k :: ks) q (render (k :: ks) ps ++ s) = ps ++ rest) :
    scan (k :: ks) q (render (k :: ks) ps' ++ s') = ps' ++ Piece.scan (k :: ks) q s' := by
  have hkq : k ≠ q := fun hsame => hq (hsame ▸ List.mem_cons_self)
  induction h with
  | nil => rfl
  | @text c ps ps' h ih =>
    obtain ⟨hnone,hrest⟩ := scan_eq_text (hscan : Piece.scan (k :: ks) q
      (c :: (render (k :: ks) ps ++ s)) = _)
    have hnone' : quotedAt (k :: ks) q (c :: (render (k :: ks) ps' ++ s')) = none := by
      cases hat : quotedAt (k :: ks) q (c :: (render (k :: ks) ps' ++ s')) with
      | none => rfl
      | some found =>
        obtain ⟨t',htext,hhead,hin⟩ := quotedAt_isSome.mp ⟨found.1,found.2,hat⟩
        obtain ⟨rfl,htail⟩ := List.cons.inj htext
        have hcut : render (c :: ks) ps' ++ s' = (ks ++ [q]) ++ t' := by
          rw [List.append_assoc,List.singleton_append]
          exact htail
        -- an opening lies in plain text: no value begins within the keyword
        obtain ⟨us,us',rfl,rfl,hus⟩ := h.of_prefix (by simp [hk,hkq])
          (fun d hd hmem => by
            rcases List.mem_append.mp hmem with hmem | hmem
            · exact (hs' d hd).1 (List.mem_cons_of_mem c hmem)
            · exact (hs' d hd).2 (List.mem_singleton.mp hmem)) hcut
        rw [render_append,render_texts,List.append_assoc] at hcut
        obtain rfl := List.append_cancel_left hcut
        have hopen : ∃ v rest, quotedAt (c :: ks) q
            (c :: (render (c :: ks) (Piece.texts (ks ++ [q]) ++ us) ++ s)) = some (v,rest) := by
          refine quotedAt_isSome.mpr ⟨render (c :: ks) us ++ s,by simp,?_,?_⟩
          · exact fun hfirst => hhead (hus.head hkq hs hfirst)
          · rcases List.mem_append.mp hin with hin | hin
            · exact List.mem_append_left _ (hus.mem hq hin)
            · exact List.mem_append_right _ (hmem hin)
        obtain ⟨v,rest',hsome⟩ := hopen
        cases hnone.symm.trans hsome
    have hih := ih hrest
    rw [render_cons]
    exact (scan_of_none hnone').trans (congrArg _ hih)
  | @own v v' ps ps' hv' hqv' h ih =>
    obtain ⟨-,t,hat,hrest⟩ := scan_eq_quoted hscan
    obtain ⟨htext,-,-⟩ := quotedAt_eq_some.mp hat
    have ht : render (k :: ks) ps ++ s = t := by
      simpa [raw] using htext
    have hat' : quotedAt (k :: ks) q (render (k :: ks) (.quoted q v' :: ps') ++ s') =
        some (v',render (k :: ks) ps' ++ s') :=
      quotedAt_eq_some.mpr ⟨by simp [raw],hv',hqv'⟩
    rw [scan_of_some hat',ih (ht ▸ hrest)]
    rfl
  | @other w w' p ps ps' hpq hp hw' h ih =>
    rw [render_append,render_texts,List.append_assoc (k :: ks ++ w),
      List.append_assoc (Piece.texts _)] at hscan
    have hrest := scan_of_texts_append hscan
    have hfree : q ∉ k :: ks ++ w' := by
      intro hin
      rcases List.mem_append.mp hin with hin | hin
      · exact hq hin
      · exact hw' hin
    rw [render_append,render_texts,List.append_assoc,List.append_assoc,List.singleton_append,
      scan_texts_append hfree hpq hp,ih hrest,List.append_assoc,List.append_assoc]

/-- A keyword whose first character is in it once, and without the quote. -/
def IsKeyword (key : List α) (q : α) : Prop := (∃ k ks, key = k :: ks ∧ k ∉ ks) ∧ q ∉ key

theorem Refilled.scan (h : Refilled key q ps ps') (hkey : IsKeyword key q) {s s' : List α}
    {rest : List (Piece α)} (hs : s.head? ≠ some q) (hs' : ∀ c ∈ s'.head?, c ∉ key ∧ c ≠ q)
    (hmem : q ∈ s' → q ∈ s) (hscan : scan key q (render key ps ++ s) = ps ++ rest) :
    Piece.scan key q (render key ps' ++ s') = ps' ++ Piece.scan key q s' := by
  obtain ⟨⟨k,ks,rfl,hk⟩,hq⟩ := hkey
  exact h.scan_cons hk hq hs hs' hmem hscan

end Refill

end Piece

end Library
