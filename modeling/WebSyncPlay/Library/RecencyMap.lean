import Mathlib

/-! Maps that keep the entries touched last: what a history of touches leaves, and the map of
bounded size that keeps the young end of it. -/
namespace Library

variable {K V : Type*} [DecidableEq K]

section History

/-- The last entry of each key of a history, in the order of the touches. -/
def latest : List (K × V) → List (K × V)
  | [] => []
  | e :: es => if e.1 ∈ es.map Prod.fst then latest es else e :: latest es

theorem mem_keys_latest (es : List (K × V)) (k : K) :
    k ∈ (latest es).map Prod.fst ↔ k ∈ es.map Prod.fst := by
  induction es with
  | nil => rfl
  | cons e es ih =>
    by_cases h : e.1 ∈ es.map Prod.fst
    · rw [latest,if_pos h,ih,List.map_cons,List.mem_cons]
      constructor
      · exact .inr
      · intro hk
        rcases hk with rfl | hk
        · exact h
        · exact hk
    · rw [latest,if_neg h,List.map_cons,List.map_cons,List.mem_cons,List.mem_cons,ih]

theorem latest_nodup (es : List (K × V)) : ((latest es).map Prod.fst).Nodup := by
  induction es with
  | nil => exact List.nodup_nil
  | cons e es ih =>
    by_cases h : e.1 ∈ es.map Prod.fst
    · rwa [latest,if_pos h]
    · rw [latest,if_neg h,List.map_cons,List.nodup_cons,mem_keys_latest]
      exact ⟨h,ih⟩

theorem latest_sublist (es : List (K × V)) : (latest es).Sublist es := by
  induction es with
  | nil => exact .slnil
  | cons e es ih =>
    by_cases h : e.1 ∈ es.map Prod.fst
    · rw [latest,if_pos h]
      exact ih.cons e
    · rw [latest,if_neg h]
      exact ih.cons_cons e

theorem latest_append_singleton (es : List (K × V)) (e : K × V) :
    latest (es ++ [e]) = (latest es).filter (fun kept => kept.1 != e.1) ++ [e] := by
  induction es with
  | nil => simp [latest]
  | cons a es ih =>
    by_cases ha : a.1 ∈ es.map Prod.fst
    · have hmem : a.1 ∈ (es ++ [e]).map Prod.fst := by
        rw [List.map_append]
        exact List.mem_append_left _ ha
      rw [List.cons_append,latest,if_pos hmem,latest,if_pos ha,ih]
    · by_cases he : a.1 = e.1
      · have hmem : a.1 ∈ (es ++ [e]).map Prod.fst := by simp [he]
        rw [List.cons_append,latest,if_pos hmem,latest,if_neg ha,ih,
          List.filter_cons_of_neg (by simp [he])]
      · have hmem : a.1 ∉ (es ++ [e]).map Prod.fst := by
          rw [List.map_append,List.mem_append]
          simpa [he] using ha
        rw [List.cons_append,latest,if_neg hmem,latest,if_neg ha,ih,
          List.filter_cons_of_pos (by simp [he]),List.cons_append]

theorem latest_append_cons (old young : List (K × V)) (e : K × V)
    (h : e.1 ∉ young.map Prod.fst) :
    ∃ front, latest (old ++ e :: young) = front ++ e :: latest young := by
  induction old with
  | nil => exact ⟨[],by rw [List.nil_append,latest,if_neg h,List.nil_append]⟩
  | cons a old ih =>
    obtain ⟨front,hfront⟩ := ih
    rw [List.cons_append,latest]
    split
    · exact ⟨front,hfront⟩
    · exact ⟨a :: front,by rw [hfront,List.cons_append]⟩

end History

section Youngest

variable {α : Type*}

def youngest (cap : ℕ) : List α → List α
  | [] => []
  | a :: l => if cap < l.length+1 then youngest cap l else a :: l

theorem youngest_eq_drop (cap : ℕ) (l : List α) : youngest cap l = l.drop (l.length-cap) := by
  induction l with
  | nil => simp [youngest]
  | cons a l ih =>
    rw [youngest,List.length_cons]
    split
    · rename_i h
      rw [ih,show l.length+1-cap = (l.length-cap)+1 by omega,List.drop_succ_cons]
    · rename_i h
      rw [show l.length+1-cap = 0 by omega,List.drop_zero]

theorem youngest_sublist (cap : ℕ) (l : List α) : (youngest cap l).Sublist l := by
  rw [youngest_eq_drop]
  exact List.drop_sublist _ _

theorem length_youngest (cap : ℕ) (l : List α) : (youngest cap l).length = min cap l.length := by
  rw [youngest_eq_drop,List.length_drop]
  omega

theorem youngest_of_length_le {cap : ℕ} {l : List α} (h : l.length ≤ cap) : youngest cap l = l := by
  rw [youngest_eq_drop,show l.length-cap = 0 by omega,List.drop_zero]

theorem youngest_append {cap : ℕ} (old : List α) {young : List α} (h : cap ≤ young.length) :
    youngest cap (old ++ young) = youngest cap young := by
  rw [youngest_eq_drop,youngest_eq_drop,List.length_append,
    show old.length+young.length-cap = old.length+(young.length-cap) by omega,
    ← List.drop_drop,List.drop_left]

theorem mem_youngest_iff {cap : ℕ} {old young : List α} {a : α} (hnodup : (old ++ a :: young).Nodup) :
    a ∈ youngest cap (old ++ a :: young) ↔ young.length < cap := by
  constructor
  · intro hmem
    by_contra hle
    rw [show old ++ a :: young = (old ++ [a]) ++ young by simp,
      youngest_append _ (not_lt.mp hle)] at hmem
    have hyoung : a ∈ young := (youngest_sublist cap young).mem hmem
    exact (List.nodup_cons.mp (hnodup.of_append_right)).1 hyoung
  · intro hlt
    rw [youngest_eq_drop]
    have hle : (old ++ a :: young).length-cap ≤ old.length := by
      rw [List.length_append,List.length_cons]
      omega
    rw [List.drop_append_of_le_length hle]
    exact List.mem_append_right _ List.mem_cons_self

end Youngest

/-- Entries by key, the one touched longest ago first, and at most so many of them. -/
structure RecencyMap (K V : Type*) (cap : ℕ) where
  entries : List (K × V)
  nodup : (entries.map Prod.fst).Nodup
  length_le : entries.length ≤ cap

namespace RecencyMap

variable {cap : ℕ}

def empty : RecencyMap K V cap := ⟨[],List.nodup_nil,Nat.zero_le cap⟩

def get? (m : RecencyMap K V cap) (k : K) : Option V :=
  (m.entries.find? fun kept => kept.1 == k).map Prod.snd

/-- Delete the key, set it again at the young end, and drop what no longer fits. -/
def touch (m : RecencyMap K V cap) (k : K) (v : V) : RecencyMap K V cap where
  entries := youngest cap (m.entries.filter (fun kept => kept.1 != k) ++ [(k,v)])
  nodup := by
    have hsub := (youngest_sublist cap (m.entries.filter (fun kept => kept.1 != k) ++ [(k,v)])).map
      Prod.fst
    refine hsub.nodup ?_
    rw [List.map_append,List.nodup_append]
    refine ⟨(List.filter_sublist.map _).nodup m.nodup,by simp,?_⟩
    intro a ha b hb hab
    obtain ⟨e,he,rfl⟩ := List.mem_map.mp ha
    have hne := (List.mem_filter.mp he).2
    have hbk : b = k := by simpa using hb
    simp [hab,hbk] at hne
  length_le := by
    rw [length_youngest]
    exact Nat.min_le_left _ _

theorem get?_eq_some_iff (m : RecencyMap K V cap) (k : K) (v : V) :
    m.get? k = some v ↔ (k,v) ∈ m.entries := by
  unfold get?
  rw [Option.map_eq_some_iff]
  constructor
  · intro h
    obtain ⟨e,he,rfl⟩ := h
    have hk : e.1 = k := by simpa using List.find?_some he
    have hmem := List.mem_of_find?_eq_some he
    rwa [← hk]
  · intro hmem
    cases hfind : m.entries.find? fun kept => kept.1 == k with
    | none =>
      have hnone := List.find?_eq_none.mp hfind (k,v) hmem
      simp at hnone
    | some e =>
      have hk : e.1 = k := by simpa using List.find?_some hfind
      have he : e = (k,v) := List.inj_on_of_nodup_map m.nodup (List.mem_of_find?_eq_some hfind)
        hmem hk
      exact ⟨e,rfl,by rw [he]⟩

/-- The map holds the young end of what a history of touches leaves. -/
def Holds (m : RecencyMap K V cap) (history : List (K × V)) : Prop :=
  m.entries = youngest cap (latest history)

theorem holds_empty : (empty : RecencyMap K V cap).Holds [] := rfl

theorem Holds.touch {m : RecencyMap K V cap} {history : List (K × V)} (h : m.Holds history)
    (k : K) (v : V) : (m.touch k v).Holds (history ++ [(k,v)]) := by
  have hentries : m.entries = youngest cap (latest history) := h
  show youngest cap (m.entries.filter (fun kept => kept.1 != k) ++ [(k,v)]) =
    youngest cap (latest (history ++ [(k,v)]))
  rw [latest_append_singleton,hentries]
  -- either nothing has been dropped, or as much is kept as fits
  by_cases hfits : (latest history).length ≤ cap
  · rw [youngest_of_length_le hfits]
  · have hsplit : latest history = (latest history).take ((latest history).length-cap) ++
        youngest cap (latest history) := by
      rw [youngest_eq_drop,List.take_append_drop]
    have hlength : (youngest cap (latest history)).length = cap := by
      rw [length_youngest]
      omega
    generalize youngest cap (latest history) = young at hsplit hlength ⊢
    rw [hsplit,List.filter_append,List.append_assoc]
    have hnodup : (young.map Prod.fst).Nodup := by
      have hall := latest_nodup history
      rw [hsplit,List.map_append] at hall
      exact hall.of_append_right
    have hcount : young.length ≤ (young.filter (fun kept => kept.1 != k)).length+1 := by
      have hone : young.countP (fun kept => kept.1 == k) ≤ 1 := by
        have hle := List.nodup_iff_count_le_one.mp hnodup k
        rwa [List.count_eq_countP,List.countP_map] at hle
      have hsum := List.length_eq_countP_add_countP (l := young) (fun kept => kept.1 == k)
      have hfilter : (young.filter (fun kept => kept.1 != k)).length =
          young.countP (fun kept => decide ¬(kept.1 == k) = true) := by
        rw [← List.countP_eq_length_filter]
        refine List.countP_congr fun kept _ => ?_
        simp
      omega
    have hcap : cap ≤ (young.filter (fun kept => kept.1 != k) ++ [(k,v)]).length := by
      rw [List.length_append,List.length_singleton]
      omega
    exact (youngest_append _ hcap).symm

/-- A key is kept exactly as long as fewer others than fit have been touched after it. -/
theorem Holds.mem_entries_iff {m : RecencyMap K V cap} {old young : List (K × V)} {e : K × V}
    (h : m.Holds (old ++ e :: young)) (hlast : e.1 ∉ young.map Prod.fst) :
    e ∈ m.entries ↔ (latest young).length < cap := by
  obtain ⟨front,hfront⟩ := latest_append_cons old young e hlast
  have hnodup : (front ++ e :: latest young).Nodup := by
    rw [← hfront]
    exact (latest_nodup _).of_map
  have hentries : m.entries = youngest cap (latest (old ++ e :: young)) := h
  rw [hentries,hfront]
  exact mem_youngest_iff hnodup

end RecencyMap
end Library
