import Mathlib

/-! Plain objects of a scripting language, as finite maps with a property order.
Keys that are array indices come first, in increasing order; every other key
keeps the place at which it was first inserted. -/
namespace Library

/-- How a key type tells its array indices from its other keys. -/
class PropertyKey (K : Type*) where
  arrayIndex? : K → Option ℕ

/-- The own properties of an object, in property order, without repeated keys. -/
structure Record (K V : Type*) where
  entries : List (K × V)
  nodup_keys : (entries.map Prod.fst).Nodup
  deriving DecidableEq

namespace Record

variable {K V W : Type*}

@[ext] theorem ext {r t : Record K V} (h : r.entries = t.entries) : r = t := by
  cases r; cases t; cases h; rfl

def empty : Record K V := ⟨[],by simp⟩

instance : Inhabited (Record K V) := ⟨empty⟩

def keys (r : Record K V) : List K := r.entries.map Prod.fst

def values (r : Record K V) : List V := r.entries.map Prod.snd

def size (r : Record K V) : ℕ := r.entries.length

/-- The values are replaced one by one; every key stays where it is. -/
def mapValues (f : V → W) (r : Record K V) : Record K W where
  entries := r.entries.map fun e => (e.1,f e.2)
  nodup_keys := by
    simpa [List.map_map,Function.comp_def] using r.nodup_keys

/-- Keep the properties whose key and value satisfy a test. -/
def filter (p : K → V → Bool) (r : Record K V) : Record K V where
  entries := r.entries.filter fun e => p e.1 e.2
  nodup_keys := r.nodup_keys.sublist (List.filter_sublist.map _)

/-- The first `n` properties in property order. -/
def take (n : ℕ) (r : Record K V) : Record K V where
  entries := r.entries.take n
  nodup_keys := r.nodup_keys.sublist ((List.take_sublist _ _).map _)

/-- All but the first `n` properties in property order. -/
def drop (n : ℕ) (r : Record K V) : Record K V where
  entries := r.entries.drop n
  nodup_keys := r.nodup_keys.sublist ((List.drop_sublist _ _).map _)

/-- Where a new key goes: an index before the first larger index or other key,
any other key at the end. -/
def insertEntry [PropertyKey K] (k : K) (v : V) (es : List (K × V)) : List (K × V) :=
  match PropertyKey.arrayIndex? k with
  | none => es ++ [(k,v)]
  | some n =>
    let smaller : K × V → Bool := fun e =>
      match PropertyKey.arrayIndex? e.1 with
      | some m => decide (m < n)
      | none => false
    es.takeWhile smaller ++ (k,v) :: es.dropWhile smaller

theorem insertEntry_perm [PropertyKey K] (k : K) (v : V) (es : List (K × V)) :
    (insertEntry k v es).Perm ((k,v) :: es) := by
  unfold insertEntry
  split
  · exact List.perm_append_singleton (k,v) es
  · rename_i n _
    refine (List.perm_middle).trans ?_
    rw [List.takeWhile_append_dropWhile]

theorem take_of_size_le (r : Record K V) (n : ℕ) (h : r.size ≤ n) : r.take n = r :=
  Record.ext (List.take_of_length_le h)

@[simp] theorem keys_mapValues (f : V → W) (r : Record K V) : (r.mapValues f).keys = r.keys := by
  simp only [keys,mapValues,List.map_map,Function.comp_def]

theorem size_eq_of_keys {r : Record K V} {t : Record K W} (h : r.keys = t.keys) :
    r.size = t.size := by
  have hlength := congrArg List.length h
  simpa only [keys,size,List.length_map] using hlength

variable [DecidableEq K]

def get? (r : Record K V) (k : K) : Option V :=
  (r.entries.find? fun e => e.1 == k).map Prod.snd

/-- Change the value of one property in place, if the object has it. -/
def modify (r : Record K V) (k : K) (f : V → V) : Record K V where
  entries := r.entries.map fun e => if e.1 = k then (e.1,f e.2) else e
  nodup_keys := by
    have hk : (r.entries.map fun e => if e.1 = k then (e.1,f e.2) else e).map Prod.fst =
        r.entries.map Prod.fst := by
      rw [List.map_map]
      apply List.map_congr_left
      intro e _
      by_cases h : e.1 = k <;> simp [h]
    rw [hk]
    exact r.nodup_keys

@[simp] theorem keys_modify (r : Record K V) (k : K) (f : V → V) :
    (r.modify k f).keys = r.keys := by
  simp only [keys,modify,List.map_map]
  apply List.map_congr_left
  intro e _
  by_cases h : e.1 = k <;> simp [h]

theorem mapValues_modify {f : V → V} {g : V → W} (r : Record K V) (k : K)
    (h : ∀ v, g (f v) = g v) : (r.modify k f).mapValues g = r.mapValues g := by
  apply Record.ext
  simp only [mapValues,modify,List.map_map]
  apply List.map_congr_left
  intro e _
  by_cases he : e.1 = k <;> simp [he,h]

def erase (r : Record K V) (k : K) : Record K V :=
  r.filter fun j _ => j != k

/-- Assign a property: in place when the key exists, else as a new one. -/
def set [PropertyKey K] (r : Record K V) (k : K) (v : V) : Record K V :=
  if hk : k ∈ r.entries.map Prod.fst then r.modify k fun _ => v
  else {
    entries := insertEntry k v r.entries
    nodup_keys := by
      have hp := (insertEntry_perm k v r.entries).map Prod.fst
      rw [hp.nodup_iff]
      exact List.nodup_cons.mpr ⟨hk,r.nodup_keys⟩ }

theorem size_set_of_mem [PropertyKey K] (r : Record K V) (k : K) (v : V) (h : k ∈ r.keys) :
    (r.set k v).size = r.size := by
  have hk : k ∈ r.entries.map Prod.fst := h
  unfold set
  rw [dif_pos hk]
  exact size_eq_of_keys (keys_modify r k _)

theorem size_set_of_not_mem [PropertyKey K] (r : Record K V) (k : K) (v : V) (h : k ∉ r.keys) :
    (r.set k v).size = r.size+1 := by
  have hk : k ∉ r.entries.map Prod.fst := h
  unfold set
  rw [dif_neg hk]
  exact (insertEntry_perm k v r.entries).length_eq

omit [DecidableEq K] in
theorem size_filter_le (r : Record K V) (p : K → V → Bool) : (r.filter p).size ≤ r.size :=
  List.length_filter_le _ _

theorem size_foldl_erase_le (ks : List K) (r : Record K V) : (ks.foldl erase r).size ≤ r.size := by
  induction ks generalizing r with
  | nil => exact le_rfl
  | cons k ks ih => exact (ih (r.erase k)).trans (size_filter_le r _)

/-- Lookup agrees with membership because no key occurs twice. -/
theorem get?_eq_some_iff (r : Record K V) (k : K) (v : V) :
    r.get? k = some v ↔ (k,v) ∈ r.entries := by
  obtain ⟨es,hes⟩ := r
  simp only [get?]
  induction es with
  | nil => simp
  | cons e es ih =>
    simp only [List.map_cons,List.nodup_cons] at hes
    by_cases he : e.1 = k
    · subst he
      have hnot : (e.1,v) ∉ es := fun hm => hes.1 (List.mem_map.mpr ⟨(e.1,v),hm,rfl⟩)
      simp only [List.find?_cons,beq_self_eq_true,Option.map_some,Option.some.injEq,
        List.mem_cons,hnot,or_false]
      constructor
      · rintro rfl; rfl
      · intro h; exact (Prod.ext_iff.mp h).2.symm
    · have hne : (k,v) ≠ e := fun h => he (by rw [← h])
      simpa [List.find?_cons,he,hne] using ih hes.2

theorem get?_eq_none_iff (r : Record K V) (k : K) : r.get? k = none ↔ k ∉ r.keys := by
  simp only [get?,keys,Option.map_eq_none_iff,List.find?_eq_none,beq_iff_eq,List.mem_map,
    not_exists,not_and]

theorem mem_keys_iff (r : Record K V) (k : K) : k ∈ r.keys ↔ ∃ v, r.get? k = some v := by
  rw [← not_iff_not,← get?_eq_none_iff,Option.eq_none_iff_forall_not_mem]
  simp

theorem mem_values_iff (r : Record K V) (v : V) : v ∈ r.values ↔ ∃ k, r.get? k = some v := by
  simp [values,get?_eq_some_iff]

theorem get?_ext_iff {r : Record K V} {k : K} {o : Option V}
    (h : ∀ v, (k,v) ∈ r.entries ↔ o = some v) : r.get? k = o := by
  apply Option.ext
  intro v
  rw [get?_eq_some_iff,h]

theorem get?_eq_of_perm {r t : Record K V} (h : r.entries.Perm t.entries) (k : K) :
    r.get? k = t.get? k := by
  apply get?_ext_iff
  intro v
  rw [h.mem_iff,get?_eq_some_iff]

theorem perm_of_get? {r t : Record K V} (h : ∀ k, r.get? k = t.get? k) :
    r.entries.Perm t.entries := by
  refine (List.perm_ext_iff_of_nodup r.nodup_keys.of_map t.nodup_keys.of_map).mpr ?_
  intro entry
  rw [← get?_eq_some_iff,← get?_eq_some_iff,h]

@[simp] theorem get?_empty (k : K) : (empty : Record K V).get? k = none := rfl

@[simp] theorem get?_mapValues (f : V → W) (r : Record K V) (k : K) :
    (r.mapValues f).get? k = (r.get? k).map f := by
  apply get?_ext_iff
  intro w
  simp only [mapValues,List.mem_map,Option.map_eq_some_iff,get?_eq_some_iff]
  constructor
  · rintro ⟨⟨k',v⟩,he,h⟩
    obtain ⟨rfl,rfl⟩ := Prod.mk.inj h
    exact ⟨v,he,rfl⟩
  · rintro ⟨v,he,rfl⟩
    exact ⟨(k,v),he,rfl⟩

@[simp] theorem get?_filter (p : K → V → Bool) (r : Record K V) (k : K) :
    (r.filter p).get? k = (r.get? k).filter (p k) := by
  apply get?_ext_iff
  intro v
  simp [filter,Option.filter_eq_some_iff,get?_eq_some_iff]

@[simp] theorem get?_modify (r : Record K V) (k : K) (f : V → V) (j : K) :
    (r.modify k f).get? j = if j = k then (r.get? j).map f else r.get? j := by
  apply get?_ext_iff
  intro v
  simp only [modify,List.mem_map]
  constructor
  · rintro ⟨⟨i,u⟩,he,h⟩
    have hu := (get?_eq_some_iff r i u).mpr he
    by_cases hi : i = k
    · subst hi
      simp only [if_pos,Prod.mk.injEq] at h
      obtain ⟨rfl,rfl⟩ := h
      simp [hu]
    · simp only [hi,if_false,Prod.mk.injEq] at h
      obtain ⟨rfl,rfl⟩ := h
      simp [hi,hu]
  · intro h
    by_cases hj : j = k
    · subst hj
      rw [if_pos rfl,Option.map_eq_some_iff] at h
      obtain ⟨u,hu,rfl⟩ := h
      exact ⟨(j,u),(get?_eq_some_iff r j u).mp hu,by simp⟩
    · rw [if_neg hj] at h
      exact ⟨(j,v),(get?_eq_some_iff r j v).mp h,by simp [hj]⟩

@[simp] theorem get?_erase (r : Record K V) (k j : K) :
    (r.erase k).get? j = if j = k then none else r.get? j := by
  by_cases h : j = k
  · subst h
    simp [erase,Option.filter]
    cases r.get? j <;> simp
  · simp only [erase,get?_filter,h,if_false]
    cases r.get? j <;> simp [Option.filter,h]

@[simp] theorem get?_set [PropertyKey K] (r : Record K V) (k : K) (v : V) (j : K) :
    (r.set k v).get? j = if j = k then some v else r.get? j := by
  unfold set
  split
  · rename_i hk
    obtain ⟨u,hu⟩ := (mem_keys_iff r k).mp hk
    by_cases h : j = k
    · subst h; simp [hu]
    · simp [h]
  · rename_i hk
    apply get?_ext_iff
    intro w
    rw [(insertEntry_perm k v r.entries).mem_iff,List.mem_cons,← get?_eq_some_iff,Prod.mk.injEq]
    by_cases h : j = k
    · subst h
      have hn : r.get? j = none := (get?_eq_none_iff r j).mpr hk
      simp [hn,eq_comm]
    · simp [h]

theorem values_set_subperm [PropertyKey K] (r : Record K V) (k : K) (v : V) :
    (r.set k v).values.Subperm (v :: r.values) := by
  have hmodify : ∀ es : List (K × V), (es.map Prod.fst).Nodup →
      ((es.map fun e => if e.1 = k then (e.1,v) else e).map Prod.snd).Subperm
        (v :: es.map Prod.snd) := by
    intro es hnodup
    induction es with
    | nil => exact List.nil_subperm
    | cons e es ih =>
      rw [List.map_cons,List.nodup_cons] at hnodup
      by_cases he : e.1 = k
      · have hrest : (es.map fun e => if e.1 = k then (e.1,v) else e) = es := by
          refine (List.map_congr_left fun e' he' => if_neg fun hk => hnodup.1 ?_).trans
            (List.map_id' es)
          rw [he,← hk]
          exact List.mem_map_of_mem he'
        have hsub := ((List.sublist_cons_self e.2 (es.map Prod.snd)).cons_cons v).subperm
        simpa [he,hrest] using hsub
      · have hswap := (List.subperm_cons e.2).mpr (ih hnodup.2)
        simpa [he] using hswap.trans (List.Perm.swap v e.2 _).subperm
  rw [set]
  split
  · exact hmodify r.entries r.nodup_keys
  · exact ((insertEntry_perm k v r.entries).map Prod.snd).subperm

theorem get?_foldl_erase (ks : List K) (r : Record K V) (j : K) :
    (ks.foldl erase r).get? j = if j ∈ ks then none else r.get? j := by
  induction ks generalizing r with
  | nil => simp
  | cons k ks ih =>
    rw [List.foldl_cons,ih,get?_erase]
    by_cases hk : j = k
    · simp [hk]
    · simp [hk]

theorem get?_foldl_modify {f : W → V → V} (t : Record K W) (r : Record K V) (k : K) :
    (t.entries.foldl (fun r e => r.modify e.1 (f e.2)) r).get? k =
      (r.get? k).map fun v => (t.get? k).elim v fun w => f w v := by
  obtain ⟨es,hes⟩ := t
  simp only [get?]
  change ((es.foldl (fun r e => r.modify e.1 (f e.2)) r).get? k) = (r.get? k).map _
  induction es generalizing r with
  | nil => simp
  | cons e es ih =>
    obtain ⟨hfirst,hrest⟩ := List.nodup_cons.mp hes
    rw [List.foldl_cons,ih _ hrest,get?_modify]
    by_cases he : e.1 = k
    · subst he
      -- The key comes once, so nothing after it changes the value.
      have hnone : es.find? (fun e' => e'.1 == e.1) = none := by
        rw [List.find?_eq_none]
        intro e' he' hsame
        exact hfirst (List.mem_map.mpr ⟨e',he',by simpa using hsame⟩)
      cases r.get? e.1 <;> simp [hnone]
    · have hne : ¬k = e.1 := fun h => he h.symm
      simp [hne,he]

theorem get?_take_some (r : Record K V) (n : ℕ) (k : K) (v : V)
    (h : (r.take n).get? k = some v) : r.get? k = some v := by
  rw [get?_eq_some_iff] at h ⊢
  exact List.mem_of_mem_take h

theorem get?_drop_some (r : Record K V) (n : ℕ) (k : K) (v : V)
    (h : (r.drop n).get? k = some v) : r.get? k = some v := by
  rw [get?_eq_some_iff] at h ⊢
  exact List.mem_of_mem_drop h

/-- An object with no other keys is no larger. -/
theorem size_le_of_get? {t : Record K V} (r : Record K V)
    (h : ∀ k, (r.get? k).isSome → (t.get? k).isSome) : r.size ≤ t.size := by
  have hkeys : r.keys ⊆ t.keys := by
    intro k hk
    obtain ⟨v,hv⟩ := (mem_keys_iff r k).mp hk
    obtain ⟨v',hv'⟩ := Option.isSome_iff_exists.mp (h k (by rw [hv]; rfl))
    exact (mem_keys_iff t k).mpr ⟨v',hv'⟩
  have hle := (r.nodup_keys.subperm hkeys).length_le
  simpa only [keys,size,List.length_map] using hle

theorem filter_eq_self (r : Record K V) (p : K → V → Bool)
    (h : ∀ k v, r.get? k = some v → p k v = true) : r.filter p = r := by
  apply Record.ext
  apply List.filter_eq_self.mpr
  rintro ⟨k,v⟩ he
  exact h k v ((get?_eq_some_iff r k v).mpr he)

theorem size_eq_zero_iff (r : Record K V) : r.size = 0 ↔ ∀ k, r.get? k = none := by
  simp only [size,List.length_eq_zero_iff,get?_eq_none_iff,keys]
  constructor
  · intro h; simp [h]
  · intro h
    cases hes : r.entries with
    | nil => rfl
    | cons e es => exact absurd (by simp [hes]) (h e.1)

/-- Every property of `t` comes from the one of `r` under the same key. -/
def Derives (R : V → W → Prop) (r : Record K V) (t : Record K W) : Prop :=
  ∀ k w, t.get? k = some w → ∃ v, r.get? k = some v ∧ R v w

namespace Derives

variable {R : V → V → Prop} {r t u : Record K V}

theorem refl (hR : ∀ v, R v v) (r : Record K V) : Derives R r r :=
  fun _ v h => ⟨v,h,hR v⟩

theorem trans (hR : ∀ a b c, R a b → R b c → R a c) (h : Derives R r t) (h' : Derives R t u) :
    Derives R r u := by
  intro k w hw
  obtain ⟨v,hv,hvw⟩ := h' k w hw
  obtain ⟨x,hx,hxv⟩ := h k v hv
  exact ⟨x,hx,hR x v w hxv hvw⟩

theorem mono {R' : V → V → Prop} (hR : ∀ a b, R a b → R' a b) (h : Derives R r t) :
    Derives R' r t := by
  intro k w hw
  obtain ⟨v,hv,hvw⟩ := h k w hw
  exact ⟨v,hv,hR v w hvw⟩

theorem mapValues {R : V → W → Prop} {f : V → W} (r : Record K V) (hf : ∀ v, R v (f v)) :
    Derives R r (r.mapValues f) := by
  intro k w hw
  obtain ⟨v,hv,rfl⟩ := Option.map_eq_some_iff.mp ((get?_mapValues f r k).symm.trans hw)
  exact ⟨v,hv,hf v⟩

theorem modify {f : V → V} (r : Record K V) (k : K) (hR : ∀ v, R v v)
    (hf : ∀ v, r.get? k = some v → R v (f v)) : Derives R r (r.modify k f) := by
  intro j w hw
  rw [get?_modify] at hw
  split at hw
  · rename_i hj
    subst hj
    obtain ⟨v,hv,rfl⟩ := Option.map_eq_some_iff.mp hw
    exact ⟨v,hv,hf v hv⟩
  · exact ⟨w,hw,hR w⟩

theorem erase (r : Record K V) (k : K) (hR : ∀ v, R v v) : Derives R r (r.erase k) := by
  intro j w hw
  rw [get?_erase] at hw
  split at hw
  · cases hw
  · exact ⟨w,hw,hR w⟩

theorem filter (r : Record K V) (p : K → V → Bool) (hR : ∀ v, R v v) :
    Derives R r (r.filter p) := by
  intro k w hw
  rw [get?_filter,Option.filter_eq_some_iff] at hw
  exact ⟨w,hw.1,hR w⟩

theorem take (r : Record K V) (n : ℕ) (hR : ∀ v, R v v) : Derives R r (r.take n) :=
  fun k w hw => ⟨w,get?_take_some r n k w hw,hR w⟩

theorem foldl_erase (ks : List K) (hR : ∀ v, R v v) (hT : ∀ a b c, R a b → R b c → R a c)
    (r : Record K V) : Derives R r (ks.foldl Record.erase r) := by
  induction ks generalizing r with
  | nil => exact refl hR r
  | cons k ks ih => exact trans hT (erase r k hR) (ih (r.erase k))

end Derives

end Record
end Library
