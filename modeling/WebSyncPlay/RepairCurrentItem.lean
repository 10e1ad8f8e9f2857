import WebSyncPlay.RepairDecoded

/-! Which item the current index shows after a repair of the playlist (`server/repair.ts`). Items
are told apart by where they stood. -/
namespace WebSyncPlay.Decoded

open Library ScriptValue

/-- What stands at a position; a missing item is as malformed as null. -/
def itemAt (items : List ScriptValue) (p : ℕ) : ScriptValue := items.getD p .null

def keptPositions (items : List ScriptValue) : List ℕ :=
  (List.range items.length).filter fun p => isPlaylistItem (itemAt items p)

def survivors (env : Env) (items : List ScriptValue) : List ℕ :=
  (keptPositions items).drop ((keptPositions items).length-env.roomPlaylistLimit)

/-- The state is repaired, and its index shows the item that stood at `i`. -/
def KeepsItem (env : Env) (conv : NumberText) (state : ScriptObject) (items : List ScriptValue)
    (i : ℕ) : Prop :=
  ∃ state' findings, repairPlaylistState env conv state = some (state',findings) ∧
    getProp state' "playlist" = some (.array ((survivors env items).map fun p =>
      repairPlaylistItem (itemAt items p)) []) ∧
    ∃ j : ℕ, getProp state' "currentIndex" = some (rat j) ∧ (survivors env items)[j]? = some i

/-- No malformed item stands before the position, or no well-formed one behind it. -/
def IndexStands (items : List ScriptValue) (i : ℕ) : Prop :=
  (∀ p < i, isPlaylistItem (itemAt items p) = true) ∨
    ∀ p, i < p → p < items.length → isPlaylistItem (itemAt items p) = false

section Positions

variable {items : List ScriptValue} {i : ℕ}

theorem map_itemAt (items : List ScriptValue) :
    (List.range items.length).map (itemAt items) = items := by
  apply List.ext_getElem
  · rw [List.length_map,List.length_range]
  · intro p hp hp'
    rw [List.getElem_map,List.getElem_range,itemAt,List.getD_eq_getElem items .null hp']

theorem map_keptPositions (items : List ScriptValue) :
    (keptPositions items).map (itemAt items) = items.filter isPlaylistItem := by
  calc (keptPositions items).map (itemAt items)
      = ((List.range items.length).map (itemAt items)).filter isPlaylistItem := by
        rw [List.filter_map]
        rfl
    _ = items.filter isPlaylistItem := by rw [map_itemAt]

theorem keptPositions_split (hi : i < items.length) (hkept : isPlaylistItem (itemAt items i) = true) :
    keptPositions items =
      (List.range i).filter (fun p => isPlaylistItem (itemAt items p)) ++ i ::
        (List.range' (i+1) (items.length-(i+1))).filter
          (fun p => isPlaylistItem (itemAt items p)) := by
  have hrange : List.range items.length =
      List.range i ++ i :: List.range' (i+1) (items.length-(i+1)) := by
    have hlength : items.length = i+((items.length-(i+1))+1) := by omega
    rw [List.range_eq_range',List.range_eq_range']
    conv_lhs => rw [hlength]
    rw [← List.range'_append_1,List.range'_succ,Nat.zero_add]
  rw [keptPositions,hrange,List.filter_append,List.filter_cons_of_pos (by simpa using hkept)]

theorem keptPositions_nodup (items : List ScriptValue) : (keptPositions items).Nodup :=
  List.nodup_range.filter _

theorem filter_range_length_eq_iff :
    ((List.range i).filter fun p => isPlaylistItem (itemAt items p)).length = i ↔
      ∀ p < i, isPlaylistItem (itemAt items p) = true := by
  calc ((List.range i).filter fun p => isPlaylistItem (itemAt items p)).length = i
      ↔ ((List.range i).filter fun p => isPlaylistItem (itemAt items p)).length =
          (List.range i).length := by rw [List.length_range]
    _ ↔ ∀ p ∈ List.range i, isPlaylistItem (itemAt items p) = true := List.length_filter_eq_length_iff
    _ ↔ ∀ p < i, isPlaylistItem (itemAt items p) = true := by simp only [List.mem_range]

theorem filter_range'_eq_nil_iff :
    (List.range' (i+1) (items.length-(i+1))).filter (fun p => isPlaylistItem (itemAt items p)) =
        [] ↔
      ∀ p, i < p → p < items.length → isPlaylistItem (itemAt items p) = false := by
  rw [List.filter_eq_nil_iff]
  constructor
  · intro h p hp hlength
    have hmem : p ∈ List.range' (i+1) (items.length-(i+1)) := by
      rw [List.mem_range'_1]
      omega
    simpa using h p hmem
  · intro h p hmem
    rw [List.mem_range'_1] at hmem
    rw [h p (by omega) (by omega)]
    exact Bool.false_ne_true

theorem getElem?_split {l front back : List ℕ} {k : ℕ} (hl : l = front ++ i :: back)
    (h : l.Nodup) : l[k]? = some i ↔ k = front.length := by
  have hself : l[front.length]? = some i := by
    rw [hl]
    simp
  constructor
  · intro hk
    have hlt := (List.getElem?_eq_some_iff.mp hk).1
    exact (List.getElem?_inj hlt h).mp (hk.trans hself.symm)
  · rintro rfl
    exact hself

end Positions

section Repair

variable {state : ScriptObject} {items : List ScriptValue} {props : ScriptObject} {i : ℕ}

theorem clampIndex_rat {length : ℕ} (hlength : 0 < length) :
    (clampIndex (some (rat i)) (.finite i) length).1 = min i (length-1) := by
  rw [clampIndex]
  dsimp only
  rw [ScriptNumber.le_finite]
  by_cases h : length ≤ i
  · have hcast : (length : ℚ) ≤ (i : ℚ) := by exact_mod_cast h
    have hend : max 0 ((length : ℤ)-1) = ((length-1 : ℕ) : ℤ) := by omega
    have hmin : min i (length-1) = length-1 := by omega
    rw [decide_eq_true hcast,if_pos rfl,integer?_rat,hend,hmin]
    simp [Option.filter]
  · have hcast : ¬(length : ℚ) ≤ (i : ℚ) := by exact_mod_cast h
    have hint : integer? (some (rat (i : ℚ))) = some (i : ℤ) := by
      have hrat := integer?_rat (i : ℤ)
      rwa [Int.cast_natCast] at hrat
    have hmin : min i (length-1) = i := by omega
    rw [decide_eq_false hcast,if_neg Bool.false_ne_true,hint,hmin]
    simp [Option.filter]

theorem repairPlaylistState_spec (env : Env) (conv : NumberText)
    (hplaylist : getProp state "playlist" = some (.array items props))
    (hindex : getProp state "currentIndex" = some (rat i))
    (hkept : 0 < (keptPositions items).length) :
    ∃ state' findings, repairPlaylistState env conv state = some (state',findings) ∧
      getProp state' "playlist" = some (.array ((survivors env items).map fun p =>
        repairPlaylistItem (itemAt items p)) []) ∧
      getProp state' "currentIndex" = some (rat ((min i ((keptPositions items).length-1)-
        ((keptPositions items).length-env.roomPlaylistLimit) : ℕ) : ℚ)) := by
  have hitems : (items.filter isPlaylistItem).map repairPlaylistItem =
      (keptPositions items).map fun p => repairPlaylistItem (itemAt items p) := by
    rw [← map_keptPositions,List.map_map]
    rfl
  have hlength : ((items.filter isPlaylistItem).map repairPlaylistItem).length =
      (keptPositions items).length := by
    rw [hitems,List.length_map]
  have hclamp := clampIndex_rat (i := i) hkept
  have hpos := env.playlist_pos
  rw [repairPlaylistState,storedPlaylist,hplaylist,hindex,toNumber?_rat]
  refine ⟨_,_,rfl,?_,?_⟩
  · rw [getProp_setProp,getProp_setProp]
    simp only [String.reduceEq,if_false,if_true,hlength]
    rw [survivors,List.map_drop,← hitems]
    split
    · rfl
    · rename_i hfits
      have hzero : (keptPositions items).length-env.roomPlaylistLimit = 0 := by omega
      rw [hzero,List.drop_zero]
  · rw [getProp_setProp,if_pos rfl]
    simp only [hlength,hclamp]
    congr 2
    split
    · rename_i htrims
      rw [List.length_drop,hlength]
      have hnat : max 0 (min (((min i ((keptPositions items).length-1) : ℕ) : ℤ)-
          (((keptPositions items).length-env.roomPlaylistLimit : ℕ) : ℤ))
          ((((keptPositions items).length-((keptPositions items).length-env.roomPlaylistLimit) : ℕ)
            : ℤ)-1)) = ((min i ((keptPositions items).length-1)-
              ((keptPositions items).length-env.roomPlaylistLimit) : ℕ) : ℤ) := by omega
      rw [hnat]
      norm_cast
    · rename_i hfits
      have hzero : (keptPositions items).length-env.roomPlaylistLimit = 0 := by omega
      rw [hzero,Nat.sub_zero]
      norm_cast

end Repair

/-- The index still shows the current item after the repair if and only if no malformed item was
removed before it, or it is the last one that is left. -/
theorem repair_keeps_current_item_iff {env : Env} {conv : NumberText} {state : ScriptObject}
    {items : List ScriptValue} {props : ScriptObject} {i : ℕ}
    (hplaylist : getProp state "playlist" = some (.array items props))
    (hindex : getProp state "currentIndex" = some (rat i)) (hsurvives : i ∈ survivors env items) :
    KeepsItem env conv state items i ↔ IndexStands items i := by
  have hmem : i ∈ keptPositions items := List.mem_of_mem_drop hsurvives
  obtain ⟨hrange,hkept⟩ := List.mem_filter.mp hmem
  have hi : i < items.length := List.mem_range.mp hrange
  have hsplit := keptPositions_split hi hkept
  set front := (List.range i).filter fun p => isPlaylistItem (itemAt items p) with hfront
  set back := (List.range' (i+1) (items.length-(i+1))).filter
    fun p => isPlaylistItem (itemAt items p) with hback
  have hnodup := keptPositions_nodup items
  have hcount : (keptPositions items).length = front.length+1+back.length := by
    rw [hsplit,List.length_append,List.length_cons]
    omega
  have hle : front.length ≤ i := by
    calc front.length ≤ (List.range i).length := List.length_filter_le _ _
      _ = i := List.length_range
  -- the item is not trimmed, so no more are than stood before it
  have hoverflow : (keptPositions items).length-env.roomPlaylistLimit ≤ front.length := by
    obtain ⟨k,hk⟩ := List.mem_iff_getElem?.mp hsurvives
    rw [survivors,List.getElem?_drop] at hk
    have hplace := (getElem?_split hsplit hnodup).mp hk
    omega
  obtain ⟨state',findings,hrepair,hleft,hnew⟩ :=
    repairPlaylistState_spec env conv hplaylist hindex (by omega)
  have hshown : KeepsItem env conv state items i ↔
      min i ((keptPositions items).length-1) = front.length := by
    have hget : ∀ j, (survivors env items)[j]? = some i ↔
        (keptPositions items).length-env.roomPlaylistLimit+j = front.length := by
      intro j
      rw [survivors,List.getElem?_drop]
      exact getElem?_split hsplit hnodup
    constructor
    · rintro ⟨state'',findings',hrepair',-,j,hj,hshows⟩
      rw [hrepair] at hrepair'
      obtain ⟨rfl,-⟩ := Prod.mk.inj (Option.some.inj hrepair')
      rw [hnew] at hj
      have hsame : ((min i ((keptPositions items).length-1)-
          ((keptPositions items).length-env.roomPlaylistLimit) : ℕ) : ℚ) = (j : ℚ) := by
        simpa [rat] using hj
      have hsame' := Nat.cast_injective hsame
      have hplace := (hget j).mp hshows
      omega
    · intro hplace
      refine ⟨state',findings,hrepair,hleft,_,hnew,(hget _).mpr ?_⟩
      omega
  rw [hshown,IndexStands,← filter_range_length_eq_iff,← filter_range'_eq_nil_iff,
    ← List.length_eq_zero_iff,← hfront,← hback]
  omega

section Samples

def sampleEnv : Env := defaultEnv (fun _ _ => "") (fun _ => true) some

def sampleText : NumberText := ⟨fun _ => .nan,fun _ => ""⟩

def sampleItem (id : String) : ScriptValue :=
  .object [("id",.string id),("name",.string id),("sourceUrl",.string id),("playableUrl",.string id)]

def sampleRoom (items : List ScriptValue) (index : ℕ) : ScriptObject :=
  [("playlist",.array items []),("currentIndex",rat index)]

theorem repair_keeps_current_item_first :
    KeepsItem sampleEnv sampleText (sampleRoom [sampleItem "a",.null,sampleItem "b"] 0)
      [sampleItem "a",.null,sampleItem "b"] 0 :=
  (repair_keeps_current_item_iff rfl rfl (by decide)).mpr (Or.inl fun p hp => absurd hp (by omega))

/-- A malformed item before the current one: the index shows the next item. -/
theorem malformed_item_shifts_current :
    ¬∀ (env : Env) (conv : NumberText) (state : ScriptObject) (items : List ScriptValue)
      (props : ScriptObject) (i : ℕ), getProp state "playlist" = some (.array items props) →
        getProp state "currentIndex" = some (rat i) → i ∈ survivors env items →
          KeepsItem env conv state items i := by
  intro h
  set items := [ScriptValue.null,sampleItem "a",sampleItem "b"] with hitems
  have hplaylist : getProp (sampleRoom items 1) "playlist" = some (.array items []) := rfl
  have hindex : getProp (sampleRoom items 1) "currentIndex" = some (rat (1 : ℕ)) := rfl
  obtain ⟨state',findings,hrepair,-,j,hj,hshows⟩ := h sampleEnv sampleText
    (sampleRoom items 1) items [] 1 hplaylist hindex (by decide)
  obtain ⟨state'',findings',hrepair',-,hnew⟩ := repairPlaylistState_spec sampleEnv
    sampleText hplaylist hindex (by decide)
  rw [hrepair] at hrepair'
  obtain ⟨rfl,-⟩ := Prod.mk.inj (Option.some.inj hrepair')
  rw [hnew] at hj
  have hsame : ((1 : ℕ) : ℚ) = (j : ℚ) := by
    have hone : min 1 ((keptPositions items).length-1)-
        ((keptPositions items).length-sampleEnv.roomPlaylistLimit) = 1 := by decide
    rw [hone] at hj
    simpa [rat] using hj
  obtain rfl := Nat.cast_injective hsame
  exact absurd hshows (by decide)

end Samples

end WebSyncPlay.Decoded
