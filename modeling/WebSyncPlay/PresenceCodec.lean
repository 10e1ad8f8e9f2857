import WebSyncPlay.RoomState
import WebSyncPlay.Library.Double

/-! One field of the presence hash in its two codecs: the script that bumps it inside the store
(`redis/presence-lua.ts`) and the functions that read it (`redis/presence-ref.ts`). Numbers are
doubles in both; the script prints them with fourteen significant digits. -/
namespace WebSyncPlay
namespace PresenceCodec

open Library

/-- The names that every object inherits; looking one of them up in an empty map finds a member. -/
def inheritedNames : List String :=
  ["__proto__","__defineGetter__","__defineSetter__","__lookupGetter__","__lookupSetter__",
    "constructor","hasOwnProperty","isPrototypeOf","propertyIsEnumerable","toLocaleString",
    "toString","valueOf"]

/-- The id of a node; `getAppNodeId` makes UUIDs. -/
structure NodeId where
  id : String
  nonempty : id ≠ ""
  not_inherited : id ∉ inheritedNames

theorem NodeId.id_inj {a b : NodeId} : a.id = b.id ↔ a = b := by
  cases a
  cases b
  simp

instance : DecidableEq NodeId := fun _ _ => decidable_of_iff _ NodeId.id_inj

instance : PropertyKey NodeId where
  arrayIndex? nodeId := PropertyKey.arrayIndex? nodeId.id

abbrev PresenceNodeCounts := Record NodeId ℕ

/-- The text of a stored field, as far as the program writes it. -/
inductive FieldText
  | empty
  | integer (refs : ℤ)
  | object (counts : Record NodeId Numeral)
  deriving DecidableEq

/-- The test `n > 0 && nodeId.length > 0`; the script asks the same. -/
def keepsCount (nodeId : NodeId) (n : ℕ) : Bool := decide (0 < n) && decide (0 < nodeId.id.length)

def parsePresenceNodeCounts : Option FieldText → PresenceNodeCounts
  | none => .empty
  | some .empty => .empty
  -- A legacy count; one that is spelled in another way is JSON, but not an object.
  | some (.integer _) => .empty
  | some (.object counts) => (counts.mapValues Numeral.value).filter keepsCount

def totalPresenceRefs (counts : PresenceNodeCounts) : ℕ :=
  sumDoubles (counts.values.filter fun n => decide (0 < n))

inductive Delta
  | add | remove
  deriving DecidableEq

def Delta.value : Delta → ℤ
  | .add => 1
  | .remove => -1

def addDelta (n : ℕ) (delta : Delta) : ℤ :=
  if n+delta.value ≤ 0 then n+delta.value else toDouble (n+delta.value).toNat

def bumpPresenceNodeCount (counts : PresenceNodeCounts) (nodeId : NodeId) (delta : Delta) :
    PresenceNodeCounts :=
  let n := addDelta ((counts.get? nodeId).getD 0) delta
  if n ≤ 0 then counts.erase nodeId else counts.set nodeId n.toNat

/-- `cjson.decode`, for what has the type `table`. -/
def cjsonDecode : FieldText → Option (Record NodeId ℕ)
  | .object counts => some (counts.mapValues Numeral.value)
  | .empty => none
  | .integer _ => none

/-- The default of `cjson` and the format of `tostring`. -/
def luaDigits : ℕ := 14

def luaPrint (n : ℕ) : Numeral := Numeral.printG luaDigits n

def cjsonEncode (counts : Record NodeId ℕ) : FieldText := .object (counts.mapValues luaPrint)

/-- The table `counts` that the script starts from. -/
def scriptCounts : Option FieldText → Record NodeId ℕ
  | none => .empty
  | some .empty => .empty
  | some (.integer refs) =>
    if luaPrint refs.natAbs = .digits refs.natAbs then .empty
    else (cjsonDecode (.integer refs)).getD .empty
  | some (.object counts) => (cjsonDecode (.object counts)).getD .empty

structure BumpCall where
  nodeId : NodeId
  delta : Delta
  pairs : Record NodeId ℕ → List (NodeId × ℕ)
  pairs_perm : ∀ counts, (pairs counts).Perm counts.entries

structure BumpReply where
  field : Option FieldText
  remaining : ℕ

/-- `PRESENCE_BUMP_SCRIPT` on the field of one user. -/
def presenceBumpScript (raw : Option FieldText) (call : BumpCall) : BumpReply :=
  let counts := scriptCounts raw
  let n := addDelta ((counts.get? call.nodeId).getD 0) call.delta
  let counts := if n ≤ 0 then counts.erase call.nodeId else counts.set call.nodeId n.toNat
  let cleaned := counts.filter keepsCount
  let remaining := sumDoubles
    (((call.pairs counts).filter fun entry => keepsCount entry.1 entry.2).map Prod.snd)
  ⟨if remaining ≤ 0 then none else some (cjsonEncode cleaned),remaining⟩

def storedAfter (raw : Option FieldText) (calls : List BumpCall) : Option FieldText :=
  calls.foldl (fun field call => (presenceBumpScript field call).field) raw

def countsAfter (counts : PresenceNodeCounts) (calls : List BumpCall) : PresenceNodeCounts :=
  calls.foldl (fun counts call => bumpPresenceNodeCount counts call.nodeId call.delta) counts

/-- Counts that fourteen digits can tell apart, and whose sum is a double. -/
structure Printable (counts : PresenceNodeCounts) : Prop where
  count_le : ∀ nodeId n, counts.get? nodeId = some n → n ≤ 10^luaDigits
  total_le : counts.values.sum ≤ 2^53

section Maps

variable {raw : Option FieldText} {counts : PresenceNodeCounts} {nodeId : NodeId} {n : ℕ}

theorem keepsCount_eq : keepsCount nodeId n = decide (0 < n) := by
  have hlength : 0 < nodeId.id.length := by
    rw [Nat.pos_iff_ne_zero,Ne,String.length_eq_zero_iff]
    exact nodeId.nonempty
  simp [keepsCount,hlength]

theorem remaining_eq (raw : Option FieldText) (call : BumpCall) :
    (presenceBumpScript raw call).remaining =
      let counts := scriptCounts raw
      let n := addDelta ((counts.get? call.nodeId).getD 0) call.delta
      let counts := if n ≤ 0 then counts.erase call.nodeId else counts.set call.nodeId n.toNat
      sumDoubles (((call.pairs counts).filter fun entry => decide (0 < entry.2)).map Prod.snd) := by
  simp only [presenceBumpScript,keepsCount_eq]

theorem scriptCounts_filter (raw : Option FieldText) :
    (scriptCounts raw).filter keepsCount = parsePresenceNodeCounts raw := by
  have hempty : (Record.empty : Record NodeId ℕ).filter keepsCount = .empty := rfl
  cases raw with
  | none => exact hempty
  | some text =>
    cases text with
    | empty => exact hempty
    | integer refs =>
      have hdecode : cjsonDecode (.integer refs) = none := rfl
      rw [scriptCounts,hdecode,Option.getD_none,ite_self]
      exact hempty
    | object counts => rfl

theorem get?_parse (nodeId : NodeId) :
    (parsePresenceNodeCounts raw).get? nodeId =
      ((scriptCounts raw).get? nodeId).filter fun n => decide (0 < n) := by
  rw [← scriptCounts_filter,Record.get?_filter]
  congr 1
  funext n
  exact keepsCount_eq

theorem getD_parse (nodeId : NodeId) :
    ((parsePresenceNodeCounts raw).get? nodeId).getD 0 =
      ((scriptCounts raw).get? nodeId).getD 0 := by
  rw [get?_parse]
  cases (scriptCounts raw).get? nodeId with
  | none => rfl
  | some n =>
    by_cases hn : 0 < n
    · simp [Option.filter,hn]
    · have hzero : n = 0 := by omega
      simp [Option.filter,hzero]

theorem get?_bump (counts : PresenceNodeCounts) (nodeId other : NodeId) (delta : Delta) :
    (bumpPresenceNodeCount counts nodeId delta).get? other =
      if other = nodeId then
        let n := addDelta ((counts.get? nodeId).getD 0) delta
        if n ≤ 0 then none else some n.toNat
      else counts.get? other := by
  rw [bumpPresenceNodeCount]
  dsimp only
  split
  · rw [Record.get?_erase]
  · rw [Record.get?_set]

theorem get?_cleaned (hagree : ∀ id, (parsePresenceNodeCounts raw).get? id = counts.get? id)
    (nodeId : NodeId) (delta : Delta) (id : NodeId) :
    let table := scriptCounts raw
    let n := addDelta ((table.get? nodeId).getD 0) delta
    let table := if n ≤ 0 then table.erase nodeId else table.set nodeId n.toNat
    (table.filter keepsCount).get? id = (bumpPresenceNodeCount counts nodeId delta).get? id := by
  have hcount : (counts.get? nodeId).getD 0 = ((scriptCounts raw).get? nodeId).getD 0 := by
    rw [← hagree nodeId,getD_parse]
  have hkeeps : keepsCount id = fun n => decide (0 < n) := by
    funext n
    exact keepsCount_eq
  have hother := hagree id
  rw [get?_parse] at hother
  intro table n table'
  rw [get?_bump,hcount,Record.get?_filter,hkeeps]
  change (table'.get? id).filter (fun n => decide (0 < n)) =
    if id = nodeId then (if n ≤ 0 then none else some n.toNat) else counts.get? id
  by_cases hn : n ≤ 0
  · have htable : table' = table.erase nodeId := if_pos hn
    rw [htable,Record.get?_erase]
    by_cases hid : id = nodeId
    · rw [if_pos hid,if_pos hid,if_pos hn]
      rfl
    · rw [if_neg hid,if_neg hid]
      exact hother
  · have htable : table' = table.set nodeId n.toNat := if_neg hn
    have hpos : 0 < n.toNat := by omega
    rw [htable,Record.get?_set]
    by_cases hid : id = nodeId
    · rw [if_pos hid,if_pos hid,if_neg hn]
      simp only [Option.filter,hpos,decide_true,if_true]
    · rw [if_neg hid,if_neg hid]
      exact hother

theorem value_luaPrint (h : n ≤ 10^luaDigits) : (luaPrint n).value = n := by
  refine Numeral.value_printG (by decide) h (h.trans ?_)
  norm_num [luaDigits]

theorem sum_filter_pos (ns : List ℕ) : (ns.filter fun n => decide (0 < n)).sum = ns.sum := by
  induction ns with
  | nil => rfl
  | cons n ns ih =>
    by_cases hn : 0 < n
    · simp [hn,ih]
    · have hzero : n = 0 := by omega
      simpa [hzero] using ih

theorem printable_of_values (hcount : ∀ n ∈ counts.values, n ≤ 10^luaDigits)
    (htotal : counts.values.sum ≤ 2^53) : Printable counts where
  count_le nodeId n hn := hcount n ((Record.mem_values_iff counts n).mpr ⟨nodeId,hn⟩)
  total_le := htotal

theorem totalPresenceRefs_eq (h : Printable counts) : totalPresenceRefs counts = counts.values.sum := by
  have hle := h.total_le
  rw [← sum_filter_pos] at hle
  rw [totalPresenceRefs,sumDoubles_of_le hle,sum_filter_pos]

end Maps

section Calls

variable {raw : Option FieldText} {counts : PresenceNodeCounts} {call : BumpCall}

/-- The step: from a field that parses to the map, the script stores what parses to the map after
the bump, and answers its total. -/
theorem script_step (hagree : ∀ id, (parsePresenceNodeCounts raw).get? id = counts.get? id)
    (hprint : Printable (bumpPresenceNodeCount counts call.nodeId call.delta)) :
    let reply := presenceBumpScript raw call
    let after := bumpPresenceNodeCount counts call.nodeId call.delta
    (∀ id, (parsePresenceNodeCounts reply.field).get? id = after.get? id) ∧
      (reply.field = none ↔ after.size = 0) ∧ reply.remaining = totalPresenceRefs after := by
  intro reply after
  have hcleaned := get?_cleaned hagree call.nodeId call.delta
  dsimp only at hcleaned
  set table := scriptCounts raw with htable
  set n := addDelta ((table.get? call.nodeId).getD 0) call.delta with hn
  set table' := if n ≤ 0 then table.erase call.nodeId else table.set call.nodeId n.toNat with htable'
  set cleaned := table'.filter keepsCount with hclean
  have hperm : cleaned.entries.Perm after.entries := Record.perm_of_get? hcleaned
  have hpairs : (((call.pairs table').filter fun entry => keepsCount entry.1 entry.2).map
      Prod.snd).Perm after.values :=
    (((call.pairs_perm table').filter _).trans hperm).map Prod.snd
  have hremaining : reply.remaining = after.values.sum := by
    change sumDoubles _ = _
    rw [sumDoubles_of_le (hpairs.sum_eq.trans_le hprint.total_le),hpairs.sum_eq]
  have hpositive : ∀ id m, after.get? id = some m → 0 < m := by
    intro id m hm
    rw [← hcleaned id,hclean,Record.get?_filter,Option.filter_eq_some_iff,keepsCount_eq] at hm
    exact of_decide_eq_true hm.2
  have hzero : after.values.sum = 0 ↔ after.size = 0 := by
    rw [Record.size_eq_zero_iff,List.sum_eq_zero_iff]
    constructor
    · intro hall id
      cases hm : after.get? id with
      | none => rfl
      | some m =>
        have hm0 := hall m ((Record.mem_values_iff after m).mpr ⟨id,hm⟩)
        exact absurd (hpositive id m hm) (by omega)
    · intro hnone m hm
      obtain ⟨id,hid⟩ := (Record.mem_values_iff after m).mp hm
      rw [hnone id] at hid
      cases hid
  have hfield : reply.field = if reply.remaining ≤ 0 then none else some (cjsonEncode cleaned) := rfl
  refine ⟨?_,?_,by rw [hremaining,totalPresenceRefs_eq hprint]⟩
  · intro id
    by_cases hempty : reply.remaining ≤ 0
    · have hsize : after.size = 0 := hzero.mp (by omega)
      rw [hfield,if_pos hempty,(Record.size_eq_zero_iff after).mp hsize id]
      rfl
    · rw [hfield,if_neg hempty,cjsonEncode,parsePresenceNodeCounts,Record.get?_filter,
        Record.get?_mapValues,Record.get?_mapValues,hcleaned id]
      cases hm : after.get? id with
      | none => rfl
      | some m =>
        have hvalue := value_luaPrint (hprint.count_le id m hm)
        simp [Option.filter,keepsCount_eq,hvalue,hpositive id m hm]
  · rw [hfield]
    by_cases hempty : reply.remaining ≤ 0
    · rw [if_pos hempty]
      exact ⟨fun _ => hzero.mp (by omega),fun _ => rfl⟩
    · rw [if_neg hempty]
      constructor
      · intro hnone
        cases hnone
      · intro hsize
        exact absurd (hremaining.trans (hzero.mpr hsize)) (by omega)

/-- The run: after every sequence of printable bumps the field parses to the map. -/
theorem storedAfter_agrees (raw : Option FieldText) (calls : List BumpCall)
    (hprint : ∀ before, before <+: calls →
      Printable (countsAfter (parsePresenceNodeCounts raw) before)) (id : NodeId) :
    (parsePresenceNodeCounts (storedAfter raw calls)).get? id =
      (countsAfter (parsePresenceNodeCounts raw) calls).get? id := by
  induction calls using List.reverseRecOn generalizing id with
  | nil => rfl
  | append_singleton calls call ih =>
    have hbefore := ih fun before h => hprint before (h.trans (List.prefix_append _ _))
    have hlast := hprint _ (List.prefix_refl _)
    simp only [countsAfter,storedAfter,List.foldl_append,List.foldl_cons,List.foldl_nil]
      at hbefore hlast ⊢
    exact (script_step hbefore hlast).1 id

end Calls

/-- The script refines the codec: after every sequence of bumps whose maps can be printed, the field
parses to the map of the codec, it is absent if and only if that map is empty, and the last answer
is the map's total. -/
theorem presence_script_refines (raw : Option FieldText) (calls : List BumpCall) (call : BumpCall)
    (hprint : ∀ before, before <+: calls ++ [call] →
      Printable (countsAfter (parsePresenceNodeCounts raw) before)) :
    let reply := presenceBumpScript (storedAfter raw calls) call
    let counts := countsAfter (parsePresenceNodeCounts raw) (calls ++ [call])
    reply.field = storedAfter raw (calls ++ [call]) ∧
      (∀ id, (parsePresenceNodeCounts reply.field).get? id = counts.get? id) ∧
      (reply.field = none ↔ counts.size = 0) ∧ reply.remaining = totalPresenceRefs counts := by
  intro reply counts
  have hbefore := storedAfter_agrees raw calls
    fun before h => hprint before (h.trans (List.prefix_append _ _))
  have hcounts : counts = bumpPresenceNodeCount (countsAfter (parsePresenceNodeCounts raw) calls)
      call.nodeId call.delta := by
    simp [counts,countsAfter]
  have hlast : Printable counts := hprint _ (List.prefix_refl _)
  rw [hcounts] at hlast ⊢
  exact ⟨by simp [reply,storedAfter],script_step hbefore hlast⟩

/-- Beside a count of three, a second node gets its first connection and loses it again. -/
theorem presence_script_refines_two_nodes :
    let a : NodeId := ⟨"a",by decide,by decide⟩
    let b : NodeId := ⟨"b",by decide,by decide⟩
    let raw := some (.object ⟨[(a,.digits 3)],by simp⟩)
    let added : BumpCall := ⟨b,.add,Record.entries,fun _ => .refl _⟩
    let removed : BumpCall := ⟨b,.remove,fun counts => counts.entries.reverse,
      fun _ => List.reverse_perm _⟩
    (presenceBumpScript raw added).remaining = 4 ∧
      (presenceBumpScript (storedAfter raw [added]) removed).remaining = 3 ∧
      totalPresenceRefs (countsAfter (parsePresenceNodeCounts raw) [added,removed]) = 3 := by
  intro a b raw added removed
  have hprint : ∀ before, before <+: [added] ++ [removed] →
      Printable (countsAfter (parsePresenceNodeCounts raw) before) := by
    intro before hbefore
    refine printable_of_values ?_ ?_
    all_goals
      revert before
      simp only [← List.mem_inits]
      decide +kernel
  have htotal : totalPresenceRefs
      (countsAfter (parsePresenceNodeCounts raw) [added,removed]) = 3 := by decide +kernel
  have hadded : (presenceBumpScript raw added).remaining = 4 := by decide +kernel
  exact ⟨hadded,(presence_script_refines raw [added] removed hprint).2.2.2.trans htotal,htotal⟩

def letterId (k : ℕ) : NodeId where
  id := String.ofList ('n' :: List.replicate k 'n')
  nonempty := by
    intro h
    have hlist := congrArg String.toList h
    rw [String.toList_ofList] at hlist
    cases hlist
  not_inherited := by
    intro h
    have hhead : ∀ name ∈ inheritedNames, name.toList.head? ≠ some 'n' := by decide
    apply hhead _ h
    rw [String.toList_ofList,List.head?_cons]

def crowdedCounts : Record NodeId Numeral where
  entries := (List.range 93).map fun k =>
    (letterId k,.digits (if k < 2 then 1 else if k = 92 then 99999999999995 else 99999999999996))
  nodup_keys := by
    rw [List.map_map]
    refine List.Nodup.map ?_ List.nodup_range
    intro j k h
    have hlist := congrArg String.toList (congrArg NodeId.id h)
    simpa [letterId] using congrArg List.length hlist

/-- Counts as the program writes them, below the limit. -/
def Written (counts : Record NodeId Numeral) : Prop :=
  ∀ nodeId text, counts.get? nodeId = some text → ∃ n, text = .digits n ∧ 0 < n ∧ n < 10^14

theorem written_of_entries {counts : Record NodeId Numeral}
    (h : ∀ entry ∈ counts.entries, ∃ n, entry.2 = .digits n ∧ 0 < n ∧ n < 10^14) :
    Written counts :=
  fun nodeId text htext => h (nodeId,text) ((Record.get?_eq_some_iff counts nodeId text).mp htext)

/-- Two bumps of a count with fourteen nines lose one, and a total beyond `2^53` depends on the
order in which the table is gone through. -/
theorem presence_digits_lost :
    (∃ counts, Written counts ∧ ∃ calls id,
      (parsePresenceNodeCounts (storedAfter (some (.object counts)) calls)).get? id ≠
        (countsAfter (parsePresenceNodeCounts (some (.object counts))) calls).get? id) ∧
    ∃ counts, Written counts ∧ ∃ call, (presenceBumpScript (some (.object counts)) call).remaining ≠
      totalPresenceRefs (countsAfter (parsePresenceNodeCounts (some (.object counts))) [call]) := by
  constructor
  · let call : BumpCall := ⟨letterId 0,.add,Record.entries,fun _ => .refl _⟩
    let counts : Record NodeId Numeral := ⟨[(letterId 0,.digits 99999999999999)],by simp⟩
    refine ⟨counts,written_of_entries ?_,[call,call],letterId 0,by decide +kernel⟩
    intro entry hentry
    rw [List.mem_singleton.mp hentry]
    exact ⟨_,rfl,by norm_num,by norm_num⟩
  · let call : BumpCall :=
      ⟨letterId 92,.add,fun counts => counts.entries.reverse,fun _ => List.reverse_perm _⟩
    refine ⟨crowdedCounts,written_of_entries ?_,call,?_⟩
    · intro entry hentry
      obtain ⟨k,-,rfl⟩ := List.mem_map.mp hentry
      refine ⟨_,rfl,?_,?_⟩
      · split_ifs <;> norm_num
      · split_ifs <;> norm_num
    · have hremaining : (presenceBumpScript (some (.object crowdedCounts)) call).remaining =
          9099999999999636 := by
        rw [remaining_eq]
        decide +kernel
      have htotal : totalPresenceRefs
          (countsAfter (parsePresenceNodeCounts (some (.object crowdedCounts))) [call]) =
            9099999999999638 := by
        have hkeeps : keepsCount = fun _ n => decide (0 < n) := by
          funext nodeId n
          exact keepsCount_eq
        rw [parsePresenceNodeCounts,hkeeps]
        decide +kernel
      rw [hremaining,htotal]
      decide

end PresenceCodec
end WebSyncPlay
