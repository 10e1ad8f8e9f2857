import WebSyncPlay.PresenceCodec
import WebSyncPlay.Library.TransitionSystem

/-! The presence hash of one room (`redis/state-store.ts`, `redis/presence-ref.ts`,
`redis/presence-lua.ts`): atomic bumps by the nodes, and reconciles, which read the whole
hash, look the live nodes up and then write field by field. -/
namespace WebSyncPlay

open Library TransitionSystem
open PresenceCodec (Delta addDelta luaPrint)

/-- What `getAppNodeId` gives: a UUID. -/
structure AppNodeId where
  id : String
  nonempty : id ≠ ""
  deriving DecidableEq

abbrev PresenceNodeCounts := Record String ℕ

/-- The text of a field: a JSON map of counts (`compact` if it is spelled as
`JSON.stringify` spells it, but for the numbers), an integer of an older version, or anything
else. -/
inductive PresenceRaw
  | nodeMap (counts : Record String Numeral) (compact : Bool)
  | legacy (refs : ℤ)
  | unparsable (text : String)
  deriving DecidableEq

abbrev PresenceHash := Record UserId PresenceRaw

def cleanedCounts (counts : PresenceNodeCounts) : PresenceNodeCounts :=
  counts.filter fun nodeId n => decide (0 < n) && nodeId != ""

def readCounts (counts : Record String Numeral) : PresenceNodeCounts :=
  counts.mapValues Numeral.value

def parsePresenceNodeCounts : PresenceRaw → PresenceNodeCounts
  | .nodeMap counts _ => cleanedCounts (readCounts counts)
  | .legacy _ => .empty
  | .unparsable _ => .empty

/-- `JSON.stringify` prints a double with all the digits that it takes to read it back. -/
def encodePresenceNodeCounts (counts : PresenceNodeCounts) : Option PresenceRaw :=
  let cleaned := cleanedCounts counts
  if cleaned.size = 0 then none else some (.nodeMap (cleaned.mapValues .digits) true)

def scriptCounts : Option PresenceRaw → PresenceNodeCounts
  | some (.nodeMap counts _) => readCounts counts
  | _ => .empty

/-- `PRESENCE_BUMP_SCRIPT` on one field; `none` is a field that is not there. `cjson` prints
fourteen digits. -/
def bumpScript (nodeId : AppNodeId) (delta : Delta) (raw : Option PresenceRaw) :
    Option PresenceRaw :=
  let counts := scriptCounts raw
  let n := addDelta ((counts.get? nodeId.id).getD 0) delta
  let counts := if n ≤ 0 then counts.erase nodeId.id else counts.set nodeId.id n.toNat
  let cleaned := cleanedCounts counts
  let remaining := sumDoubles cleaned.values
  if remaining ≤ 0 then none else some (.nodeMap (cleaned.mapValues luaPrint) true)

def bumpPresenceField (hash : PresenceHash) (nodeId : AppNodeId) (userId : UserId)
    (delta : Delta) : PresenceHash :=
  match bumpScript nodeId delta (hash.get? userId) with
  | none => hash.erase userId
  | some raw => hash.set userId raw

structure PresenceScan where
  online : List UserId
  reliable : Bool
  staleFields : List UserId
  rewrites : List (UserId × PresenceRaw)

def scanField (alive : List String) (scan : PresenceScan) (field : UserId × PresenceRaw) :
    PresenceScan :=
  let counts := parsePresenceNodeCounts field.2
  if counts.size = 0 then
    if scan.reliable then { scan with staleFields := scan.staleFields ++ [field.1] } else scan
  else if !scan.reliable then { scan with online := scan.online ++ [field.1] }
  else
    let liveOnly := counts.filter fun nodeId n => decide (0 < n) && alive.contains nodeId
    if liveOnly.size = 0 then { scan with staleFields := scan.staleFields ++ [field.1] }
    else
      let scan := { scan with online := scan.online ++ [field.1] }
      match encodePresenceNodeCounts liveOnly with
      | none => scan
      | some encoded =>
        if encoded != field.2 then
          { scan with rewrites := scan.rewrites ++ [(field.1,encoded)] }
        else scan

def scanWsPresence (self : AppNodeId) (entries : PresenceHash) (ids : List String)
    (reliable : Bool) : PresenceScan :=
  entries.entries.foldl (scanField (self.id :: ids))
    { online := [], reliable := reliable, staleFields := [], rewrites := [] }

/-- Where a reconcile waits; it keeps what `HGETALL` read. -/
inductive ReconcileStage
  | idle
  | scanned (entries : PresenceHash)
  | writing (entries : PresenceHash) (rewrites : List (UserId × PresenceRaw))
      (staleFields : List UserId)

inductive ReconcileEvent
  | scan
  | lookup (ids : List String) (reliable : Bool)
  | write

/-- `reconcilePresenceRefs`, and `getWsPresenceUserIds` alike: one command at a time. -/
def stepReconcile (self : AppNodeId) (hash : PresenceHash) (stage : ReconcileStage) :
    ReconcileEvent → Option (PresenceHash × ReconcileStage)
  | .scan =>
    match stage with
    | .idle => some (hash,.scanned hash)
    | _ => none
  | .lookup ids reliable =>
    match stage with
    | .scanned entries =>
      let scan := scanWsPresence self entries ids reliable
      if !scan.reliable then some (hash,.idle)
      else some (hash,.writing entries scan.rewrites scan.staleFields)
    | _ => none
  | .write =>
    match stage with
    | .writing entries ((uid,encoded) :: rewrites) staleFields =>
      some (hash.set uid encoded,.writing entries rewrites staleFields)
    | .writing _ [] staleFields => some (staleFields.foldl Record.erase hash,.idle)
    | _ => none

/-- The hash, the reconciles under way and, for comparison, each node's own account of its
bumps, floored at zero step by step. -/
structure PresenceStore (ι : Type*) where
  hash : PresenceHash
  runs : ι → ReconcileStage
  bumped : UserId → AppNodeId → ℕ

inductive PresenceStoreEvent (ι : Type*)
  | bump (nodeId : AppNodeId) (userId : UserId) (delta : Delta)
  | run (i : ι) (event : ReconcileEvent)

def countOf (counts : PresenceNodeCounts) (nodeId : AppNodeId) : ℕ :=
  (counts.get? nodeId.id).getD 0

def fieldCount (raw : Option PresenceRaw) (nodeId : AppNodeId) : ℕ :=
  countOf (scriptCounts raw) nodeId

def storedCount (hash : PresenceHash) (userId : UserId) (nodeId : AppNodeId) : ℕ :=
  fieldCount (hash.get? userId) nodeId

section System

variable {ι : Type*} [DecidableEq ι]

def stepPresenceStore (self : ι → AppNodeId) (s : PresenceStore ι) :
    PresenceStoreEvent ι → Option (PresenceStore ι)
  | .bump nodeId userId delta => some { s with
      hash := bumpPresenceField s.hash nodeId userId delta
      bumped := Function.update s.bumped userId (Function.update (s.bumped userId) nodeId
        ((s.bumped userId nodeId : ℤ)+delta.value).toNat) }
  | .run i event =>
    (stepReconcile (self i) s.hash (s.runs i) event).map fun result =>
      { s with hash := result.1, runs := Function.update s.runs i result.2 }

def presenceStoreStart (hash : PresenceHash) : PresenceStore ι where
  hash := hash
  runs _ := .idle
  bumped := storedCount hash

def answersAlive (alive : Finset AppNodeId) : PresenceStoreEvent ι → Bool
  | .run _ (.lookup ids true) => decide (∀ nodeId ∈ alive, nodeId.id ∈ ids)
  | _ => true

/-- Any content of the hash, any number of reconciles on any processes. -/
def presenceStoreSystem (self : ι → AppNodeId) (alive : Finset AppNodeId) :
    TransitionSystem (PresenceStore ι) (PresenceStoreEvent ι) where
  init s := ∃ hash, s = presenceStoreStart hash
  step s event s' := answersAlive alive event = true ∧ stepPresenceStore self s event = some s'

/-- A field still holds, of each alive node, the count that the scan read. -/
def fieldUnchanged (alive : Finset AppNodeId) (entries hash : PresenceHash) (uid : UserId) : Bool :=
  decide (∀ nodeId ∈ alive, storedCount hash uid nodeId = storedCount entries uid nodeId)

/-- The fields that the next command of a reconcile overwrites or deletes are unchanged. -/
def writesUnchanged (alive : Finset AppNodeId) (s : PresenceStore ι) (i : ι) : Bool :=
  match s.runs i with
  | .writing entries ((uid,_) :: _) _ => fieldUnchanged alive entries s.hash uid
  | .writing entries [] staleFields => staleFields.all (fieldUnchanged alive entries s.hash)
  | _ => true

/-- What is read of a count that the script has printed. -/
def reread (n : ℕ) : ℕ := (luaPrint (toDouble n)).value

def bumpedCount (hash : PresenceHash) (nodeId : AppNodeId) (userId : UserId) (delta : Delta)
    (other : AppNodeId) : ℕ :=
  if other = nodeId then ((storedCount hash userId nodeId : ℤ)+delta.value).toNat
  else storedCount hash userId other

/-- A reconcile writes only fields that are unchanged, and a bump prints only counts of alive
nodes that fourteen digits hold. -/
def carefulStep (alive : Finset AppNodeId) (s : PresenceStore ι) : PresenceStoreEvent ι → Bool
  | .bump nodeId userId delta => decide (∀ other ∈ alive,
      reread (bumpedCount s.hash nodeId userId delta other) =
        bumpedCount s.hash nodeId userId delta other)
  | .run i .write => writesUnchanged alive s i
  | .run _ _ => true

def carefulReconcile (self : ι → AppNodeId) (alive : Finset AppNodeId) :
    TransitionSystem (PresenceStore ι) (PresenceStoreEvent ι) :=
  (presenceStoreSystem self alive).restrict fun s event => carefulStep alive s event = true

def AliveCounted (alive : Finset AppNodeId) (s : PresenceStore ι) : Prop :=
  ∀ nodeId ∈ alive, ∀ userId, storedCount s.hash userId nodeId = s.bumped userId nodeId

end System

section Counts

variable (counts : PresenceNodeCounts) (nodeId : AppNodeId)

@[simp] theorem countOf_cleanedCounts : countOf (cleanedCounts counts) nodeId = countOf counts nodeId := by
  have hid := nodeId.nonempty
  simp only [countOf,cleanedCounts,Record.get?_filter]
  cases counts.get? nodeId.id with
  | none => rfl
  | some n =>
    by_cases hn : 0 < n
    · simp [Option.filter,hn,hid]
    · have hzero : n = 0 := by omega
      simp [Option.filter,hzero]

theorem countOf_eq_zero_of_size (h : counts.size = 0) : countOf counts nodeId = 0 := by
  have hnone := (Record.size_eq_zero_iff counts).mp h nodeId.id
  simp [countOf,hnone]

theorem AppNodeId.id_eq_iff {a b : AppNodeId} : a.id = b.id ↔ a = b := by
  cases a
  cases b
  simp

theorem countOf_erase (other : AppNodeId) :
    countOf (counts.erase nodeId.id) other = if other = nodeId then 0 else countOf counts other := by
  simp only [countOf,Record.get?_erase,AppNodeId.id_eq_iff]
  by_cases h : other = nodeId
  · simp [h]
  · simp [h]

theorem countOf_set (n : ℕ) (other : AppNodeId) :
    countOf (counts.set nodeId.id n) other = if other = nodeId then n else countOf counts other := by
  simp only [countOf,Record.get?_set,AppNodeId.id_eq_iff]
  by_cases h : other = nodeId
  · simp [h]
  · simp [h]

def DoubleCounts (counts : PresenceNodeCounts) : Prop :=
  ∀ id n, counts.get? id = some n → toDouble n = n

theorem doubleCounts_read (counts : Record String Numeral) : DoubleCounts (readCounts counts) := by
  intro id n h
  rw [readCounts,Record.get?_mapValues] at h
  obtain ⟨text,-,rfl⟩ := Option.map_eq_some_iff.mp h
  cases text with
  | digits n => exact toDouble_toDouble n
  | scientific significand exponent => exact toDouble_toDouble _

theorem DoubleCounts.filter {counts : PresenceNodeCounts} (h : DoubleCounts counts)
    (p : String → ℕ → Bool) : DoubleCounts (counts.filter p) := by
  intro id n hn
  rw [Record.get?_filter,Option.filter_eq_some_iff] at hn
  exact h id n hn.1

theorem doubleCounts_script (raw : Option PresenceRaw) : DoubleCounts (scriptCounts raw) := by
  rcases raw with _ | ⟨texts,_⟩ | _ | _
  · exact fun _ _ h => (by cases h)
  · exact doubleCounts_read texts
  · exact fun _ _ h => (by cases h)
  · exact fun _ _ h => (by cases h)

theorem countOf_mapValues (print : ℕ → Numeral) (hzero : (print 0).value = 0)
    (counts : PresenceNodeCounts) (nodeId : AppNodeId) :
    countOf (readCounts (counts.mapValues print)) nodeId =
      (print (countOf counts nodeId)).value := by
  simp only [countOf,readCounts,Record.get?_mapValues]
  cases counts.get? nodeId.id with
  | none => exact hzero.symm
  | some n => rfl

theorem fieldCount_encode {counts : PresenceNodeCounts} (h : DoubleCounts counts)
    (nodeId : AppNodeId) :
    fieldCount (encodePresenceNodeCounts counts) nodeId = countOf counts nodeId := by
  by_cases hsize : (cleanedCounts counts).size = 0
  · have hzero := countOf_eq_zero_of_size (cleanedCounts counts) nodeId hsize
    rw [countOf_cleanedCounts] at hzero
    rw [encodePresenceNodeCounts,if_pos hsize,hzero]
    rfl
  · have hdouble : toDouble (countOf counts nodeId) = countOf counts nodeId := by
      rw [countOf]
      cases hget : counts.get? nodeId.id with
      | none => rfl
      | some n => exact h nodeId.id n hget
    rw [encodePresenceNodeCounts,if_neg hsize,fieldCount,scriptCounts,countOf_mapValues _ rfl,
      countOf_cleanedCounts]
    exact hdouble

theorem fieldCount_printed (counts : PresenceNodeCounts) (nodeId : AppNodeId) :
    fieldCount (if sumDoubles (cleanedCounts counts).values ≤ 0 then none
      else some (.nodeMap ((cleanedCounts counts).mapValues luaPrint) true)) nodeId =
      (luaPrint (countOf counts nodeId)).value := by
  split
  · rename_i hnone
    have hzero : countOf (cleanedCounts counts) nodeId = 0 := by
      rw [countOf]
      cases hget : (cleanedCounts counts).get? nodeId.id with
      | none => rfl
      | some n =>
        have hmem := (Record.mem_values_iff (cleanedCounts counts) n).mpr ⟨_,hget⟩
        exact eq_zero_of_sumDoubles (Nat.le_zero.mp hnone) n hmem
    rw [countOf_cleanedCounts] at hzero
    rw [hzero]
    rfl
  · rw [fieldCount,scriptCounts,countOf_mapValues _ rfl,countOf_cleanedCounts]

/-- The script moves the count of its node, floored at zero, and prints them all. -/
theorem fieldCount_bumpScript (nodeId : AppNodeId) (delta : Delta) (raw : Option PresenceRaw)
    (other : AppNodeId) :
    fieldCount (bumpScript nodeId delta raw) other =
      reread (if other = nodeId then ((fieldCount raw nodeId : ℤ)+delta.value).toNat
        else fieldCount raw other) := by
  change fieldCount (if sumDoubles (cleanedCounts _).values ≤ 0 then _ else _) other = _
  rw [fieldCount_printed,reread]
  have hdouble : DoubleCounts (scriptCounts raw) := doubleCounts_script raw
  simp only [fieldCount]
  generalize scriptCounts raw = counts at hdouble ⊢
  have hsame : toDouble (countOf counts other) = countOf counts other := by
    rw [countOf]
    cases hget : counts.get? other.id with
    | none => rfl
    | some n => exact hdouble other.id n hget
  have hn : addDelta ((counts.get? nodeId.id).getD 0) delta =
      if (countOf counts nodeId : ℤ)+delta.value ≤ 0 then (countOf counts nodeId : ℤ)+delta.value
      else toDouble ((countOf counts nodeId : ℤ)+delta.value).toNat := rfl
  have hzero : toDouble 0 = 0 := toDouble_of_le (Nat.zero_le _)
  by_cases hother : other = nodeId
  · subst hother
    rw [if_pos rfl,hn]
    congr 2
    by_cases hle : (countOf counts other : ℤ)+delta.value ≤ 0
    · have hfloor : ((countOf counts other : ℤ)+delta.value).toNat = 0 := by omega
      rw [if_pos hle,if_pos hle,countOf_erase,if_pos rfl,hfloor,hzero]
    · rw [if_neg hle]
      split
      · rename_i hnone
        rw [countOf_erase,if_pos rfl]
        omega
      · rw [countOf_set,if_pos rfl,Int.toNat_natCast]
  · rw [if_neg hother,hsame]
    congr 2
    split
    · rw [countOf_erase,if_neg hother]
    · rw [countOf_set,if_neg hother]

theorem reread_of_le {n : ℕ} (h : n ≤ 10^14) : reread n = n := by
  have hdouble : n ≤ 2^53 := h.trans (by norm_num)
  rw [reread,toDouble_of_le hdouble,PresenceCodec.value_luaPrint h]

theorem storedCount_bump (hash : PresenceHash) (nodeId : AppNodeId) (userId user : UserId)
    (delta : Delta) (other : AppNodeId) :
    storedCount (bumpPresenceField hash nodeId userId delta) user other =
      if user = userId then reread (bumpedCount hash nodeId userId delta other)
      else storedCount hash user other := by
  have hget : (bumpPresenceField hash nodeId userId delta).get? user =
      if user = userId then bumpScript nodeId delta (hash.get? userId) else hash.get? user := by
    rw [bumpPresenceField]
    cases bumpScript nodeId delta (hash.get? userId) with
    | none => simp
    | some raw => simp
  rw [storedCount,hget]
  by_cases huser : user = userId
  · subst huser
    rw [if_pos rfl,if_pos rfl,fieldCount_bumpScript]
    rfl
  · rw [if_neg huser,if_neg huser]
    rfl

end Counts

section Plan

variable {alive : Finset AppNodeId} {ids : List String} {nodeId : AppNodeId}

def PlanOk (alive : Finset AppNodeId) (entries : PresenceHash)
    (rewrites : List (UserId × PresenceRaw)) (staleFields : List UserId) : Prop :=
  (∀ rewrite ∈ rewrites, ∀ nodeId ∈ alive,
    fieldCount (some rewrite.2) nodeId = storedCount entries rewrite.1 nodeId) ∧
  ∀ uid ∈ staleFields, ∀ nodeId ∈ alive, storedCount entries uid nodeId = 0

theorem fieldCount_parse (raw : PresenceRaw) (nodeId : AppNodeId) :
    countOf (parsePresenceNodeCounts raw) nodeId = fieldCount (some raw) nodeId := by
  cases raw with
  | nodeMap counts compact => exact countOf_cleanedCounts (readCounts counts) nodeId
  | legacy refs => rfl
  | unparsable text => rfl

theorem countOf_liveOnly (counts : PresenceNodeCounts) (hmem : nodeId.id ∈ ids) :
    countOf (counts.filter fun node n => decide (0 < n) && ids.contains node) nodeId =
      countOf counts nodeId := by
  simp only [countOf,Record.get?_filter]
  cases counts.get? nodeId.id with
  | none => rfl
  | some n =>
    by_cases hn : 0 < n
    · simp [Option.filter,hn,hmem]
    · have hzero : n = 0 := by omega
      simp [Option.filter,hzero]

theorem doubleCounts_parse (raw : PresenceRaw) : DoubleCounts (parsePresenceNodeCounts raw) := by
  cases raw with
  | nodeMap counts compact => exact (doubleCounts_read counts).filter _
  | legacy refs => exact fun _ _ h => (by cases h)
  | unparsable text => exact fun _ _ h => (by cases h)

theorem scanField_planOk {entries : PresenceHash} {scan : PresenceScan}
    {field : UserId × PresenceRaw} (hids : ∀ nodeId ∈ alive, nodeId.id ∈ ids)
    (hfield : entries.get? field.1 = some field.2)
    (h : PlanOk alive entries scan.rewrites scan.staleFields) :
    PlanOk alive entries (scanField ids scan field).rewrites
      (scanField ids scan field).staleFields := by
  have hstored : ∀ nodeId, storedCount entries field.1 nodeId =
      countOf (parsePresenceNodeCounts field.2) nodeId := by
    intro nodeId
    rw [storedCount,hfield,fieldCount_parse]
  -- A field without a count of an alive node may go.
  have hstale : (∀ nodeId ∈ alive, countOf (parsePresenceNodeCounts field.2) nodeId = 0) →
      PlanOk alive entries scan.rewrites (scan.staleFields ++ [field.1]) := by
    intro hzero
    refine ⟨h.1,fun uid huid nodeId hnode => ?_⟩
    rcases List.mem_append.mp huid with huid | huid
    · exact h.2 uid huid nodeId hnode
    · rw [List.mem_singleton.mp huid,hstored]
      exact hzero nodeId hnode
  by_cases hsize : (parsePresenceNodeCounts field.2).size = 0
  · by_cases hreliable : scan.reliable = true
    · simp only [scanField,hsize,hreliable,if_true]
      exact hstale fun nodeId _ => countOf_eq_zero_of_size _ nodeId hsize
    · simp only [scanField,hsize,hreliable,if_true]
      exact h
  by_cases hreliable : scan.reliable = true
  · have hlive := fun nodeId hnode =>
      countOf_liveOnly (parsePresenceNodeCounts field.2) (hids nodeId hnode)
    have hdouble := (doubleCounts_parse field.2).filter fun node n =>
      decide (0 < n) && ids.contains node
    simp only [scanField,hsize,hreliable,if_false,Bool.not_true,Bool.false_eq_true]
    generalize ((parsePresenceNodeCounts field.2).filter fun node n =>
      decide (0 < n) && ids.contains node) = liveOnly at hlive hdouble ⊢
    by_cases hnone : liveOnly.size = 0
    · simp only [hnone,if_true]
      refine hstale fun nodeId hnode => ?_
      rw [← hlive nodeId hnode]
      exact countOf_eq_zero_of_size _ nodeId hnone
    simp only [hnone,if_false]
    cases hencoded : encodePresenceNodeCounts liveOnly with
    | none => exact h
    | some encoded =>
      by_cases hsame : (encoded != field.2) = true
      · simp only [hsame,if_true]
        refine ⟨fun rewrite hrewrite nodeId hnode => ?_,h.2⟩
        rcases List.mem_append.mp hrewrite with hrewrite | hrewrite
        · exact h.1 rewrite hrewrite nodeId hnode
        · rw [List.mem_singleton.mp hrewrite,hstored,← hencoded,fieldCount_encode hdouble]
          exact hlive nodeId hnode
      · simp only [hsame]
        exact h
  · simp only [scanField,hsize,hreliable,if_false,Bool.not_false,if_true]
    exact h

theorem scanField_reliable (scan : PresenceScan) (field : UserId × PresenceRaw) :
    (scanField ids scan field).reliable = scan.reliable := by
  simp only [scanField]
  repeat' split
  all_goals rfl

theorem scanWsPresence_reliable (self : AppNodeId) (entries : PresenceHash) (ids : List String)
    (reliable : Bool) : (scanWsPresence self entries ids reliable).reliable = reliable := by
  have hfold : ∀ (fields : List (UserId × PresenceRaw)) (scan : PresenceScan),
      (fields.foldl (scanField (self.id :: ids)) scan).reliable = scan.reliable := by
    intro fields
    induction fields with
    | nil => exact fun _ => rfl
    | cons field fields ih => exact fun scan => (ih _).trans (scanField_reliable scan field)
  exact hfold entries.entries _

theorem scanWsPresence_planOk {self : AppNodeId} {entries : PresenceHash} {reliable : Bool}
    (hids : ∀ nodeId ∈ alive, nodeId.id ∈ ids) :
    PlanOk alive entries (scanWsPresence self entries ids reliable).rewrites
      (scanWsPresence self entries ids reliable).staleFields := by
  have hmem : ∀ nodeId ∈ alive, nodeId.id ∈ self.id :: ids := fun nodeId hnode =>
    List.mem_cons_of_mem _ (hids nodeId hnode)
  -- Induction over the fields scanned so far, each of which is a field of the hash.
  have hfold : ∀ (fields : List (UserId × PresenceRaw)) (scan : PresenceScan),
      (∀ field ∈ fields, entries.get? field.1 = some field.2) →
      PlanOk alive entries scan.rewrites scan.staleFields →
      PlanOk alive entries (fields.foldl (scanField (self.id :: ids)) scan).rewrites
        (fields.foldl (scanField (self.id :: ids)) scan).staleFields := by
    intro fields
    induction fields with
    | nil => exact fun scan _ h => h
    | cons field fields ih =>
      intro scan hfields h
      exact ih _ (fun f hf => hfields f (List.mem_cons_of_mem _ hf))
        (scanField_planOk hmem (hfields field List.mem_cons_self) h)
  refine hfold entries.entries _ (fun field hfield => ?_) ?_
  · exact (Record.get?_eq_some_iff entries field.1 field.2).mpr hfield
  · simp [PlanOk]

end Plan

section Invariant

variable {ι : Type*} [DecidableEq ι] {self : ι → AppNodeId} {alive : Finset AppNodeId}

def StageOk (alive : Finset AppNodeId) : ReconcileStage → Prop
  | .writing entries rewrites staleFields => PlanOk alive entries rewrites staleFields
  | _ => True

theorem stepReconcile_stageOk {me : AppNodeId} {hash hash' : PresenceHash}
    {stage stage' : ReconcileStage} {event : ReconcileEvent}
    (hids : ∀ ids, event = .lookup ids true → ∀ nodeId ∈ alive, nodeId.id ∈ ids)
    (hok : StageOk alive stage) (h : stepReconcile me hash stage event = some (hash',stage')) :
    StageOk alive stage' := by
  cases event with
  | scan =>
    cases stage with
    | idle =>
      cases h
      trivial
    | _ => cases h
  | lookup ids reliable =>
    cases stage with
    | scanned entries =>
      simp only [stepReconcile] at h
      split at h
      · cases h
        trivial
      · rename_i hreliable
        cases h
        have hreliable : reliable = true := by
          rw [scanWsPresence_reliable] at hreliable
          simpa using hreliable
        exact scanWsPresence_planOk (hids ids (by rw [hreliable]))
    | _ => cases h
  | write =>
    cases stage with
    | writing entries rewrites staleFields =>
      cases rewrites with
      | nil =>
        cases h
        trivial
      | cons rewrite rewrites =>
        cases h
        exact ⟨fun r hr => hok.1 r (List.mem_cons_of_mem _ hr),hok.2⟩
    | _ => cases h

omit [DecidableEq ι] in
/-- A command of a reconcile leaves the counts of the alive nodes exactly if it overwrites
and deletes only fields that are unchanged since the scan. -/
theorem stepReconcile_keeps_iff {s : PresenceStore ι} {i : ι} {event : ReconcileEvent}
    {hash' : PresenceHash} {stage' : ReconcileStage} (hok : StageOk alive (s.runs i))
    (h : stepReconcile (self i) s.hash (s.runs i) event = some (hash',stage')) :
    (∀ nodeId ∈ alive, ∀ userId, storedCount hash' userId nodeId = storedCount s.hash userId nodeId) ↔
      carefulStep alive s (.run i event) = true := by
  cases event with
  | scan =>
    have hhash : hash' = s.hash := by
      cases hs : s.runs i <;> rw [hs] at h <;> cases h
      rfl
    simp [carefulStep,hhash]
  | lookup ids reliable =>
    have hhash : hash' = s.hash := by
      cases hs : s.runs i with
      | scanned entries =>
        simp only [hs,stepReconcile] at h
        split at h <;> cases h <;> rfl
      | _ =>
        rw [hs] at h
        cases h
    simp [carefulStep,hhash]
  | write =>
    cases hs : s.runs i with
    | writing entries rewrites staleFields =>
      rw [hs] at hok h
      cases rewrites with
      | nil =>
        cases h
        have hcount : ∀ userId nodeId, storedCount (staleFields.foldl Record.erase s.hash) userId
            nodeId = if userId ∈ staleFields then 0 else storedCount s.hash userId nodeId := by
          intro userId nodeId
          rw [storedCount,Record.get?_foldl_erase]
          split <;> rfl
        simp only [hcount,carefulStep,writesUnchanged,hs,List.all_eq_true,fieldUnchanged,
          decide_eq_true_eq]
        constructor
        · intro hkeep uid huid nodeId hnode
          have hzero := hkeep nodeId hnode uid
          rw [if_pos huid] at hzero
          rw [← hzero,hok.2 uid huid nodeId hnode]
        · intro hfresh nodeId hnode userId
          split
          · rename_i huser
            rw [hfresh userId huser nodeId hnode,hok.2 userId huser nodeId hnode]
          · rfl
      | cons rewrite rewrites =>
        obtain ⟨uid,encoded⟩ := rewrite
        cases h
        have hcount : ∀ userId nodeId, storedCount (s.hash.set uid encoded) userId nodeId =
            if userId = uid then fieldCount (some encoded) nodeId
            else storedCount s.hash userId nodeId := by
          intro userId nodeId
          rw [storedCount,Record.get?_set]
          split <;> rfl
        have hplan := hok.1 (uid,encoded) List.mem_cons_self
        simp only [hcount,carefulStep,writesUnchanged,hs,fieldUnchanged,decide_eq_true_eq]
        constructor
        · intro hkeep nodeId hnode
          have hsame := hkeep nodeId hnode uid
          rw [if_pos rfl] at hsame
          rw [← hsame,hplan nodeId hnode]
        · intro hfresh nodeId hnode userId
          split
          · rename_i huser
            rw [huser,hfresh nodeId hnode,hplan nodeId hnode]
          · rfl
    | _ =>
      rw [hs] at h
      cases h

def RunsOk (alive : Finset AppNodeId) (s : PresenceStore ι) : Prop :=
  ∀ i, StageOk alive (s.runs i)

theorem step_runsOk {s s' : PresenceStore ι} {event : PresenceStoreEvent ι} (hok : RunsOk alive s)
    (h : (presenceStoreSystem self alive).step s event s') : RunsOk alive s' := by
  obtain ⟨hanswer,h⟩ := h
  cases event with
  | bump nodeId userId delta =>
    cases h
    exact hok
  | run i event =>
    obtain ⟨⟨hash',stage'⟩,hstep,rfl⟩ := Option.map_eq_some_iff.mp h
    intro j
    by_cases hj : j = i
    · subst hj
      simp only [Function.update_self]
      refine stepReconcile_stageOk (fun ids hids => ?_) (hok j) hstep
      subst hids
      simpa [answersAlive] using hanswer
    · simp only [Function.update_of_ne hj]
      exact hok j

/-- From a state that counts right, a step counts right exactly if it meets the condition. -/
theorem step_aliveCounted_iff {s s' : PresenceStore ι} {event : PresenceStoreEvent ι}
    (hok : RunsOk alive s) (hcount : AliveCounted alive s)
    (h : (presenceStoreSystem self alive).step s event s') :
    AliveCounted alive s' ↔ carefulStep alive s event = true := by
  obtain ⟨-,h⟩ := h
  cases event with
  | bump nodeId userId delta =>
    cases h
    -- The node's own account moves as the script means to move the stored count.
    have haccount : ∀ other ∈ alive, ∀ user,
        Function.update s.bumped userId (Function.update (s.bumped userId) nodeId
          ((s.bumped userId nodeId : ℤ)+delta.value).toNat) user other =
        if user = userId then bumpedCount s.hash nodeId userId delta other
        else storedCount s.hash user other := by
      intro other hother user
      by_cases huser : user = userId
      · subst huser
        rw [Function.update_self,if_pos rfl,bumpedCount]
        by_cases hnode : other = nodeId
        · subst hnode
          rw [Function.update_self,if_pos rfl,hcount other hother user]
        · rw [Function.update_of_ne hnode,if_neg hnode,hcount other hother user]
      · rw [Function.update_of_ne huser,if_neg huser,hcount other hother user]
    rw [carefulStep,decide_eq_true_eq]
    constructor
    · intro hkeep other hother
      have hsame := hkeep other hother userId
      rw [storedCount_bump,if_pos rfl] at hsame
      exact hsame.trans ((haccount other hother userId).trans (if_pos rfl))
    · intro hprints other hother user
      refine Eq.trans ?_ (haccount other hother user).symm
      rw [storedCount_bump]
      split
      · exact hprints other hother
      · rfl
  | run i event =>
    obtain ⟨⟨hash',stage'⟩,hstep,rfl⟩ := Option.map_eq_some_iff.mp h
    rw [← stepReconcile_keeps_iff (hok i) hstep]
    constructor
    · intro hkeep nodeId hnode userId
      rw [hcount nodeId hnode userId]
      exact hkeep nodeId hnode userId
    · intro hkeep nodeId hnode userId
      exact (hkeep nodeId hnode userId).trans (hcount nodeId hnode userId)

theorem reachable_runsOk {s : PresenceStore ι} (h : (presenceStoreSystem self alive).Reachable s) :
    RunsOk alive s := by
  refine h.invariant (RunsOk alive) ?_ fun _ _ _ _ hok hstep => step_runsOk hok hstep
  rintro s ⟨hash,rfl⟩ i
  trivial

/-- Along every careful run the alive nodes' counts are the sums of their own bumps, and a
command of a reconcile leaves them alone; the condition is needed at each step, and a bump
whose counts stay within 10^14 meets it. -/
theorem presence_reconcile_safe (self : ι → AppNodeId) (alive : Finset AppNodeId)
    (s : PresenceStore ι) (h : (carefulReconcile self alive).Reachable s) :
    AliveCounted alive s ∧ ∀ event s', (presenceStoreSystem self alive).step s event s' →
      (AliveCounted alive s' ↔ carefulStep alive s event = true) ∧
      (∀ i e, event = .run i e → carefulStep alive s event = true →
        ∀ nodeId ∈ alive, ∀ userId,
          storedCount s'.hash userId nodeId = storedCount s.hash userId nodeId) ∧
      ∀ nodeId userId delta, event = .bump nodeId userId delta →
        (∀ other ∈ alive, bumpedCount s.hash nodeId userId delta other ≤ 10^14) →
          carefulStep alive s event = true := by
  have hok : RunsOk alive s := reachable_runsOk h.of_restrict
  have hcount : AliveCounted alive s := by
    refine h.invariant (AliveCounted alive) ?_ ?_
    · rintro s ⟨hash,rfl⟩ nodeId _ userId
      rfl
    · intro s event s' hs hcount hstep
      have hok := reachable_runsOk hs.of_restrict
      exact (step_aliveCounted_iff hok hcount hstep.2).mpr hstep.1
  refine ⟨hcount,fun event s' hstep => ⟨step_aliveCounted_iff hok hcount hstep,?_,?_⟩⟩
  · rintro i e rfl hcareful
    obtain ⟨⟨hash',stage'⟩,hrun,rfl⟩ := Option.map_eq_some_iff.mp hstep.2
    exact (stepReconcile_keeps_iff (hok i) hrun).mpr hcareful
  · rintro nodeId userId delta rfl hsmall
    exact decide_eq_true fun other hother => reread_of_le (hsmall other hother)

end Invariant

section Scenario

def stepTested (self : Unit → AppNodeId) (alive : Finset AppNodeId)
    (test : PresenceStore Unit → PresenceStoreEvent Unit → Bool) (s : PresenceStore Unit)
    (event : PresenceStoreEvent Unit) : Option (PresenceStore Unit) :=
  if test s event && answersAlive alive event then stepPresenceStore self s event else none

theorem restrict_of_stepTested {self : Unit → AppNodeId} {alive : Finset AppNodeId}
    {test : PresenceStore Unit → PresenceStoreEvent Unit → Bool} (s : PresenceStore Unit)
    (event : PresenceStoreEvent Unit) (s' : PresenceStore Unit)
    (h : stepTested self alive test s event = some s') :
    ((presenceStoreSystem self alive).restrict fun s event => test s event = true).step s event
      s' := by
  rw [stepTested] at h
  split at h
  · rename_i htest
    rw [Bool.and_eq_true] at htest
    exact ⟨htest.1,htest.2,h⟩
  · cases h

def nodeA : AppNodeId := ⟨"a",by decide⟩

def hashWithDeadNode : PresenceHash :=
  Record.empty.set "ann" (.nodeMap ((Record.empty.set "crashed" (.digits 1)).set "a" (.digits 1)) true)

theorem presence_reconcile_safe_of_dead_node : ∃ s : PresenceStore Unit,
    (carefulReconcile (fun _ => nodeA) {nodeA}).Reachable s ∧
    (s.hash.get? "ann").map parsePresenceNodeCounts = some (Record.empty.set "a" 2) ∧
    AliveCounted {nodeA} s := by
  let steps : List (PresenceStoreEvent Unit) := [.run () .scan,.run () (.lookup ["a"] true),
    .run () .write,.run () .write,.bump nodeA "ann" .add]
  have hrun : ((runSteps (stepTested (fun _ => nodeA) {nodeA} (carefulStep {nodeA}))
      (presenceStoreStart hashWithDeadNode) steps).any fun s =>
        (s.hash.get? "ann").map parsePresenceNodeCounts == some (Record.empty.set "a" 2)) =
          true := by
    decide +kernel
  obtain ⟨s,hs,hfacts⟩ := (Option.any_eq_true _ _).mp hrun
  have hr : (carefulReconcile (fun _ => nodeA) {nodeA}).Reachable s :=
    .of_runSteps restrict_of_stepTested steps (.init ⟨_,rfl⟩) hs
  exact ⟨s,hr,beq_iff_eq.mp hfacts,(presence_reconcile_safe _ _ s hr).1⟩

/-- A bump that lands between the scan and the write of its field is overwritten. -/
theorem reconcile_loses_bump : ¬∀ s : PresenceStore Unit,
    (presenceStoreSystem (fun _ => nodeA) {nodeA}).Reachable s → AliveCounted {nodeA} s := by
  intro h
  let steps : List (PresenceStoreEvent Unit) := [.run () .scan,.bump nodeA "ann" .add,
    .run () (.lookup ["a"] true),.run () .write,.run () .write]
  have hrun : ((runSteps (stepTested (fun _ => nodeA) {nodeA} fun _ _ => true)
      (presenceStoreStart hashWithDeadNode) steps).any fun s =>
        storedCount s.hash "ann" nodeA == 1 && s.bumped "ann" nodeA == 2) = true := by
    decide +kernel
  obtain ⟨s,hs,hfacts⟩ := (Option.any_eq_true _ _).mp hrun
  rw [Bool.and_eq_true,beq_iff_eq,beq_iff_eq] at hfacts
  have hr := Reachable.of_runSteps restrict_of_stepTested steps (.init ⟨_,rfl⟩) hs
  have hcount := h s (.of_restrict hr) nodeA (Finset.mem_singleton_self _) "ann"
  omega

end Scenario

end WebSyncPlay
