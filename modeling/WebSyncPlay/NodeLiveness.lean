import WebSyncPlay.PresenceReconcile

/-! Which nodes are alive (`server/node-heartbeat.ts`): each node renews a key of its own, and a
process that reconciles presence lists the keys, with a cache and one scan at a time for all its
callers. Scans are the store's: a full one finds every key that is there all the while. -/
namespace WebSyncPlay

open Library TransitionSystem

section Model

def APP_NODE_HEARTBEAT_INTERVAL_MS : ℕ := 15000

def HEARTBEAT_TTL_MULTIPLIER : ℕ := 3

def derivedHeartbeatTtlSeconds (intervalMs : ℕ) : ℕ :=
  (intervalMs*HEARTBEAT_TTL_MULTIPLIER+999)/1000

def APP_NODE_ALIVE_TTL_SECONDS : ℕ := derivedHeartbeatTtlSeconds APP_NODE_HEARTBEAT_INTERVAL_MS

def ALIVE_NODE_LIST_CACHE_TTL_MS : ℕ := 10000

/-- The key of a node. One that was deleted keeps the moment when it went. -/
structure AliveKey where
  expiresAt : ℕ
  /-- Since when it has been there without a gap. -/
  since : ℕ
  deriving DecidableEq

/-- The heartbeat of a node: when the timer is due, and whether the last touch failed. -/
structure Heartbeat where
  startedAt : ℕ
  dueAt : ℕ
  missed : Bool
  deriving DecidableEq

/-- The ids of a scan, which ended at `fetchedAt`. -/
structure AliveList where
  ids : List String
  startedAt : ℕ
  fetchedAt : ℕ
  deriving DecidableEq

/-- A scan under way, with the cached list that its caller saw. -/
structure AliveScan where
  startedAt : ℕ
  cached : Option AliveList
  seen : List String
  deriving DecidableEq

structure AliveAppNodeListResult where
  ids : List String
  reliable : Bool
  deriving DecidableEq

/-- What a caller was given: of which list, and whether it stood in for a scan that failed. -/
structure AliveAnswer where
  result : AliveAppNodeListResult
  answeredAt : ℕ
  list : Option AliveList
  fellBack : Bool
  deriving DecidableEq

inductive AliveLookup
  | waiting
  | answered (answer : AliveAnswer)
  deriving DecidableEq

/-- The keys, the heartbeats of all nodes, and the list cache of one process with its callers. -/
structure LivenessState where
  nowMs : ℕ := 0
  keys : Record String AliveKey := .empty
  beats : String → Option Heartbeat := fun _ => none
  cache : Option AliveList := none
  inflight : Option AliveScan := none
  lookups : ℕ → Option AliveLookup := fun _ => none

namespace LivenessState

def Alive (s : LivenessState) (key : AliveKey) : Prop := s.nowMs < key.expiresAt

instance (s : LivenessState) : DecidablePred s.Alive := fun _ => inferInstanceAs (Decidable (_ < _))

/-- Since when the key of a node has been there, if it is touched now. -/
def sinceOf (s : LivenessState) (node : String) : ℕ :=
  match s.keys.get? node with
  | some key => if s.Alive key then key.since else s.nowMs
  | none => s.nowMs

/-- `SET` with `EX`, if the command reaches the store. -/
def touchAppNodeAlive (s : LivenessState) (node : String) (reached : Bool) : LivenessState :=
  if reached then
    { s with keys := s.keys.set node ⟨s.nowMs+APP_NODE_ALIVE_TTL_SECONDS*1000,s.sinceOf node⟩ }
  else s

def setBeat (s : LivenessState) (node : String) (beat : Option Heartbeat) : LivenessState :=
  { s with beats := Function.update s.beats node beat }

def setLookup (s : LivenessState) (c : ℕ) (lookup : AliveLookup) : LivenessState :=
  { s with lookups := Function.update s.lookups c (some lookup) }

def settle (s : LivenessState) (answer : AliveAnswer) : LivenessState :=
  { s with
    inflight := none
    lookups := fun c => (s.lookups c).map fun lookup => match lookup with
      | .waiting => .answered answer
      | .answered old => .answered old }

def listAliveAppNodeIds (s : LivenessState) (c : ℕ) : LivenessState :=
  match s.cache.filter fun list => s.nowMs < list.fetchedAt+ALIVE_NODE_LIST_CACHE_TTL_MS with
  | some list => s.setLookup c (.answered ⟨⟨list.ids,true⟩,s.nowMs,some list,false⟩)
  | none =>
    match s.inflight with
    | some _ => s.setLookup c .waiting
    | none => { s.setLookup c .waiting with inflight := some ⟨s.nowMs,s.cache,[]⟩ }

end LivenessState

inductive LivenessAction
  | tick (ms : ℕ)
  | startAppNodeHeartbeat (node : String) (reached : Bool)
  | beat (node : String) (reached : Bool)
  | crash (node : String)
  | shutdown (node : String) (reached : Bool)
  | list (c : ℕ)
  | page (ids : List String)
  | scanned
  | scanFails

def livenessStep (s : LivenessState) : LivenessAction → Option LivenessState
  | .tick ms => some { s with nowMs := s.nowMs+ms }
  | .startAppNodeHeartbeat node reached =>
    if s.beats node = none then
      some ((s.touchAppNodeAlive node reached).setBeat node
        (some ⟨s.nowMs,s.nowMs+APP_NODE_HEARTBEAT_INTERVAL_MS,!reached⟩))
    else none
  | .beat node reached => (s.beats node).bind fun heartbeat =>
    if heartbeat.dueAt ≤ s.nowMs then
      some ((s.touchAppNodeAlive node reached).setBeat node
        (some { heartbeat with
          dueAt := s.nowMs+APP_NODE_HEARTBEAT_INTERVAL_MS, missed := !reached }))
    else none
  | .crash node => some (s.setBeat node none)
  | .shutdown node reached => (s.keys.get? node).map fun key =>
    { s.setBeat node none with
      keys := if reached then s.keys.set node { key with expiresAt := min key.expiresAt s.nowMs }
        else s.keys }
  | .list c => if s.lookups c = none then some (s.listAliveAppNodeIds c) else none
  | .page ids => s.inflight.bind fun scan =>
    if ∀ id ∈ ids, ∃ key ∈ s.keys.get? id, s.Alive key then
      some { s with inflight := some { scan with seen := scan.seen ++ ids } }
    else none
  | .scanned => s.inflight.bind fun scan =>
    if ∀ entry ∈ s.keys.entries, s.Alive entry.2 → entry.2.since < scan.startedAt →
        entry.1 ∈ scan.seen then
      let list : AliveList := ⟨scan.seen,scan.startedAt,s.nowMs⟩
      some { s.settle ⟨⟨list.ids,true⟩,s.nowMs,some list,false⟩ with cache := some list }
    else none
  | .scanFails => s.inflight.map fun scan =>
    match scan.cached with
    | some list => s.settle ⟨⟨list.ids,true⟩,s.nowMs,some list,true⟩
    | none => s.settle ⟨⟨[],false⟩,s.nowMs,none,true⟩

def livenessSystem : TransitionSystem LivenessState LivenessAction where
  init s := s = {}
  step s a s' := livenessStep s a = some s'

def timerSlackMs : ℕ := 7500

/-- A node that is healthy as long as it runs: its first touch reaches the store, no two in a row
fail, and its timer is less than half an interval late. -/
def Healthy (node : String) (s : LivenessState) : LivenessAction → Prop
  | .tick ms => ∀ heartbeat ∈ s.beats node, s.nowMs+ms < heartbeat.dueAt+timerSlackMs
  | .startAppNodeHeartbeat other reached => other = node → reached = true
  | .beat other reached => other = node →
      ∀ heartbeat ∈ s.beats node, heartbeat.missed = true → reached = true
  | _ => True

instance (node : String) (s : LivenessState) : DecidablePred (Healthy node s) := fun a =>
  match a with
  | .tick ms => inferInstanceAs (Decidable (∀ heartbeat ∈ s.beats node,
      s.nowMs+ms < heartbeat.dueAt+timerSlackMs))
  | .startAppNodeHeartbeat other reached =>
    inferInstanceAs (Decidable (other = node → reached = true))
  | .beat other reached => inferInstanceAs (Decidable (other = node →
      ∀ heartbeat ∈ s.beats node, heartbeat.missed = true → reached = true))
  | .crash _ | .shutdown .. | .list _ | .page _ | .scanned | .scanFails =>
    inferInstanceAs (Decidable True)

end Model

section Lists

variable {s s' : LivenessState} {node : String} {reached : Bool}

/-- A list has every node whose key has been there since before its scan, and no node whose key was
gone by then. -/
structure ListOk (s : LivenessState) (list : AliveList) : Prop where
  times : list.startedAt ≤ list.fetchedAt ∧ list.fetchedAt ≤ s.nowMs
  holds : ∀ id key, s.keys.get? id = some key → s.Alive key → key.since < list.startedAt →
    id ∈ list.ids
  only : ∀ id ∈ list.ids, ∃ key, s.keys.get? id = some key ∧ list.startedAt ≤ key.expiresAt

/-- Time passes, and keys are renewed, made or deleted. -/
structure KeysGrow (s s' : LivenessState) : Prop where
  now : s.nowMs ≤ s'.nowMs
  old : ∀ id key', s'.keys.get? id = some key' → s'.Alive key' → key'.since < s.nowMs →
    ∃ key, s.keys.get? id = some key ∧ s.Alive key ∧ key.since = key'.since
  kept : ∀ id key, s.keys.get? id = some key → ∃ key', s'.keys.get? id = some key' ∧
    min key.expiresAt s.nowMs ≤ key'.expiresAt
  since : (∀ id key, s.keys.get? id = some key → key.since ≤ s.nowMs) →
    ∀ id key, s'.keys.get? id = some key → key.since ≤ s'.nowMs

theorem ListOk.mono {list : AliveList} (h : ListOk s list) (hgrow : KeysGrow s s') :
    ListOk s' list where
  times := ⟨h.times.1,h.times.2.trans hgrow.now⟩
  holds id key' hkey' halive hsince := by
    have htimes := h.times
    obtain ⟨key,hkey,halive,hsame⟩ := hgrow.old id key' hkey' halive (by omega)
    exact h.holds id key hkey halive (by omega)
  only id hid := by
    obtain ⟨key,hkey,hstarted⟩ := h.only id hid
    obtain ⟨key',hkey',hmin⟩ := hgrow.kept id key hkey
    have htimes := h.times
    exact ⟨key',hkey',by omega⟩

theorem KeysGrow.same_keys (hnow : s.nowMs ≤ s'.nowMs) (hkeys : s'.keys = s.keys) :
    KeysGrow s s' where
  now := hnow
  old id key hkey halive _ := by
    rw [hkeys] at hkey
    exact ⟨key,hkey,hnow.trans_lt halive,rfl⟩
  kept id key hkey := ⟨key,by rw [hkeys]; exact hkey,min_le_left _ _⟩
  since h id key hkey := by
    rw [hkeys] at hkey
    exact (h id key hkey).trans hnow

theorem sinceOf_cases (s : LivenessState) (node : String) :
    s.sinceOf node = s.nowMs ∨
      ∃ key, s.keys.get? node = some key ∧ s.Alive key ∧ s.sinceOf node = key.since := by
  unfold LivenessState.sinceOf
  cases hkey : s.keys.get? node with
  | none => exact .inl rfl
  | some key =>
    dsimp only
    split
    · rename_i halive
      exact .inr ⟨key,rfl,halive,rfl⟩
    · exact .inl rfl

theorem KeysGrow.touch (s : LivenessState) (node : String) (reached : Bool)
    (hsame : s'.keys = (s.touchAppNodeAlive node reached).keys) (hnow : s'.nowMs = s.nowMs) :
    KeysGrow s s' := by
  cases reached with
  | false => exact .same_keys hnow.ge hsame
  | true =>
    have hget : ∀ id, s'.keys.get? id = if id = node then
        some ⟨s.nowMs+APP_NODE_ALIVE_TTL_SECONDS*1000,s.sinceOf node⟩ else s.keys.get? id := by
      intro id
      rw [hsame]
      exact Record.get?_set s.keys node _ id
    refine ⟨hnow.ge,fun id key' hkey' halive hsince => ?_,fun id key hkey => ?_,
      fun h id key hkey => ?_⟩
    · rw [hget] at hkey'
      split at hkey'
      · rename_i hid
        cases hkey'
        rcases sinceOf_cases s node with hnew | ⟨key,hkey,halive,heq⟩
        · rw [hnew] at hsince
          exact absurd hsince (lt_irrefl _)
        · exact ⟨key,hid ▸ hkey,halive,heq.symm⟩
      · refine ⟨key',hkey',?_,rfl⟩
        rwa [LivenessState.Alive,hnow] at halive
    · rw [hget]
      split
      · exact ⟨_,rfl,(min_le_right _ _).trans (Nat.le_add_right _ _)⟩
      · exact ⟨key,hkey,min_le_left _ _⟩
    · rw [hget] at hkey
      rw [hnow]
      split at hkey
      · cases hkey
        rcases sinceOf_cases s node with hnew | ⟨key,hkey,-,heq⟩
        · exact hnew.le
        · exact heq.le.trans (h node key hkey)
      · exact h id key hkey

theorem KeysGrow.delete {key : AliveKey} (hkey : s.keys.get? node = some key)
    (hsame : s'.keys = s.keys.set node { key with expiresAt := min key.expiresAt s.nowMs })
    (hnow : s'.nowMs = s.nowMs) : KeysGrow s s' := by
  have hget : ∀ id, s'.keys.get? id = if id = node then
      some { key with expiresAt := min key.expiresAt s.nowMs } else s.keys.get? id := by
    intro id
    rw [hsame]
    exact Record.get?_set s.keys node _ id
  refine ⟨hnow.ge,fun id key' hkey' halive hsince => ?_,fun id old hold => ?_,
    fun h id key' hkey' => ?_⟩
  · rw [hget] at hkey'
    rw [LivenessState.Alive,hnow] at halive
    split at hkey'
    · cases hkey'
      dsimp only at halive
      omega
    · exact ⟨key',hkey',halive,rfl⟩
  · rw [hget]
    split
    · rename_i hid
      rw [hid,hkey] at hold
      cases hold
      exact ⟨_,rfl,le_rfl⟩
    · exact ⟨old,hold,min_le_left _ _⟩
  · rw [hget] at hkey'
    rw [hnow]
    split at hkey'
    · cases hkey'
      exact h node key hkey
    · exact h id key' hkey'

structure AnswerOk (s : LivenessState) (answer : AliveAnswer) : Prop where
  now : answer.answeredAt ≤ s.nowMs
  reliable : answer.result.reliable = true → ∃ list, answer.list = some list ∧
    answer.result.ids = list.ids ∧ ListOk s list ∧ list.fetchedAt ≤ answer.answeredAt ∧
    (answer.fellBack = false → answer.answeredAt < list.fetchedAt+ALIVE_NODE_LIST_CACHE_TTL_MS)
  unreliable : answer.result.reliable = false → answer.result.ids = [] ∧ answer.list = none

theorem AnswerOk.mono {answer : AliveAnswer} (h : AnswerOk s answer) (hgrow : KeysGrow s s') :
    AnswerOk s' answer where
  now := h.now.trans hgrow.now
  reliable hreliable := by
    obtain ⟨list,hlist,hids,hok,hrest⟩ := h.reliable hreliable
    exact ⟨list,hlist,hids,hok.mono hgrow,hrest⟩
  unreliable := h.unreliable

structure ScanOk (s : LivenessState) (scan : AliveScan) : Prop where
  now : scan.startedAt ≤ s.nowMs
  cached : ∀ list ∈ scan.cached, ListOk s list
  seen : ∀ id ∈ scan.seen, ∃ key, s.keys.get? id = some key ∧ scan.startedAt ≤ key.expiresAt

theorem ScanOk.mono {scan : AliveScan} (h : ScanOk s scan) (hgrow : KeysGrow s s') :
    ScanOk s' scan where
  now := h.now.trans hgrow.now
  cached list hlist := (h.cached list hlist).mono hgrow
  seen id hid := by
    obtain ⟨key,hkey,hstarted⟩ := h.seen id hid
    obtain ⟨key',hkey',hmin⟩ := hgrow.kept id key hkey
    have hnow := h.now
    exact ⟨key',hkey',by omega⟩

structure LivenessOk (s : LivenessState) : Prop where
  since : ∀ id key, s.keys.get? id = some key → key.since ≤ s.nowMs
  cache : ∀ list ∈ s.cache, ListOk s list
  scan : ∀ scan ∈ s.inflight, ScanOk s scan
  answers : ∀ c answer, s.lookups c = some (.answered answer) → AnswerOk s answer
  waiting : ∀ c, s.lookups c = some .waiting → s.inflight.isSome

theorem LivenessOk.mono (h : LivenessOk s) (hgrow : KeysGrow s s') (hcache : s'.cache = s.cache)
    (hinflight : s'.inflight = s.inflight) (hlookups : s'.lookups = s.lookups) :
    LivenessOk s' where
  since := hgrow.since h.since
  cache list hlist := (h.cache list (hcache ▸ hlist)).mono hgrow
  scan scan hscan := (h.scan scan (hinflight ▸ hscan)).mono hgrow
  answers c answer hanswer := (h.answers c answer (hlookups ▸ hanswer)).mono hgrow
  waiting c hwaiting := by
    rw [hinflight]
    exact h.waiting c (hlookups ▸ hwaiting)

theorem LivenessOk.settle (h : LivenessOk s) {answer : AliveAnswer} (hanswer : AnswerOk s answer) :
    LivenessOk (s.settle answer) where
  since := h.since
  cache list hlist := (h.cache list hlist).mono (.same_keys le_rfl rfl)
  scan _ hscan := by cases hscan
  answers c found hfound := by
    obtain ⟨lookup,hlookup,heq⟩ := Option.map_eq_some_iff.mp hfound
    cases lookup with
    | waiting =>
      cases heq
      exact hanswer.mono (.same_keys le_rfl rfl)
    | answered old =>
      cases heq
      exact (h.answers c _ hlookup).mono (.same_keys le_rfl rfl)
  waiting c hwaiting := by
    obtain ⟨lookup,-,heq⟩ := Option.map_eq_some_iff.mp hwaiting
    cases lookup <;> cases heq

theorem LivenessOk.setLookup (h : LivenessOk s) (c : ℕ) {lookup : AliveLookup}
    {inflight : Option AliveScan}
    (hlookup : ∀ answer, lookup = .answered answer → AnswerOk s answer)
    (hscan : ∀ scan ∈ inflight, ScanOk s scan)
    (hwaiting : inflight.isSome ∨ lookup ≠ .waiting ∧ inflight = s.inflight) :
    LivenessOk { s.setLookup c lookup with inflight := inflight } where
  since := h.since
  cache list hlist := (h.cache list hlist).mono (.same_keys le_rfl rfl)
  scan scan hmem := (hscan scan hmem).mono (.same_keys le_rfl rfl)
  answers d answer hanswer := by
    have hgrow : KeysGrow s { s.setLookup c lookup with inflight := inflight } :=
      .same_keys le_rfl rfl
    change Function.update s.lookups c (some lookup) d = some (.answered answer) at hanswer
    by_cases hd : d = c
    · rw [hd,Function.update_self] at hanswer
      exact (hlookup answer (Option.some.inj hanswer)).mono hgrow
    · rw [Function.update_of_ne hd] at hanswer
      exact (h.answers d answer hanswer).mono hgrow
  waiting d hd := by
    change Function.update s.lookups c (some lookup) d = some .waiting at hd
    show inflight.isSome
    rcases hwaiting with hsome | ⟨hne,hsame⟩
    · exact hsome
    · by_cases heq : d = c
      · rw [heq,Function.update_self] at hd
        exact absurd (Option.some.inj hd) hne
      · rw [Function.update_of_ne heq] at hd
        rw [hsame]
        exact h.waiting d hd

end Lists

section Steps

variable {s s' : LivenessState} {node : String}

theorem setBeat_keys (s : LivenessState) (node : String) (reached : Bool)
    (beat : Option Heartbeat) : KeysGrow s ((s.touchAppNodeAlive node reached).setBeat node beat) := by
  refine .touch s node reached rfl ?_
  cases reached <;> rfl

theorem LivenessOk.touch (h : LivenessOk s) (node : String) (reached : Bool)
    (beat : Option Heartbeat) :
    LivenessOk ((s.touchAppNodeAlive node reached).setBeat node beat) := by
  cases reached <;> exact h.mono (setBeat_keys s node _ beat) rfl rfl rfl

theorem LivenessOk.list (h : LivenessOk s) (c : ℕ) : LivenessOk (s.listAliveAppNodeIds c) := by
  unfold LivenessState.listAliveAppNodeIds
  split
  · rename_i list hlist
    obtain ⟨hcache,hfresh⟩ := Option.mem_filter_iff.mp hlist
    have hok := h.cache list hcache
    refine h.setLookup c ?_ h.scan (.inr ⟨fun hwaiting => (by cases hwaiting),rfl⟩)
    rintro _ ⟨⟩
    exact ⟨le_rfl,fun _ => ⟨list,rfl,rfl,hok,hok.times.2,fun _ => of_decide_eq_true hfresh⟩,
      fun hunreliable => by cases hunreliable⟩
  · split
    · rename_i scan hscan
      refine h.setLookup c (fun _ hwaiting => by cases hwaiting) h.scan (.inl ?_)
      rw [hscan]
      rfl
    · refine h.setLookup c (fun _ hwaiting => by cases hwaiting) ?_ (.inl rfl)
      rintro _ ⟨⟩
      exact ⟨le_rfl,h.cache,fun id hid => by cases hid⟩

theorem LivenessOk.page (h : LivenessOk s) {scan : AliveScan} (hscan : s.inflight = some scan)
    {ids : List String} (hids : ∀ id ∈ ids, ∃ key ∈ s.keys.get? id, s.Alive key) :
    LivenessOk { s with inflight := some { scan with seen := scan.seen ++ ids } } := by
  have hok := h.scan scan hscan
  have hgrow : KeysGrow s { s with inflight := some { scan with seen := scan.seen ++ ids } } :=
    .same_keys le_rfl rfl
  refine { since := h.since, cache := fun list hlist => (h.cache list hlist).mono hgrow,
           scan := ?_, answers := fun c a ha => (h.answers c a ha).mono hgrow,
           waiting := fun _ _ => rfl }
  rintro _ ⟨⟩
  refine ⟨hok.now,fun list hlist => (hok.cached list hlist).mono hgrow,fun id hid => ?_⟩
  rcases List.mem_append.mp hid with hold | hnew
  · exact hok.seen id hold
  · obtain ⟨key,hkey,halive⟩ := hids id hnew
    have hnow := hok.now
    rw [LivenessState.Alive] at halive
    exact ⟨key,hkey,by dsimp only; omega⟩

theorem LivenessOk.scanned (h : LivenessOk s) {scan : AliveScan} (hscan : s.inflight = some scan)
    (hfull : ∀ entry ∈ s.keys.entries, s.Alive entry.2 → entry.2.since < scan.startedAt →
      entry.1 ∈ scan.seen) :
    LivenessOk { s.settle ⟨⟨scan.seen,true⟩,s.nowMs,some ⟨scan.seen,scan.startedAt,s.nowMs⟩,false⟩
      with cache := some ⟨scan.seen,scan.startedAt,s.nowMs⟩ } := by
  have hok := h.scan scan hscan
  have hlist : ListOk s ⟨scan.seen,scan.startedAt,s.nowMs⟩ := by
    refine ⟨⟨hok.now,le_rfl⟩,fun id key hkey halive hsince => ?_,hok.seen⟩
    exact hfull (id,key) ((Record.get?_eq_some_iff _ _ _).mp hkey) halive hsince
  have hanswer : AnswerOk s
      ⟨⟨scan.seen,true⟩,s.nowMs,some ⟨scan.seen,scan.startedAt,s.nowMs⟩,false⟩ :=
    ⟨le_rfl,fun _ => ⟨_,rfl,rfl,hlist,le_rfl,fun _ => Nat.lt_add_of_pos_right (by decide)⟩,
      fun hunreliable => by cases hunreliable⟩
  have hsettled := h.settle hanswer
  refine { since := h.since, cache := ?_, scan := fun _ hmem => (by cases hmem),
           answers := fun c a ha => (hsettled.answers c a ha).mono (.same_keys le_rfl rfl),
           waiting := hsettled.waiting }
  rintro _ ⟨⟩
  exact hlist.mono (.same_keys le_rfl rfl)

theorem LivenessOk.scanFails (h : LivenessOk s) {scan : AliveScan}
    (hscan : s.inflight = some scan) : LivenessOk (match scan.cached with
      | some list => s.settle ⟨⟨list.ids,true⟩,s.nowMs,some list,true⟩
      | none => s.settle ⟨⟨[],false⟩,s.nowMs,none,true⟩) := by
  have hok := h.scan scan hscan
  cases hcached : scan.cached with
  | some list =>
    have hlist := hok.cached list hcached
    exact h.settle ⟨le_rfl,fun _ => ⟨list,rfl,rfl,hlist,hlist.times.2,fun hback => (by cases hback)⟩,
      fun hunreliable => by cases hunreliable⟩
  | none =>
    exact h.settle ⟨le_rfl,fun hreliable => (by cases hreliable),fun _ => ⟨rfl,rfl⟩⟩

theorem LivenessOk.step (h : LivenessOk s) {a : LivenessAction}
    (hstep : livenessStep s a = some s') : LivenessOk s' := by
  cases a with
  | tick ms =>
    cases hstep
    exact h.mono (.same_keys (Nat.le_add_right _ _) rfl) rfl rfl rfl
  | startAppNodeHeartbeat node reached =>
    obtain ⟨-,hsome⟩ := Option.ite_none_right_eq_some.mp hstep
    cases hsome
    exact h.touch node reached _
  | beat node reached =>
    obtain ⟨heartbeat,-,hstep⟩ := Option.bind_eq_some_iff.mp hstep
    obtain ⟨-,hsome⟩ := Option.ite_none_right_eq_some.mp hstep
    cases hsome
    exact h.touch node reached _
  | crash node =>
    cases hstep
    exact h.mono (.same_keys le_rfl rfl) rfl rfl rfl
  | shutdown node reached =>
    obtain ⟨key,hkey,heq⟩ := Option.map_eq_some_iff.mp hstep
    rw [← heq]
    cases reached with
    | false => exact h.mono (.same_keys le_rfl rfl) rfl rfl rfl
    | true => exact h.mono (.delete hkey rfl rfl) rfl rfl rfl
  | list c =>
    obtain ⟨-,hsome⟩ := Option.ite_none_right_eq_some.mp hstep
    cases hsome
    exact h.list c
  | page ids =>
    obtain ⟨scan,hscan,hstep⟩ := Option.bind_eq_some_iff.mp hstep
    obtain ⟨hids,hsome⟩ := Option.ite_none_right_eq_some.mp hstep
    cases hsome
    exact h.page hscan hids
  | scanned =>
    obtain ⟨scan,hscan,hstep⟩ := Option.bind_eq_some_iff.mp hstep
    obtain ⟨hfull,hsome⟩ := Option.ite_none_right_eq_some.mp hstep
    cases hsome
    exact h.scanned hscan hfull
  | scanFails =>
    obtain ⟨scan,hscan,heq⟩ := Option.map_eq_some_iff.mp hstep
    rw [← heq]
    exact h.scanFails hscan

/-- The key of a healthy node outlasts the next beat, and one more if the last one reached the
store. -/
def BeatOk (node : String) (s : LivenessState) : Prop :=
  ∀ heartbeat ∈ s.beats node, s.nowMs < heartbeat.dueAt+timerSlackMs ∧
    ∃ key, s.keys.get? node = some key ∧ key.since ≤ heartbeat.startedAt ∧
      heartbeat.dueAt+(if heartbeat.missed then timerSlackMs
        else timerSlackMs+timerSlackMs+APP_NODE_HEARTBEAT_INTERVAL_MS) ≤ key.expiresAt

theorem BeatOk.frame (h : BeatOk node s) (hnow : s'.nowMs = s.nowMs)
    (hbeats : s'.beats node = s.beats node) (hkeys : s'.keys.get? node = s.keys.get? node) :
    BeatOk node s' := by
  intro heartbeat hbeat
  rw [hbeats] at hbeat
  rw [hnow,hkeys]
  exact h heartbeat hbeat

theorem BeatOk.none (hbeats : s.beats node = none) : BeatOk node s := by
  intro heartbeat hbeat
  rw [hbeats] at hbeat
  cases hbeat

theorem get?_touch (s : LivenessState) (other : String) (reached : Bool) (hne : node ≠ other) :
    (s.touchAppNodeAlive other reached).keys.get? node = s.keys.get? node := by
  cases reached with
  | false => rfl
  | true =>
    show (s.keys.set other _).get? node = _
    rw [Record.get?_set,if_neg hne]

theorem settle_frame (h : BeatOk node s) (answer : AliveAnswer) : BeatOk node (s.settle answer) :=
  h.frame rfl rfl rfl

theorem BeatOk.step (hok : LivenessOk s) (h : BeatOk node s) {a : LivenessAction}
    (hhealthy : Healthy node s a) (hstep : livenessStep s a = some s') : BeatOk node s' := by
  cases a with
  | tick ms =>
    cases hstep
    intro heartbeat hbeat
    exact ⟨hhealthy heartbeat hbeat,(h heartbeat hbeat).2⟩
  | startAppNodeHeartbeat other reached =>
    obtain ⟨-,hsome⟩ := Option.ite_none_right_eq_some.mp hstep
    cases hsome
    by_cases hne : node = other
    · obtain rfl : reached = true := hhealthy hne.symm
      subst hne
      intro heartbeat hbeat
      change Function.update s.beats node _ node = some heartbeat at hbeat
      rw [Function.update_self] at hbeat
      cases hbeat
      refine ⟨show s.nowMs < _ by simp [APP_NODE_HEARTBEAT_INTERVAL_MS,Nat.add_assoc],_,
        (Record.get?_set s.keys node _ node).trans (if_pos rfl),?_,?_⟩
      · rcases sinceOf_cases s node with hnew | ⟨key,hkey,-,heq⟩
        · exact hnew.le
        · exact heq.le.trans (hok.since node key hkey)
      · dsimp only
        rw [if_neg (by decide),Nat.add_assoc]
        exact Nat.add_le_add_left (by decide) _
    · cases reached <;> exact h.frame rfl (Function.update_of_ne hne _ _) (get?_touch s other _ hne)
  | beat other reached =>
    obtain ⟨heartbeat,hbeat,hstep⟩ := Option.bind_eq_some_iff.mp hstep
    obtain ⟨hdue,hsome⟩ := Option.ite_none_right_eq_some.mp hstep
    cases hsome
    by_cases hne : node = other
    · subst hne
      obtain ⟨hlate,key,hkey,hsince,hlasts⟩ := h heartbeat hbeat
      have halive : s.Alive key := by
        rw [LivenessState.Alive]
        split at hlasts <;> omega
      cases reached with
      | true =>
        intro new hnew
        change Function.update s.beats node _ node = some new at hnew
        rw [Function.update_self] at hnew
        cases hnew
        refine ⟨show s.nowMs < _ by simp [APP_NODE_HEARTBEAT_INTERVAL_MS,Nat.add_assoc],_,
          (Record.get?_set s.keys node _ node).trans (if_pos rfl),?_,?_⟩
        · rw [LivenessState.sinceOf,hkey]
          dsimp only
          rw [if_pos halive]
          exact hsince
        · dsimp only
          rw [if_neg (by decide),Nat.add_assoc]
          exact Nat.add_le_add_left (by decide) _
      | false =>
        have hmissed : heartbeat.missed = false := by
          by_contra hmissed
          have hreached := hhealthy rfl heartbeat hbeat (by simpa using hmissed)
          cases hreached
        rw [hmissed] at hlasts
        intro new hnew
        change Function.update s.beats node _ node = some new at hnew
        rw [Function.update_self] at hnew
        cases hnew
        refine ⟨show s.nowMs < _ by simp [APP_NODE_HEARTBEAT_INTERVAL_MS,Nat.add_assoc],key,hkey,
          hsince,?_⟩
        simp only [Bool.false_eq_true,if_false,Bool.not_false,if_true] at hlasts ⊢
        omega
    · cases reached <;> exact h.frame rfl (Function.update_of_ne hne _ _) (get?_touch s other _ hne)
  | crash other =>
    cases hstep
    by_cases hne : node = other
    · exact .none (hne ▸ Function.update_self ..)
    · exact h.frame rfl (Function.update_of_ne hne _ _) rfl
  | shutdown other reached =>
    obtain ⟨key,hkey,heq⟩ := Option.map_eq_some_iff.mp hstep
    rw [← heq]
    by_cases hne : node = other
    · exact .none (hne ▸ Function.update_self ..)
    · refine h.frame rfl (Function.update_of_ne hne _ _) ?_
      cases reached with
      | false => rfl
      | true => exact (Record.get?_set s.keys other _ node).trans (if_neg hne)
  | list c =>
    obtain ⟨-,hsome⟩ := Option.ite_none_right_eq_some.mp hstep
    cases hsome
    unfold LivenessState.listAliveAppNodeIds
    split
    · exact h.frame rfl rfl rfl
    · split <;> exact h.frame rfl rfl rfl
  | page ids =>
    obtain ⟨scan,hscan,hstep⟩ := Option.bind_eq_some_iff.mp hstep
    obtain ⟨hids,hsome⟩ := Option.ite_none_right_eq_some.mp hstep
    cases hsome
    exact h.frame rfl rfl rfl
  | scanned =>
    obtain ⟨scan,hscan,hstep⟩ := Option.bind_eq_some_iff.mp hstep
    obtain ⟨hfull,hsome⟩ := Option.ite_none_right_eq_some.mp hstep
    cases hsome
    exact h.frame rfl rfl rfl
  | scanFails =>
    obtain ⟨scan,hscan,heq⟩ := Option.map_eq_some_iff.mp hstep
    rw [← heq]
    cases scan.cached with
    | some list => exact settle_frame h _
    | none => exact settle_frame h _

end Steps

section Plans

variable {s : LivenessState}

theorem scanWsPresence_unreliable (self : AppNodeId) (entries : PresenceHash)
    (ids : List String) : (scanWsPresence self entries ids false).rewrites = [] ∧
      (scanWsPresence self entries ids false).staleFields = [] := by
  have hfold : ∀ (fields : List (UserId × PresenceRaw)) (scan : PresenceScan),
      scan.reliable = false → scan.rewrites = [] → scan.staleFields = [] →
      (fields.foldl (scanField (self.id :: ids)) scan).rewrites = [] ∧
        (fields.foldl (scanField (self.id :: ids)) scan).staleFields = [] := by
    intro fields
    induction fields with
    | nil => exact fun _ _ hrewrites hstale => ⟨hrewrites,hstale⟩
    | cons field fields ih =>
      intro scan hreliable hrewrites hstale
      have hfield : (scanField (self.id :: ids) scan field).rewrites = [] ∧
          (scanField (self.id :: ids) scan field).staleFields = [] := by
        simp only [scanField,hreliable]
        split
        · exact ⟨hrewrites,hstale⟩
        · exact ⟨hrewrites,hstale⟩
      exact ih _ ((scanField_reliable scan field).trans hreliable) hfield.1 hfield.2
  exact hfold entries.entries _ rfl rfl rfl

theorem livenessOk_of_reachable (h : livenessSystem.Reachable s) : LivenessOk s := by
  refine h.invariant LivenessOk ?_ fun _ _ _ _ hs hstep => hs.step hstep
  intro s hs
  rw [show s = {} from hs]
  refine ⟨fun id key hkey => ?_,?_,?_,?_,?_⟩
  · rw [Record.get?_empty] at hkey
    cases hkey
  all_goals intro _ hnone
  · cases hnone
  · cases hnone
  · intro hnone
    cases hnone
  · cases hnone

theorem beatOk_of_reachable {node : String}
    (h : (livenessSystem.restrict (Healthy node)).Reachable s) : BeatOk node s := by
  refine h.invariant (BeatOk node) ?_ ?_
  · intro s hs
    rw [show s = {} from hs]
    exact .none rfl
  · intro s a s' hreach hs hstep
    exact hs.step (livenessOk_of_reachable hreach.of_restrict) hstep.1 hstep.2

end Plans

/-- The key of a healthy node is there as long as the node runs. -/
theorem alive_of_healthy {node : String} {s : LivenessState}
    (h : (livenessSystem.restrict (Healthy node)).Reachable s) {heartbeat : Heartbeat}
    (hbeat : heartbeat ∈ s.beats node) : ∃ key, s.keys.get? node = some key ∧ s.Alive key ∧
      key.since ≤ heartbeat.startedAt := by
  obtain ⟨hlate,key,hkey,hsince,hlasts⟩ := beatOk_of_reachable h heartbeat hbeat
  refine ⟨key,hkey,?_,hsince⟩
  rw [LivenessState.Alive]
  split at hlasts <;> omega

def firstNode : AppNodeId := ⟨"7d9e2f40-0000-4000-8000-000000000001",by decide⟩

/-- Two nodes start; one goes silent for longer than its key lasts, and then the nodes are listed. -/
def oneGoesSilent : List LivenessAction :=
  [.startAppNodeHeartbeat firstNode.id true,.startAppNodeHeartbeat "silent" true,.crash "silent",
    .tick 15000,.beat firstNode.id true,.tick 15000,.beat firstNode.id false,.tick 16000,
    .beat firstNode.id true,.list 0,.page [firstNode.id],.list 1,.scanned]

end WebSyncPlay
