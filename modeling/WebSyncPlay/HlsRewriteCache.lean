import WebSyncPlay.Library.RecencyMap
import WebSyncPlay.Library.Segments
import WebSyncPlay.Library.TransitionSystem

/-! The cache of rewritten playlists of one process (`server/media/hls-rewrite-cache.ts`): lookups
and computes of any tokens, one event-loop turn at a time. -/
namespace WebSyncPlay

open Library

def MAX_REWRITE_ENTRIES : ℕ := 256
def HLS_REWRITE_CACHE_TTL_MS : ℕ := 15000

structure RewrittenPlaylist where
  body : String
  contentType : String
  deriving DecidableEq

structure RewriteCacheEntry where
  playlist : RewrittenPlaylist
  expiresAt : ℕ
  deriving DecidableEq

/-- `sha256HexUrlPrefix` is passed in. -/
def rewriteCacheKey (urlHash : String → String) (token upstreamUrl : String) : String :=
  token ++ ":" ++ urlHash upstreamUrl

inductive ComputePhase
  | computing
  /-- Stored, at a moment; the `finally` has still to run. -/
  | stored (at_ : ℕ) (playlist : RewrittenPlaylist)
  | rejected
  | finished (at_ : ℕ) (outcome : Option (ℕ × RewrittenPlaylist))
  deriving DecidableEq

namespace ComputePhase

def outcome? : ComputePhase → Option (ℕ × RewrittenPlaylist)
  | .stored at_ playlist => some (at_,playlist)
  | .finished _ outcome => outcome
  | _ => none

def isOpen : ComputePhase → Bool
  | .finished _ _ => false
  | _ => true

end ComputePhase

structure RewriteCompute where
  token : String
  upstreamUrl : String
  phase : ComputePhase
  deriving DecidableEq

/-- What a lookup found at once, or the compute that it waits for. -/
inductive RewriteSource
  | missed
  | hit (entry : RewriteCacheEntry)
  | awaiting (w : ℕ)
  deriving DecidableEq

structure RewriteLookup where
  token : String
  upstreamUrl : String
  began : ℕ
  source : RewriteSource
  deriving DecidableEq

structure ServedPlaylist where
  playlist : RewrittenPlaylist
  cacheHit : Bool
  deriving DecidableEq

/-- A compute has the name of the lookup that started it. The history of the touches is kept
besides. -/
structure RewriteState where
  nowMs : ℕ := 0
  cache : RecencyMap String RewriteCacheEntry MAX_REWRITE_ENTRIES := .empty
  inflight : String → Option ℕ := fun _ => none
  computes : ℕ → Option RewriteCompute := fun _ => none
  lookups : ℕ → Option RewriteLookup := fun _ => none
  touches : List (String × RewriteCacheEntry) := []

namespace RewriteState

def touch (s : RewriteState) (key : String) (entry : RewriteCacheEntry) : RewriteState :=
  { s with cache := s.cache.touch key entry, touches := s.touches ++ [(key,entry)] }

/-- An entry that is there and has not expired. -/
def hit (s : RewriteState) (key : String) : Option RewriteCacheEntry :=
  (s.cache.get? key).filter fun entry => decide (s.nowMs < entry.expiresAt)

def setLookup (s : RewriteState) (c : ℕ) (token upstreamUrl : String) (source : RewriteSource) :
    RewriteState :=
  { s with lookups := Function.update s.lookups c (some ⟨token,upstreamUrl,s.nowMs,source⟩) }

def setCompute (s : RewriteState) (w : ℕ) (compute : RewriteCompute) : RewriteState :=
  { s with computes := Function.update s.computes w (some compute) }

def setInflight (s : RewriteState) (key : String) (work : Option ℕ) : RewriteState :=
  { s with inflight := Function.update s.inflight key work }

def served (s : RewriteState) (c : ℕ) : Option ServedPlaylist :=
  (s.lookups c).bind fun lookup =>
    match lookup.source with
    | .missed => none
    | .hit entry => some ⟨entry.playlist,true⟩
    | .awaiting w =>
      (s.computes w).bind fun compute =>
        match compute.phase with
        | .finished _ (some (_,playlist)) => some ⟨playlist,decide (w ≠ c)⟩
        | _ => none

end RewriteState

inductive RewriteAction
  | tick (ms : ℕ)
  | peek (c : ℕ) (token upstreamUrl : String)
  | getOrCompute (c : ℕ) (token upstreamUrl : String)
  | computed (w : ℕ) (playlist : RewrittenPlaylist)
  | rejected (w : ℕ)
  | settled (w : ℕ)

section Step

variable (urlHash : String → String)

def RewriteCompute.key (compute : RewriteCompute) : String :=
  rewriteCacheKey urlHash compute.token compute.upstreamUrl

def peekHlsRewriteCache (s : RewriteState) (c : ℕ) (token upstreamUrl : String) : RewriteState :=
  let key := rewriteCacheKey urlHash token upstreamUrl
  match s.hit key with
  | none => s.setLookup c token upstreamUrl .missed
  | some entry => (s.touch key entry).setLookup c token upstreamUrl (.hit entry)

def getOrComputeHlsRewrite (s : RewriteState) (c : ℕ) (token upstreamUrl : String) :
    RewriteState :=
  let key := rewriteCacheKey urlHash token upstreamUrl
  match s.hit key with
  | some entry => (s.touch key entry).setLookup c token upstreamUrl (.hit entry)
  | none =>
    match s.inflight key with
    | some pending => s.setLookup c token upstreamUrl (.awaiting pending)
    | none =>
      ((s.setCompute c ⟨token,upstreamUrl,.computing⟩).setInflight key (some c)).setLookup c token
        upstreamUrl (.awaiting c)

/-- The end of a compute, its touch of the cache included. -/
def storeComputed (s : RewriteState) (w : ℕ) (compute : RewriteCompute)
    (playlist : RewrittenPlaylist) : RewriteState :=
  (s.touch (compute.key urlHash) ⟨playlist,s.nowMs+HLS_REWRITE_CACHE_TTL_MS⟩).setCompute w
    { compute with phase := .stored s.nowMs playlist }

/-- The `finally`: whatever is in flight under the key is forgotten. -/
def settleCompute (s : RewriteState) (w : ℕ) (compute : RewriteCompute)
    (outcome : Option (ℕ × RewrittenPlaylist)) : RewriteState :=
  (s.setCompute w { compute with phase := .finished s.nowMs outcome }).setInflight
    (compute.key urlHash) none

def rewriteStep (s : RewriteState) : RewriteAction → Option RewriteState
  | .tick ms => some { s with nowMs := s.nowMs+ms }
  | .peek c token upstreamUrl =>
    if s.lookups c = none then some (peekHlsRewriteCache urlHash s c token upstreamUrl) else none
  | .getOrCompute c token upstreamUrl =>
    if s.lookups c = none then some (getOrComputeHlsRewrite urlHash s c token upstreamUrl)
    else none
  | .computed w playlist =>
    (s.computes w).bind fun compute =>
      if compute.phase = .computing then some (storeComputed urlHash s w compute playlist) else none
  | .rejected w =>
    (s.computes w).bind fun compute =>
      if compute.phase = .computing then some (s.setCompute w { compute with phase := .rejected })
      else none
  | .settled w =>
    (s.computes w).bind fun compute =>
      match compute.phase with
      | .stored at_ playlist =>
        some (settleCompute urlHash s w compute (some (at_,playlist)))
      | .rejected =>
        some (settleCompute urlHash s w compute none)
      | _ => none

def rewriteSystem : TransitionSystem RewriteState RewriteAction where
  init s := s = {}
  step s a s' := rewriteStep urlHash s a = some s'

end Step

namespace RewriteState

variable (urlHash : String → String)

/-- A playlist that a compute for the key made at a moment. -/
def Made (s : RewriteState) (key : String) (at_ : ℕ) (playlist : RewrittenPlaylist) : Prop :=
  ∃ w compute, s.computes w = some compute ∧ compute.key urlHash = key ∧
    compute.phase.outcome? = some (at_,playlist)

end RewriteState

def SourceOk (urlHash : String → String) (s : RewriteState) (lookup : RewriteLookup) : Prop :=
  match lookup.source with
  | .missed => True
  | .hit entry => ∃ at_, s.Made urlHash (rewriteCacheKey urlHash lookup.token lookup.upstreamUrl)
      at_ entry.playlist ∧ lookup.began < at_+HLS_REWRITE_CACHE_TTL_MS
  | .awaiting w => ∃ compute, s.computes w = some compute ∧
      compute.key urlHash = rewriteCacheKey urlHash lookup.token lookup.upstreamUrl ∧
      ∀ at_ outcome, compute.phase = .finished at_ outcome → lookup.began ≤ at_

structure RewriteInvariant (urlHash : String → String) (s : RewriteState) : Prop where
  recent : s.cache.Holds s.touches
  made : ∀ key entry, (key,entry) ∈ s.touches → ∃ at_, s.Made urlHash key at_ entry.playlist ∧
    entry.expiresAt = at_+HLS_REWRITE_CACHE_TTL_MS
  flying : ∀ key w, s.inflight key = some w ↔
    ∃ compute, s.computes w = some compute ∧ compute.key urlHash = key ∧
      compute.phase.isOpen = true
  named : ∀ w compute, s.computes w = some compute → ∃ lookup, s.lookups w = some lookup
  sources : ∀ c lookup, s.lookups c = some lookup →
    lookup.began ≤ s.nowMs ∧ SourceOk urlHash s lookup

section Lemmas

variable {urlHash : String → String} {s : RewriteState}

theorem lookups_setLookup {c d : ℕ} {token upstreamUrl : String} {source : RewriteSource}
    {lookup : RewriteLookup} :
    (s.setLookup c token upstreamUrl source).lookups d = some lookup ↔
      d = c ∧ lookup = ⟨token,upstreamUrl,s.nowMs,source⟩ ∨ d ≠ c ∧ s.lookups d = some lookup := by
  by_cases hd : d = c
  · subst hd
    simp [RewriteState.setLookup,eq_comm]
  · simp [RewriteState.setLookup,hd]

theorem computes_setCompute {w v : ℕ} {compute compute' : RewriteCompute} :
    (s.setCompute w compute).computes v = some compute' ↔
      v = w ∧ compute' = compute ∨ v ≠ w ∧ s.computes v = some compute' := by
  by_cases hv : v = w
  · subst hv
    simp [RewriteState.setCompute,eq_comm]
  · simp [RewriteState.setCompute,hv]

theorem inflight_setInflight {key key' : String} {work : Option ℕ} :
    (s.setInflight key work).inflight key' = if key' = key then work else s.inflight key' := by
  simp [RewriteState.setInflight,Function.update_apply]

/-- Each compute goes on under its name, keeps what it has made, and ends after a moment. -/
def Grown (urlHash : String → String) (moment : ℕ) (s s' : RewriteState) : Prop :=
  ∀ w compute, s.computes w = some compute → ∃ compute', s'.computes w = some compute' ∧
    compute'.key urlHash = compute.key urlHash ∧
    (∀ o, compute.phase.outcome? = some o → compute'.phase.outcome? = some o) ∧
    ∀ at_ outcome, compute'.phase = .finished at_ outcome →
      compute.phase = .finished at_ outcome ∨ moment ≤ at_

theorem Grown.made {moment : ℕ} {s' : RewriteState} (hgrown : Grown urlHash moment s s')
    {key : String} {at_ : ℕ} {playlist : RewrittenPlaylist} (h : s.Made urlHash key at_ playlist) :
    s'.Made urlHash key at_ playlist := by
  obtain ⟨w,compute,hw,hkey,hout⟩ := h
  obtain ⟨compute',hw',hkey',hout',-⟩ := hgrown w compute hw
  exact ⟨w,compute',hw',hkey'.trans hkey,hout' _ hout⟩

theorem Grown.sourceOk {moment : ℕ} {s' : RewriteState} (hgrown : Grown urlHash moment s s')
    {lookup : RewriteLookup} (hbegan : lookup.began ≤ moment) (h : SourceOk urlHash s lookup) :
    SourceOk urlHash s' lookup := by
  unfold SourceOk at h ⊢
  cases hsource : lookup.source with
  | missed => trivial
  | hit entry =>
    rw [hsource] at h
    obtain ⟨at_,hmade,hlt⟩ := h
    exact ⟨at_,hgrown.made hmade,hlt⟩
  | awaiting w =>
    rw [hsource] at h
    obtain ⟨compute,hw,hkey,hend⟩ := h
    obtain ⟨compute',hw',hkey',-,hend'⟩ := hgrown w compute hw
    refine ⟨compute',hw',hkey'.trans hkey,fun at_ outcome hfinished => ?_⟩
    rcases hend' at_ outcome hfinished with hold | hle
    · exact hend at_ outcome hold
    · exact hbegan.trans hle

theorem grown_of_new {c : ℕ} (hnew : s.computes c = none) (compute : RewriteCompute) :
    Grown urlHash s.nowMs s (s.setCompute c compute) := by
  intro w found hw
  have hwc : w ≠ c := by
    intro heq
    simp [heq,hnew] at hw
  exact ⟨found,computes_setCompute.mpr (.inr ⟨hwc,hw⟩),rfl,fun o ho => ho,
    fun at_ outcome hfinished => .inl hfinished⟩

theorem grown_of_phase {w : ℕ} {compute : RewriteCompute} (hw : s.computes w = some compute)
    {phase : ComputePhase}
    (hout : ∀ o, compute.phase.outcome? = some o → phase.outcome? = some o)
    (hend : ∀ at_ outcome, phase = .finished at_ outcome → s.nowMs ≤ at_) :
    Grown urlHash s.nowMs s (s.setCompute w { compute with phase := phase }) := by
  intro v found hv
  by_cases hvw : v = w
  · subst hvw
    have hsame : found = compute := Option.some.inj (hv.symm.trans hw)
    subst hsame
    exact ⟨_,computes_setCompute.mpr (.inl ⟨rfl,rfl⟩),rfl,hout,
      fun at_ outcome hfinished => .inr (hend at_ outcome hfinished)⟩
  · exact ⟨found,computes_setCompute.mpr (.inr ⟨hvw,hv⟩),rfl,fun o ho => ho,
      fun at_ outcome hfinished => .inl hfinished⟩

end Lemmas

namespace RewriteInvariant

variable {urlHash : String → String} {s s' : RewriteState}

theorem start : RewriteInvariant urlHash {} where
  recent := RecencyMap.holds_empty
  made key entry h := by simp at h
  flying key w := by simp
  named w compute h := by simp at h
  sources c lookup h := by simp at h

theorem tick (h : RewriteInvariant urlHash s) (ms : ℕ) :
    RewriteInvariant urlHash { s with nowMs := s.nowMs+ms } where
  recent := h.recent
  made := h.made
  flying := h.flying
  named := h.named
  sources c lookup hc := by
    have hold := h.sources c lookup hc
    exact ⟨hold.1.trans (Nat.le_add_right _ _),hold.2⟩

theorem touch (h : RewriteInvariant urlHash s) {key : String} {entry : RewriteCacheEntry} {at_ : ℕ}
    (hmade : s.Made urlHash key at_ entry.playlist)
    (hexpires : entry.expiresAt = at_+HLS_REWRITE_CACHE_TTL_MS) :
    RewriteInvariant urlHash (s.touch key entry) where
  recent := h.recent.touch key entry
  made key' entry' hmem := by
    rcases List.mem_append.mp hmem with hold | hnew
    · exact h.made key' entry' hold
    · simp only [List.mem_singleton,Prod.mk.injEq] at hnew
      rw [hnew.1,hnew.2]
      exact ⟨at_,hmade,hexpires⟩
  flying := h.flying
  named := h.named
  sources := h.sources

theorem setLookup (h : RewriteInvariant urlHash s) {c : ℕ} {token upstreamUrl : String}
    {source : RewriteSource} (hok : SourceOk urlHash s ⟨token,upstreamUrl,s.nowMs,source⟩) :
    RewriteInvariant urlHash (s.setLookup c token upstreamUrl source) where
  recent := h.recent
  made := h.made
  flying := h.flying
  named w compute hw := by
    by_cases hwc : w = c
    · exact ⟨_,lookups_setLookup.mpr (.inl ⟨hwc,rfl⟩)⟩
    · obtain ⟨lookup,hlookup⟩ := h.named w compute hw
      exact ⟨lookup,lookups_setLookup.mpr (.inr ⟨hwc,hlookup⟩)⟩
  sources d lookup hd := by
    rcases lookups_setLookup.mp hd with ⟨-,rfl⟩ | ⟨-,hold⟩
    · exact ⟨le_refl _,hok⟩
    · exact h.sources d lookup hold

theorem hit (h : RewriteInvariant urlHash s) {c : ℕ} {token upstreamUrl : String} {entry : RewriteCacheEntry}
    (hhit : s.hit (rewriteCacheKey urlHash token upstreamUrl) = some entry) :
    RewriteInvariant urlHash ((s.touch (rewriteCacheKey urlHash token upstreamUrl) entry).setLookup c
      token upstreamUrl (.hit entry)) := by
  obtain ⟨hget,hlive⟩ := Option.filter_eq_some_iff.mp hhit
  have hmem : (rewriteCacheKey urlHash token upstreamUrl,entry) ∈ s.touches := by
    have hentry := (RecencyMap.get?_eq_some_iff _ _ _).mp hget
    rw [show s.cache.entries = youngest _ (latest s.touches) from h.recent] at hentry
    exact (latest_sublist _).mem ((youngest_sublist _ _).mem hentry)
  obtain ⟨at_,hmade,hexpires⟩ := h.made _ _ hmem
  have hlt : s.nowMs < entry.expiresAt := by simpa using hlive
  have htouched := h.touch hmade hexpires
  refine htouched.setLookup ⟨at_,hmade,?_⟩
  rwa [← hexpires]

theorem join (h : RewriteInvariant urlHash s) {c w : ℕ} {token upstreamUrl : String}
    (hflight : s.inflight (rewriteCacheKey urlHash token upstreamUrl) = some w) :
    RewriteInvariant urlHash (s.setLookup c token upstreamUrl (.awaiting w)) := by
  obtain ⟨compute,hw,hkey,hopen⟩ := (h.flying _ _).mp hflight
  refine h.setLookup ⟨compute,hw,hkey,?_⟩
  intro at_ outcome hfinished
  simp [hfinished,ComputePhase.isOpen] at hopen

theorem startCompute (h : RewriteInvariant urlHash s) {c : ℕ} (hc : s.lookups c = none)
    {token upstreamUrl : String}
    (hflight : s.inflight (rewriteCacheKey urlHash token upstreamUrl) = none) :
    RewriteInvariant urlHash
      (((s.setCompute c ⟨token,upstreamUrl,.computing⟩).setInflight
        (rewriteCacheKey urlHash token upstreamUrl) (some c)).setLookup c token upstreamUrl
          (.awaiting c)) := by
  have hnew : s.computes c = none := by
    by_contra hne
    obtain ⟨compute,hcompute⟩ := Option.ne_none_iff_exists'.mp hne
    obtain ⟨lookup,hlookup⟩ := h.named c compute hcompute
    simp [hc] at hlookup
  have hgrown : Grown urlHash s.nowMs s (s.setCompute c ⟨token,upstreamUrl,.computing⟩) :=
    grown_of_new hnew _
  constructor
  case recent => exact h.recent
  case made =>
    intro key entry hmem
    obtain ⟨at_,hmade,hexpires⟩ := h.made key entry hmem
    exact ⟨at_,hgrown.made hmade,hexpires⟩
  case flying =>
    intro key w
    show (_ = some w) ↔ ∃ compute, (s.setCompute c _).computes w = some compute ∧ _
    rw [show (RewriteState.setLookup _ c token upstreamUrl (.awaiting c)).inflight key =
      (RewriteState.setInflight (s.setCompute c _) _ (some c)).inflight key from rfl,
      inflight_setInflight]
    by_cases hkey : key = rewriteCacheKey urlHash token upstreamUrl
    · rw [if_pos hkey]
      constructor
      · intro hw
        cases hw
        exact ⟨_,computes_setCompute.mpr (.inl ⟨rfl,rfl⟩),hkey.symm,rfl⟩
      · intro hw
        obtain ⟨compute,hw,hrest⟩ := hw
        rcases computes_setCompute.mp hw with ⟨rfl,-⟩ | ⟨-,hold⟩
        · rfl
        · have hflying := (h.flying key w).mpr ⟨compute,hold,hrest⟩
          simp [hkey,hflight] at hflying
    · rw [if_neg hkey]
      constructor
      · intro hw
        obtain ⟨compute,hw,hrest⟩ := (h.flying key w).mp hw
        have hwc : w ≠ c := by
          intro heq
          simp [heq,hnew] at hw
        exact ⟨compute,computes_setCompute.mpr (.inr ⟨hwc,hw⟩),hrest⟩
      · intro hw
        obtain ⟨compute,hw,hcompute,hopen⟩ := hw
        rcases computes_setCompute.mp hw with ⟨-,rfl⟩ | ⟨-,hold⟩
        · exact absurd hcompute.symm hkey
        · exact (h.flying key w).mpr ⟨compute,hold,hcompute,hopen⟩
  case named =>
    intro w compute hw
    rcases computes_setCompute.mp hw with ⟨rfl,-⟩ | ⟨hwc,hold⟩
    · exact ⟨_,lookups_setLookup.mpr (.inl ⟨rfl,rfl⟩)⟩
    · obtain ⟨lookup,hlookup⟩ := h.named w compute hold
      exact ⟨lookup,lookups_setLookup.mpr (.inr ⟨hwc,hlookup⟩)⟩
  case sources =>
    intro d lookup hd
    rcases lookups_setLookup.mp hd with ⟨-,rfl⟩ | ⟨-,hold⟩
    · refine ⟨le_refl _,_,computes_setCompute.mpr (.inl ⟨rfl,rfl⟩),rfl,?_⟩
      intro at_ outcome hfinished
      simp at hfinished
    · obtain ⟨hbegan,hok⟩ := h.sources d lookup hold
      exact ⟨hbegan,hgrown.sourceOk hbegan hok⟩

theorem setPhase (h : RewriteInvariant urlHash s) {w : ℕ} {compute : RewriteCompute}
    (hw : s.computes w = some compute) (phase : ComputePhase)
    (hcomputing : compute.phase = .computing) (hopen : phase.isOpen = true) :
    RewriteInvariant urlHash (s.setCompute w { compute with phase := phase }) := by
  have hgrown : Grown urlHash s.nowMs s (s.setCompute w { compute with phase := phase }) := by
    apply grown_of_phase hw
    · intro o ho
      simp [hcomputing,ComputePhase.outcome?] at ho
    · intro at_ outcome hfinished
      simp [hfinished,ComputePhase.isOpen] at hopen
  constructor
  case recent => exact h.recent
  case made =>
    intro key entry hmem
    obtain ⟨at_,hmade,hexpires⟩ := h.made key entry hmem
    exact ⟨at_,hgrown.made hmade,hexpires⟩
  case flying =>
    intro key v
    refine (h.flying key v).trans ⟨fun hv => ?_,fun hv => ?_⟩
    · obtain ⟨found,hv,hkey,hfound⟩ := hv
      by_cases hvw : v = w
      · subst hvw
        have hsame : found = compute := Option.some.inj (hv.symm.trans hw)
        subst hsame
        exact ⟨_,computes_setCompute.mpr (.inl ⟨rfl,rfl⟩),hkey,hopen⟩
      · exact ⟨found,computes_setCompute.mpr (.inr ⟨hvw,hv⟩),hkey,hfound⟩
    · obtain ⟨found,hv,hkey,hfound⟩ := hv
      rcases computes_setCompute.mp hv with ⟨rfl,rfl⟩ | ⟨-,hold⟩
      · exact ⟨compute,hw,hkey,by rw [hcomputing]; rfl⟩
      · exact ⟨found,hold,hkey,hfound⟩
  case named =>
    intro v found hv
    rcases computes_setCompute.mp hv with ⟨rfl,-⟩ | ⟨-,hold⟩
    · exact h.named v compute hw
    · exact h.named v found hold
  case sources =>
    intro d lookup hd
    obtain ⟨hbegan,hok⟩ := h.sources d lookup hd
    exact ⟨hbegan,hgrown.sourceOk hbegan hok⟩

theorem settleCompute (h : RewriteInvariant urlHash s) {w : ℕ} {compute : RewriteCompute}
    (hw : s.computes w = some compute) (hopen : compute.phase.isOpen = true)
    {outcome : Option (ℕ × RewrittenPlaylist)} (hout : compute.phase.outcome? = outcome) :
    RewriteInvariant urlHash (WebSyncPlay.settleCompute urlHash s w compute outcome) := by
  have hgrown : Grown urlHash s.nowMs s
      (s.setCompute w { compute with phase := .finished s.nowMs outcome }) := by
    apply grown_of_phase hw
    · intro o ho
      rwa [hout] at ho
    · intro at_ found hfinished
      cases hfinished
      exact le_refl _
  have hflying := (h.flying (compute.key urlHash) w).mpr ⟨compute,hw,rfl,hopen⟩
  constructor
  case recent => exact h.recent
  case made =>
    intro key entry hmem
    obtain ⟨at_,hmade,hexpires⟩ := h.made key entry hmem
    exact ⟨at_,hgrown.made hmade,hexpires⟩
  case flying =>
    intro key v
    show (RewriteState.setInflight (s.setCompute w _) _ none).inflight key = some v ↔
      ∃ found, (s.setCompute w _).computes v = some found ∧ _
    rw [inflight_setInflight]
    by_cases hkey : key = compute.key urlHash
    · rw [if_pos hkey]
      constructor
      · intro hv
        cases hv
      · intro hv
        obtain ⟨found,hv,hfound,hstill⟩ := hv
        rcases computes_setCompute.mp hv with ⟨-,rfl⟩ | ⟨hvw,hold⟩
        · simp [ComputePhase.isOpen] at hstill
        · have hother := (h.flying key v).mpr ⟨found,hold,hfound,hstill⟩
          rw [hkey] at hother
          exact absurd (Option.some.inj (hother.symm.trans hflying)) hvw
    · rw [if_neg hkey]
      refine (h.flying key v).trans ⟨fun hv => ?_,fun hv => ?_⟩
      · obtain ⟨found,hv,hfound,hstill⟩ := hv
        have hvw : v ≠ w := by
          intro heq
          subst heq
          have hsame : found = compute := Option.some.inj (hv.symm.trans hw)
          exact hkey (hfound.symm.trans (congrArg _ hsame))
        exact ⟨found,computes_setCompute.mpr (.inr ⟨hvw,hv⟩),hfound,hstill⟩
      · obtain ⟨found,hv,hfound,hstill⟩ := hv
        rcases computes_setCompute.mp hv with ⟨-,rfl⟩ | ⟨-,hold⟩
        · simp [ComputePhase.isOpen] at hstill
        · exact ⟨found,hold,hfound,hstill⟩
  case named =>
    intro v found hv
    rcases computes_setCompute.mp hv with ⟨rfl,-⟩ | ⟨-,hold⟩
    · exact h.named v compute hw
    · exact h.named v found hold
  case sources =>
    intro d lookup hd
    obtain ⟨hbegan,hok⟩ := h.sources d lookup hd
    exact ⟨hbegan,hgrown.sourceOk hbegan hok⟩

theorem storeComputed (h : RewriteInvariant urlHash s) {w : ℕ} {compute : RewriteCompute}
    (hw : s.computes w = some compute) (hcomputing : compute.phase = .computing)
    (playlist : RewrittenPlaylist) :
    RewriteInvariant urlHash (WebSyncPlay.storeComputed urlHash s w compute playlist) := by
  have hstored := h.setPhase hw (.stored s.nowMs playlist) hcomputing rfl
  exact hstored.touch ⟨w,_,computes_setCompute.mpr (.inl ⟨rfl,rfl⟩),rfl,rfl⟩ rfl

theorem step (h : RewriteInvariant urlHash s) {a : RewriteAction}
    (hs : rewriteStep urlHash s a = some s') : RewriteInvariant urlHash s' := by
  cases a with
  | tick ms =>
    cases hs
    exact h.tick ms
  | peek c token upstreamUrl =>
    obtain ⟨hc,hs⟩ := Option.ite_none_right_eq_some.mp hs
    cases hs
    cases hhit : s.hit (rewriteCacheKey urlHash token upstreamUrl) with
    | none =>
      simp only [peekHlsRewriteCache,hhit]
      exact h.setLookup trivial
    | some entry =>
      simp only [peekHlsRewriteCache,hhit]
      exact h.hit hhit
  | getOrCompute c token upstreamUrl =>
    obtain ⟨hc,hs⟩ := Option.ite_none_right_eq_some.mp hs
    cases hs
    cases hhit : s.hit (rewriteCacheKey urlHash token upstreamUrl) with
    | some entry =>
      simp only [getOrComputeHlsRewrite,hhit]
      exact h.hit hhit
    | none =>
      cases hflight : s.inflight (rewriteCacheKey urlHash token upstreamUrl) with
      | some pending =>
        simp only [getOrComputeHlsRewrite,hhit,hflight]
        exact h.join hflight
      | none =>
        simp only [getOrComputeHlsRewrite,hhit,hflight]
        exact h.startCompute hc hflight
  | computed w playlist =>
    obtain ⟨compute,hw,hs⟩ := Option.bind_eq_some_iff.mp hs
    obtain ⟨hcomputing,hs⟩ := Option.ite_none_right_eq_some.mp hs
    cases hs
    exact h.storeComputed hw hcomputing playlist
  | rejected w =>
    obtain ⟨compute,hw,hs⟩ := Option.bind_eq_some_iff.mp hs
    obtain ⟨hcomputing,hs⟩ := Option.ite_none_right_eq_some.mp hs
    cases hs
    exact h.setPhase hw _ hcomputing rfl
  | settled w =>
    obtain ⟨compute,hw,hs⟩ := Option.bind_eq_some_iff.mp hs
    cases hphase : compute.phase with
    | computing => simp [hphase] at hs
    | finished at_ outcome => simp [hphase] at hs
    | stored at_ playlist =>
      simp only [hphase,Option.some.injEq] at hs
      subst hs
      exact h.settleCompute hw (by rw [hphase]; rfl) (by rw [hphase]; rfl)
    | rejected =>
      simp only [hphase,Option.some.injEq] at hs
      subst hs
      exact h.settleCompute hw (by rw [hphase]; rfl) (by rw [hphase]; rfl)

theorem of_reachable (h : (rewriteSystem urlHash).Reachable s) : RewriteInvariant urlHash s := by
  refine h.invariant (RewriteInvariant urlHash) ?_ fun s a s' _ hs hstep => hs.step hstep
  intro s hs
  cases hs
  exact start

end RewriteInvariant

section Main

variable {urlHash : String → String} {s : RewriteState}

/-- A digest has no colon, so a key names its token and its digest. -/
theorem rewriteCacheKey_inj (hhash : ∀ url, ':' ∉ (urlHash url).toList)
    {token token' url url' : String}
    (h : rewriteCacheKey urlHash token url = rewriteCacheKey urlHash token' url') :
    token = token' ∧ urlHash url = urlHash url' := by
  have hlists : token.toList ++ ':' :: (urlHash url).toList =
      token'.toList ++ ':' :: (urlHash url').toList := by
    simpa [rewriteCacheKey,String.toList_append] using congrArg String.toList h
  rcases join_eq_join_iff.mp hlists with ⟨htoken,hurl⟩ | ⟨x,-,hurl⟩ | ⟨x,-,hurl⟩
  · exact ⟨String.toList_inj.mp htoken,String.toList_inj.mp hurl⟩
  · exact absurd (hurl ▸ List.mem_append_right x List.mem_cons_self) (hhash url)
  · exact absurd (hurl ▸ List.mem_append_right x List.mem_cons_self) (hhash url')

/-- What a lookup returns was computed for its token and URL: less than the time to live before
the lookup, or by a compute that the lookup waited for. -/
theorem RewriteInvariant.served (h : RewriteInvariant urlHash s) {c : ℕ} {lookup : RewriteLookup}
    {served : ServedPlaylist} (hc : s.lookups c = some lookup) (hserved : s.served c = some served) :
    ∃ w compute at_, s.computes w = some compute ∧
      compute.key urlHash = rewriteCacheKey urlHash lookup.token lookup.upstreamUrl ∧
      compute.phase.outcome? = some (at_,served.playlist) ∧
      (lookup.began < at_+HLS_REWRITE_CACHE_TTL_MS ∨
        ∃ ended, compute.phase = .finished ended (some (at_,served.playlist)) ∧
          lookup.began ≤ ended) := by
  have hok := (h.sources c lookup hc).2
  unfold SourceOk at hok
  rw [RewriteState.served,hc,Option.bind_some] at hserved
  cases hsource : lookup.source with
  | missed => simp [hsource] at hserved
  | hit entry =>
    simp only [hsource,Option.some.injEq] at hserved
    subst hserved
    rw [hsource] at hok
    obtain ⟨at_,⟨w,compute,hw,hkey,hout⟩,hlt⟩ := hok
    exact ⟨w,compute,at_,hw,hkey,hout,.inl hlt⟩
  | awaiting w =>
    rw [hsource] at hok
    obtain ⟨compute,hw,hkey,hend⟩ := hok
    simp only [hsource,hw,Option.bind_some] at hserved
    split at hserved
    · rename_i ended at_ playlist hphase
      cases hserved
      exact ⟨w,compute,at_,hw,hkey,by rw [hphase]; rfl,.inr ⟨ended,hphase,hend ended _ hphase⟩⟩
    · cases hserved

/-- The rewrite cache over every run: the 256 entries touched last; each playlist served was
computed for the same token and URL, within the time to live or while the lookup waited; and no two
computes of one key at a time. -/
theorem hls_rewrite_cache (hhash : ∀ url, ':' ∉ (urlHash url).toList)
    (h : (rewriteSystem urlHash).Reachable s) :
    (∀ old young key entry, s.touches = old ++ (key,entry) :: young →
      key ∉ young.map Prod.fst →
      (s.cache.get? key = some entry ↔ (latest young).length < MAX_REWRITE_ENTRIES)) ∧
    (∀ c lookup served, s.lookups c = some lookup → s.served c = some served →
      ∃ w compute at_, s.computes w = some compute ∧ compute.token = lookup.token ∧
        urlHash compute.upstreamUrl = urlHash lookup.upstreamUrl ∧
        compute.phase.outcome? = some (at_,served.playlist) ∧
        (lookup.began < at_+HLS_REWRITE_CACHE_TTL_MS ∨
          ∃ ended, compute.phase = .finished ended (some (at_,served.playlist)) ∧
            lookup.began ≤ ended)) ∧
    ∀ w w' compute compute', s.computes w = some compute → s.computes w' = some compute' →
      compute.phase.isOpen = true → compute'.phase.isOpen = true →
      compute.key urlHash = compute'.key urlHash → w = w' := by
  have hinv := RewriteInvariant.of_reachable h
  refine ⟨?_,?_,?_⟩
  · intro old young key entry htouches hlast
    rw [RecencyMap.get?_eq_some_iff]
    have hholds : s.cache.Holds (old ++ (key,entry) :: young) := htouches ▸ hinv.recent
    exact hholds.mem_entries_iff hlast
  · intro c lookup served hc hserved
    obtain ⟨w,compute,at_,hw,hkey,hrest⟩ := hinv.served hc hserved
    obtain ⟨htoken,hurl⟩ := rewriteCacheKey_inj hhash hkey
    exact ⟨w,compute,at_,hw,htoken,hurl,hrest⟩
  · intro w w' compute compute' hw hw' hopen hopen' hkey
    have hflight := (hinv.flying _ w).mpr ⟨compute,hw,hkey,hopen⟩
    have hflight' := (hinv.flying _ w').mpr ⟨compute',hw',rfl,hopen'⟩
    exact Option.some.inj (hflight.symm.trans hflight')

/-- The first half of the SHA-256 digest of the one URL. -/
def liveDigest : String → String := fun _ => "6b4829a5e3994f0d"

/-- Two lookups at once: one compute, and the second gets what the first computed. -/
theorem hls_rewrite_cache_of_two_lookups : ∃ s, (rewriteSystem liveDigest).Reachable s ∧
    s.served 1 = some ⟨⟨"#EXTM3U","application/vnd.apple.mpegurl; charset=utf-8"⟩,true⟩ ∧
    ∃ w compute at_, s.computes w = some compute ∧ compute.token = "k3yT0ken" ∧
      liveDigest compute.upstreamUrl = liveDigest "https://cdn.test/live.m3u8" ∧
      compute.phase.outcome? =
        some (at_,⟨"#EXTM3U","application/vnd.apple.mpegurl; charset=utf-8"⟩) ∧
      (20 < at_+HLS_REWRITE_CACHE_TTL_MS ∨ ∃ ended, compute.phase = .finished ended
        (some (at_,⟨"#EXTM3U","application/vnd.apple.mpegurl; charset=utf-8"⟩)) ∧ 20 ≤ ended) := by
  have hrun : ∃ s, TransitionSystem.runSteps (rewriteStep liveDigest) {}
      [.getOrCompute 0 "k3yT0ken" "https://cdn.test/live.m3u8",.tick 20,
        .getOrCompute 1 "k3yT0ken" "https://cdn.test/live.m3u8",.tick 300,
        .computed 0 ⟨"#EXTM3U","application/vnd.apple.mpegurl; charset=utf-8"⟩,.settled 0] =
        some s ∧
      s.lookups 1 = some ⟨"k3yT0ken","https://cdn.test/live.m3u8",20,.awaiting 0⟩ ∧
      s.served 1 = some ⟨⟨"#EXTM3U","application/vnd.apple.mpegurl; charset=utf-8"⟩,true⟩ :=
    ⟨_,rfl,by decide +kernel,by decide +kernel⟩
  obtain ⟨s,hrun,hlookup,hserved⟩ := hrun
  have hreach : (rewriteSystem liveDigest).Reachable s :=
    .of_runSteps (fun s a s' h => h) _ (.init rfl) hrun
  exact ⟨s,hreach,hserved,
    (hls_rewrite_cache (fun url => by simp [liveDigest]) hreach).2.1 1 _ _ hlookup hserved⟩

end Main

end WebSyncPlay
