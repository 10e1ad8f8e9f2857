import WebSyncPlay.BlockCache

/-! What the block cache counts (`local-media-block-cache.ts`): its total against the blocks it
holds, with full clears and Redis commands that fail among the steps. -/
namespace WebSyncPlay

open Library

section System

/-- `invalidateAllLocalMediaBlockCache`. -/
def CacheSlot.clear (slot : CacheSlot) : CacheSlot :=
  { slot with blocks := [], inflight := fun _ => none, totalBytes := 0 }

inductive AccountingStep
  | cache (a : CacheStep)
  | clearAll (node : ℕ)
  /-- The Redis command that a lookup awaits fails, or is left out while Redis is disabled. -/
  | commandFails (w : ℕ)

/-- A failed `GET` is a miss; a failed `SET` or what follows it ends the writing. -/
def WorkPhase.afterFailure : WorkPhase → Option WorkPhase
  | .getting => some (.got none)
  | .setting block => some (.finishing block)
  | .adding block => some (.finishing block)
  | .expiring block => some (.finishing block)
  | _ => none

def accountingStep (s : CacheState) : AccountingStep → Option CacheState
  | .cache a => cacheStep s a
  | .clearAll node => some (s.setSlot node (s.slots node).clear)
  | .commandFails w =>
    (s.works w).bind fun work => work.phase.afterFailure.map fun phase => s.setPhase w work phase

def accountingSystem : TransitionSystem CacheState AccountingStep where
  init s := s = .idle
  step s a s' := accountingStep s a = some s'

/-- Every fetched block is of a kind. -/
def Fetches (Q : List UInt8 → Prop) (_ : CacheState) : AccountingStep → Prop
  | .cache (.work _ (.fetched bytes)) => Q bytes
  | _ => True

def FitsCache (bytes : List UInt8) : Prop := bytes.length ≤ CACHE_MAX_BYTES

end System

section Slot

def bytesOf (blocks : List (String × BlockEntry)) : ℤ :=
  (blocks.map fun kept => (kept.2.block.bytes.length : ℤ)).sum

/-- The bytes of the block under a key, if there is one. -/
def keptBytes (blocks : List (String × BlockEntry)) (key : String) : ℕ :=
  ((blocks.find? fun kept => kept.1 == key).map Prod.snd).elim 0
    fun entry => entry.block.bytes.length

@[simp] theorem bytesOf_nil : bytesOf [] = 0 := rfl

@[simp] theorem bytesOf_cons (kept : String × BlockEntry) (blocks : List (String × BlockEntry)) :
    bytesOf (kept :: blocks) = kept.2.block.bytes.length+bytesOf blocks := rfl

@[simp] theorem bytesOf_append (blocks blocks' : List (String × BlockEntry)) :
    bytesOf (blocks ++ blocks') = bytesOf blocks+bytesOf blocks' := by
  simp [bytesOf]

theorem bytesOf_nonneg (blocks : List (String × BlockEntry)) : 0 ≤ bytesOf blocks := by
  induction blocks with
  | nil => exact le_rfl
  | cons kept blocks ih =>
    rw [bytesOf_cons]
    omega

theorem bytesOf_eq_zero_iff (blocks : List (String × BlockEntry)) :
    bytesOf blocks = 0 ↔ ∀ kept ∈ blocks, kept.2.block.bytes = [] := by
  induction blocks with
  | nil => simp
  | cons kept blocks ih =>
    have hrest := bytesOf_nonneg blocks
    rw [bytesOf_cons,List.forall_mem_cons,← ih,← List.length_eq_zero_iff]
    omega

theorem bytesOf_filter (blocks : List (String × BlockEntry)) (p : String × BlockEntry → Bool) :
    bytesOf (blocks.filter fun kept => !p kept) = bytesOf blocks-bytesOf (blocks.filter p) := by
  induction blocks with
  | nil => rfl
  | cons kept blocks ih =>
    cases hp : p kept with
    | true => simp [hp,ih]
    | false => simp [hp,ih]; omega

theorem bytesOf_filter_key {blocks : List (String × BlockEntry)}
    (h : (blocks.map Prod.fst).Nodup) (key : String) :
    bytesOf (blocks.filter fun kept => kept.1 != key) = bytesOf blocks-keptBytes blocks key := by
  induction blocks with
  | nil => rfl
  | cons kept blocks ih =>
    rw [List.map_cons,List.nodup_cons] at h
    by_cases hkey : kept.1 = key
    · -- no other block has the key
      have hrest : (blocks.filter fun kept => kept.1 != key) = blocks := by
        refine List.filter_eq_self.mpr ?_
        intro other hother
        have hne : other.1 ≠ key := by
          intro hsame
          exact h.1 (List.mem_map.mpr ⟨other,hother,hsame.trans hkey.symm⟩)
        simpa using hne
      simp [keptBytes,hkey,hrest]
    · have hrest := ih h.2
      rw [keptBytes] at hrest
      simp [keptBytes,hkey,hrest]
      omega

theorem keptBytes_of_hit {slot : CacheSlot} {key : String} {entry : BlockEntry}
    (h : slot.hit key = some entry) : keptBytes slot.blocks key = entry.block.bytes.length := by
  rw [CacheSlot.hit] at h
  rw [keptBytes,Option.eq_some_of_filter_eq_some h]
  rfl

theorem evictLoop_spec (incomingBytes : ℕ) (blocks : List (String × BlockEntry)) :
    ∃ kept, CacheSlot.evictLoop incomingBytes blocks (bytesOf blocks) = (kept,bytesOf kept) ∧
      kept <:+ blocks ∧ (kept = [] ∨ bytesOf kept+incomingBytes ≤ CACHE_MAX_BYTES) := by
  induction blocks with
  | nil => exact ⟨[],rfl,List.suffix_rfl,Or.inl rfl⟩
  | cons first blocks ih =>
    obtain ⟨key,entry⟩ := first
    by_cases hfull : (CACHE_MAX_BYTES : ℤ) < bytesOf ((key,entry) :: blocks)+incomingBytes
    · obtain ⟨kept,hloop,hsuffix,hroom⟩ := ih
      refine ⟨kept,?_,hsuffix.trans (List.suffix_cons _ _),hroom⟩
      have hless : bytesOf ((key,entry) :: blocks)-entry.block.bytes.length = bytesOf blocks := by
        rw [bytesOf_cons]
        change (entry.block.bytes.length : ℤ)+_-_ = _
        omega
      rw [CacheSlot.evictLoop,if_pos hfull,hless]
      exact hloop
    · refine ⟨(key,entry) :: blocks,?_,List.suffix_rfl,Or.inr (not_lt.mp hfull)⟩
      rw [CacheSlot.evictLoop,if_neg hfull]

/-- The total is what the blocks hold; blocks that fit keep it within the maximum. -/
structure CacheSlot.Accounted (Q : List UInt8 → Prop) (slot : CacheSlot) : Prop where
  nodup : (slot.blocks.map Prod.fst).Nodup
  total : slot.totalBytes = bytesOf slot.blocks
  le : (∀ bytes, Q bytes → FitsCache bytes) → slot.totalBytes ≤ CACHE_MAX_BYTES

namespace CacheSlot.Accounted

variable {Q : List UInt8 → Prop} {slot : CacheSlot}

theorem empty (h : slot.blocks = []) (htotal : slot.totalBytes = 0) : Accounted Q slot := by
  refine ⟨?_,?_,fun _ => ?_⟩
  · rw [h]
    exact List.nodup_nil
  · rw [h,htotal]
    rfl
  · rw [htotal]
    exact Int.natCast_nonneg _

theorem nodup_touch (h : Accounted Q slot) (key : String) (entry : BlockEntry) :
    ((slot.touch key entry).blocks.map Prod.fst).Nodup := by
  rw [CacheSlot.touch,List.map_append,List.nodup_append]
  refine ⟨h.nodup.sublist (List.filter_sublist.map _),List.nodup_singleton _,?_⟩
  intro k hk k' hk' hsame
  obtain ⟨kept,hkept,rfl⟩ := List.mem_map.mp hk
  rw [List.map_singleton,List.mem_singleton] at hk'
  have hne := (List.mem_filter.mp hkept).2
  rw [hsame,hk'] at hne
  simp at hne

theorem bytesOf_touch (h : Accounted Q slot) (key : String) (entry : BlockEntry) :
    bytesOf (slot.touch key entry).blocks =
      bytesOf slot.blocks-keptBytes slot.blocks key+entry.block.bytes.length := by
  rw [CacheSlot.touch,bytesOf_append,bytesOf_filter_key h.nodup,bytesOf_cons,bytesOf_nil,add_zero]

theorem touch (h : Accounted Q slot) {key : String} {entry : BlockEntry}
    (hhit : slot.hit key = some entry) : Accounted Q (slot.touch key entry) := by
  refine ⟨h.nodup_touch key entry,?_,h.le⟩
  rw [h.bytesOf_touch,keptBytes_of_hit hhit]
  calc slot.totalBytes = bytesOf slot.blocks := h.total
    _ = _ := by omega

theorem evictIfNeeded (h : Accounted Q slot) (incomingBytes : ℕ) :
    Accounted Q (slot.evictIfNeeded incomingBytes) ∧
      ((slot.evictIfNeeded incomingBytes).totalBytes = 0 ∨
        (slot.evictIfNeeded incomingBytes).totalBytes+incomingBytes ≤ CACHE_MAX_BYTES) := by
  obtain ⟨kept,hloop,hsuffix,hroom⟩ := evictLoop_spec incomingBytes slot.blocks
  have hslot : slot.evictIfNeeded incomingBytes =
      { slot with blocks := kept, totalBytes := bytesOf kept } := by
    rw [CacheSlot.evictIfNeeded,h.total,hloop]
  rw [hslot]
  have hnodup := h.nodup.sublist (hsuffix.sublist.map Prod.fst)
  obtain ⟨gone,hgone⟩ := hsuffix
  refine ⟨⟨hnodup,rfl,fun hQ => ?_⟩,?_⟩
  · have hle := h.le hQ
    rw [h.total,← hgone,bytesOf_append] at hle
    have hnonneg := bytesOf_nonneg gone
    change bytesOf kept ≤ CACHE_MAX_BYTES
    omega
  · rcases hroom with rfl | hroom
    · exact Or.inl rfl
    · exact Or.inr hroom

/-- What is replaced is taken off after the eviction, so the total can only be smaller. -/
theorem putL1 (h : Accounted Q slot) (key : String) {block : CachedBlock} (hblock : Q block.bytes) :
    Accounted Q (slot.putL1 key block) := by
  obtain ⟨hevicted,hroom⟩ := h.evictIfNeeded block.bytes.length
  refine ⟨hevicted.nodup_touch key _,?_,fun hQ => ?_⟩
  · refine Eq.trans ?_ (hevicted.bytesOf_touch key _).symm
    rw [← hevicted.total]
    rfl
  · have hfits : block.bytes.length ≤ CACHE_MAX_BYTES := hQ _ hblock
    have hput : (slot.putL1 key block).totalBytes =
        (slot.evictIfNeeded block.bytes.length).totalBytes-
          keptBytes (slot.evictIfNeeded block.bytes.length).blocks key+block.bytes.length := rfl
    rw [hput]
    rcases hroom with hzero | hroom <;> omega

theorem clearL1ForMedia (h : Accounted Q slot) (mediaId : String) :
    Accounted Q (slot.clearL1ForMedia mediaId) := by
  have hbytes := bytesOf_filter slot.blocks fun kept => keyOfMedia mediaId kept.1
  refine ⟨h.nodup.sublist (List.filter_sublist.map _),?_,fun hQ => ?_⟩
  · change slot.totalBytes-_ = bytesOf (slot.blocks.filter _)
    rw [hbytes,h.total]
    rfl
  · have hle := h.le hQ
    have hnonneg := bytesOf_nonneg (slot.blocks.filter fun kept => keyOfMedia mediaId kept.1)
    change slot.totalBytes-bytesOf (slot.blocks.filter _) ≤ CACHE_MAX_BYTES
    omega

end CacheSlot.Accounted

end Slot

section Run

variable {Q : List UInt8 → Prop} {s s' : CacheState}

/-- The block a lookup has from Redis or writes to it. -/
def WorkPhase.block? : WorkPhase → Option CachedBlock
  | .got block => block
  | .setting block => some block
  | _ => none

structure AccountingInvariant (Q : List UInt8 → Prop) (s : CacheState) : Prop where
  slots : ∀ node, (s.slots node).Accounted Q
  shared : ∀ mediaId blockStart block, s.redis mediaId blockStart = some block → Q block.bytes
  carried : ∀ w work block, s.works w = some work → work.phase.block? = some block → Q block.bytes

theorem accountingInvariant_idle : AccountingInvariant Q .idle := by
  refine ⟨fun _ => .empty rfl rfl,?_,?_⟩
  · intro mediaId blockStart block hblock
    cases hblock
  · intro w work block hwork
    cases hwork

theorem AccountingInvariant.setSlot (h : AccountingInvariant Q s) (node : ℕ) {slot : CacheSlot}
    (hslot : slot.Accounted Q) : AccountingInvariant Q (s.setSlot node slot) := by
  refine ⟨fun other => ?_,h.shared,h.carried⟩
  rw [slots_setSlot]
  split
  · exact hslot
  · exact h.slots other

theorem AccountingInvariant.keepBlocks (h : AccountingInvariant Q s) (node : ℕ) {slot : CacheSlot}
    (hblocks : slot.blocks = (s.slots node).blocks)
    (htotal : slot.totalBytes = (s.slots node).totalBytes) :
    AccountingInvariant Q (s.setSlot node slot) := by
  obtain ⟨hnodup,hbytes,hle⟩ := h.slots node
  rw [← hblocks] at hnodup
  rw [← hblocks,← htotal] at hbytes
  rw [← htotal] at hle
  exact h.setSlot node ⟨hnodup,hbytes,hle⟩

theorem AccountingInvariant.setPhase (h : AccountingInvariant Q s) (w : ℕ) (work : BlockWork)
    {phase : WorkPhase} (hphase : ∀ block, phase.block? = some block → Q block.bytes) :
    AccountingInvariant Q (s.setPhase w work phase) := by
  refine ⟨h.slots,h.shared,?_⟩
  intro w' found block hfound hblock
  rcases works_setPhase hfound with ⟨-,rfl⟩ | ⟨-,hfound⟩
  · exact hphase block hblock
  · exact h.carried w' found block hfound hblock

theorem AccountingInvariant.setPhase_plain (h : AccountingInvariant Q s) (w : ℕ) (work : BlockWork)
    {phase : WorkPhase} (hphase : phase.block? = none) :
    AccountingInvariant Q (s.setPhase w work phase) := by
  refine h.setPhase w work fun block hblock => ?_
  rw [hphase] at hblock
  cases hblock

theorem AccountingInvariant.setShared (h : AccountingInvariant Q s)
    {redis : String → ℕ → Option CachedBlock} {index : String → List ℕ}
    (hredis : ∀ mediaId blockStart block, redis mediaId blockStart = some block →
      Q block.bytes) : AccountingInvariant Q { s with redis := redis, index := index } :=
  ⟨h.slots,hredis,h.carried⟩

theorem AccountingInvariant.deregister (h : AccountingInvariant Q s) (work : BlockWork) :
    AccountingInvariant Q (s.deregister work) :=
  h.keepBlocks work.node rfl rfl

theorem AccountingInvariant.store (h : AccountingInvariant Q s) (work : BlockWork)
    {block : CachedBlock} (hblock : Q block.bytes) : AccountingInvariant Q (s.store work block) :=
  h.setSlot work.node ((h.slots work.node).putL1 work.key hblock)

theorem AccountingInvariant.lookupStep (h : AccountingInvariant Q s) {c node now : ℕ}
    {mediaId : String} {blockStart w : ℕ}
    (hs' : lookupStep s now c node mediaId blockStart w = some s') : AccountingInvariant Q s' := by
  rw [WebSyncPlay.lookupStep] at hs'
  split at hs'
  · cases hs'
  dsimp only at hs'
  split at hs'
  · rename_i entry hhit
    cases hs'
    have htouched := h.setSlot node ((h.slots node).touch hhit)
    exact ⟨htouched.slots,htouched.shared,htouched.carried⟩
  · split at hs'
    · cases hs'
      exact ⟨h.slots,h.shared,h.carried⟩
    · cases hs'
      have hphase : AccountingInvariant Q
          (s.setPhase w ⟨node,mediaId,blockStart,now,.getting⟩ .getting) :=
        h.setPhase_plain w _ rfl
      have hbegun : AccountingInvariant Q ((s.setPhase w ⟨node,mediaId,blockStart,now,.getting⟩
          .getting).setSlot node ((s.slots node).register (blockKey mediaId blockStart) (some w))) :=
        hphase.keepBlocks node rfl rfl
      exact ⟨hbegun.slots,hbegun.shared,hbegun.carried⟩

theorem AccountingInvariant.workStep (h : AccountingInvariant Q s) {w now : ℕ} {work : BlockWork}
    (hwork : s.works w = some work) {a : WorkStep}
    (ha : Fetches Q s (.cache (.work w a))) (hs' : workStep s now w work a = some s') :
    AccountingInvariant Q s' := by
  have hcarried : ∀ block, work.phase.block? = some block → Q block.bytes :=
    fun block => h.carried w work block hwork
  cases a with
  | getBlock =>
    cases hphase : work.phase <;> simp only [WebSyncPlay.workStep,hphase] at hs' <;> cases hs'
    exact h.setPhase w work fun block hblock => h.shared _ _ block hblock
  | gotBlock =>
    cases hphase : work.phase with
    | got found =>
      cases found with
      | none =>
        simp only [WebSyncPlay.workStep,hphase] at hs'
        cases hs'
        exact h.setPhase_plain w work rfl
      | some block =>
        simp only [WebSyncPlay.workStep,hphase] at hs'
        cases hs'
        have hblock := hcarried block (by rw [hphase]; rfl)
        exact ((h.store work hblock).deregister work).setPhase_plain w work rfl
    | _ =>
      simp only [WebSyncPlay.workStep,hphase] at hs'
      cases hs'
  | fetched bytes =>
    cases hphase : work.phase <;> simp only [WebSyncPlay.workStep,hphase] at hs' <;> cases hs'
    rename_i born
    have hstored : AccountingInvariant Q (s.store work ⟨bytes,born⟩) := h.store work ha
    refine hstored.setPhase w work fun block hblock => ?_
    cases hblock
    exact ha
  | fetchFails =>
    cases hphase : work.phase <;> simp only [WebSyncPlay.workStep,hphase] at hs' <;> cases hs'
    exact (h.deregister work).setPhase_plain w work rfl
  | setBlock =>
    cases hphase : work.phase <;> simp only [WebSyncPlay.workStep,hphase] at hs' <;> cases hs'
    rename_i block
    have hadding : AccountingInvariant Q (s.setPhase w work (.adding block)) :=
      h.setPhase_plain w work rfl
    refine ⟨hadding.slots,?_,hadding.carried⟩
    intro mediaId blockStart found hfound
    change Function.update s.redis work.mediaId (Function.update (s.redis work.mediaId)
      work.blockStart (some block)) mediaId blockStart = some found at hfound
    by_cases hmedia : mediaId = work.mediaId
    · subst hmedia
      by_cases hstart : blockStart = work.blockStart
      · subst hstart
        rw [Function.update_self,Function.update_self] at hfound
        cases hfound
        exact hcarried block (by rw [hphase]; rfl)
      · rw [Function.update_self,Function.update_of_ne hstart] at hfound
        exact h.shared _ _ found hfound
    · rw [Function.update_of_ne hmedia] at hfound
      exact h.shared _ _ found hfound
  | addIndex =>
    cases hphase : work.phase <;> simp only [WebSyncPlay.workStep,hphase] at hs' <;> cases hs'
    rename_i block
    have hexpiring : AccountingInvariant Q (s.setPhase w work (.expiring block)) :=
      h.setPhase_plain w work rfl
    exact ⟨hexpiring.slots,hexpiring.shared,hexpiring.carried⟩
  | expireIndex =>
    cases hphase : work.phase <;> simp only [WebSyncPlay.workStep,hphase] at hs' <;> cases hs'
    exact h.setPhase_plain w work rfl
  | finish =>
    cases hphase : work.phase <;> simp only [WebSyncPlay.workStep,hphase] at hs' <;> cases hs'
    exact (h.deregister work).setPhase_plain w work rfl

theorem AccountingInvariant.invalidationStep (h : AccountingInvariant Q s) {i now : ℕ}
    {invalidation : Invalidation} {a : InvalidationStep}
    (hs' : invalidationStep s now i invalidation a = some s') : AccountingInvariant Q s' := by
  cases a with
  | readIndex =>
    cases hphase : invalidation.phase <;>
      simp only [WebSyncPlay.invalidationStep,hphase] at hs' <;> cases hs'
    exact ⟨h.slots,h.shared,h.carried⟩
  | deleteKeys =>
    cases hphase : invalidation.phase <;>
      simp only [WebSyncPlay.invalidationStep,hphase] at hs' <;> cases hs'
    refine ⟨h.slots,?_,h.carried⟩
    intro mediaId blockStart block hblock
    dsimp only at hblock
    by_cases hmedia : mediaId = invalidation.mediaId
    · rw [hmedia,Function.update_self] at hblock
      split at hblock
      · cases hblock
      · exact h.shared _ _ block hblock
    · rw [Function.update_of_ne hmedia] at hblock
      exact h.shared _ _ block hblock
  | returns =>
    cases hphase : invalidation.phase <;>
      simp only [WebSyncPlay.invalidationStep,hphase] at hs' <;> cases hs'
    exact ⟨h.slots,h.shared,h.carried⟩

theorem AccountingInvariant.cacheStep (h : AccountingInvariant Q s) {a : CacheStep}
    (ha : Fetches Q s (.cache a)) (hs' : cacheStep s a = some s') : AccountingInvariant Q s' := by
  have hlater : AccountingInvariant Q { s with moment := s.moment+1 } :=
    ⟨h.slots,h.shared,h.carried⟩
  cases a with
  | lookup c node mediaId blockStart w => exact hlater.lookupStep hs'
  | work w a =>
    obtain ⟨work,hwork,hs'⟩ := Option.bind_eq_some_iff.mp hs'
    exact hlater.workStep hwork ha hs'
  | invalidate i node mediaId =>
    rw [WebSyncPlay.cacheStep,cacheCore] at hs'
    split at hs'
    · cases hs'
    · cases hs'
      have hcleared := hlater.setSlot node ((h.slots node).clearL1ForMedia mediaId)
      exact ⟨hcleared.slots,hcleared.shared,hcleared.carried⟩
  | invalidation i a =>
    obtain ⟨invalidation,hi,hs'⟩ := Option.bind_eq_some_iff.mp hs'
    exact hlater.invalidationStep hs'
  | blockExpires mediaId blockStart =>
    cases hs'
    refine hlater.setShared fun media start block hblock => ?_
    by_cases hmedia : media = mediaId
    · subst hmedia
      by_cases hstart : start = blockStart
      · simp [hstart] at hblock
      · exact h.shared _ _ block (by simpa [hstart] using hblock)
    · exact h.shared _ _ block (by simpa [hmedia] using hblock)
  | indexExpires mediaId =>
    cases hs'
    exact hlater.setShared h.shared
  | tick node ms =>
    cases hs'
    exact hlater.keepBlocks node rfl rfl

theorem WorkPhase.block?_afterFailure {phase phase' : WorkPhase}
    (h : phase.afterFailure = some phase') : phase'.block? = none := by
  cases phase <;> cases h <;> rfl

theorem AccountingInvariant.step (h : AccountingInvariant Q s) {a : AccountingStep}
    (ha : Fetches Q s a) (hs' : accountingStep s a = some s') : AccountingInvariant Q s' := by
  cases a with
  | cache a => exact h.cacheStep ha hs'
  | clearAll node =>
    cases hs'
    exact h.setSlot node (.empty rfl rfl)
  | commandFails w =>
    obtain ⟨work,-,hs'⟩ := Option.bind_eq_some_iff.mp hs'
    obtain ⟨phase,hphase,rfl⟩ := Option.map_eq_some_iff.mp hs'
    exact h.setPhase_plain w work (WorkPhase.block?_afterFailure hphase)

theorem accountingInvariant_of_reachable
    (h : (accountingSystem.restrict (Fetches Q)).Reachable s) : AccountingInvariant Q s := by
  refine h.invariant (AccountingInvariant Q) ?_ ?_
  · rintro s rfl
    exact accountingInvariant_idle
  · rintro s a s' _ hs ⟨ha,hs'⟩
    exact hs.step ha hs'

/-- In every node the total is the sum of the lengths of its blocks; it is zero if and only if no
block with bytes is kept; and it stays within the maximum while fetched blocks do. -/
theorem block_cache_accounting (h : accountingSystem.Reachable s) (node : ℕ) :
    (s.slots node).totalBytes = bytesOf (s.slots node).blocks ∧ 0 ≤ (s.slots node).totalBytes ∧
      ((s.slots node).totalBytes = 0 ↔
        ∀ kept ∈ (s.slots node).blocks, kept.2.block.bytes = []) ∧
      ((accountingSystem.restrict (Fetches FitsCache)).Reachable s →
        (s.slots node).totalBytes ≤ CACHE_MAX_BYTES) := by
  have hany : (accountingSystem.restrict (Fetches fun _ => True)).Reachable s := by
    refine h.to_restrict fun s a => ?_
    unfold Fetches
    split <;> trivial
  have htotal := ((accountingInvariant_of_reachable hany).slots node).total
  refine ⟨htotal,?_,?_,fun hfits => ?_⟩
  · rw [htotal]
    exact bytesOf_nonneg _
  · rw [htotal]
    exact bytesOf_eq_zero_iff _
  · exact ((accountingInvariant_of_reachable hfits).slots node).le fun _ hbytes => hbytes

/-- A fetch that began before a full clear puts its block into the empty cache. -/
theorem block_cache_accounting_late_fetch : ∃ s, accountingSystem.Reachable s ∧
    (s.slots 0).totalBytes = 2 ∧ (s.slots 0).totalBytes = bytesOf (s.slots 0).blocks := by
  have hrun : (TransitionSystem.runSteps accountingStep .idle
      [.cache (.lookup 0 0 "a" 0 0),.commandFails 0,.cache (.work 0 .gotBlock),.clearAll 0,
        .cache (.work 0 (.fetched [7,8]))]).map (fun s => (s.slots 0).totalBytes) = some 2 := by
    decide +kernel
  obtain ⟨s,hs,htotal⟩ := Option.map_eq_some_iff.mp hrun
  have hreach : accountingSystem.Reachable s := .of_runSteps (fun _ _ _ h => h) _ (.init rfl) hs
  exact ⟨s,hreach,htotal,(block_cache_accounting hreach 0).1⟩

end Run

end WebSyncPlay
