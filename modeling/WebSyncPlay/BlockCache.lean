import WebSyncPlay.RedisKeys
import WebSyncPlay.Library.TransitionSystem

/-! The block cache (`local-media-block-cache.ts`): lookups and invalidations of any media on any
nodes that share one Redis, one command or answer at a time. -/
namespace WebSyncPlay

open Library

def CACHE_TTL_MS : ℕ := 120000
def CACHE_MAX_BYTES : ℕ := 64*1024*1024

structure CachedBlock where
  bytes : List UInt8
  /-- When the provider's fetch began; nothing in the code reads it. -/
  born : ℕ
  deriving DecidableEq

structure BlockEntry where
  block : CachedBlock
  expiresAt : ℕ

/-- The process-local part: blocks in order of use, lookups under way by key. -/
structure CacheSlot where
  nowMs : ℕ := 0
  blocks : List (String × BlockEntry) := []
  inflight : String → Option ℕ := fun _ => none
  totalBytes : ℤ := 0

def blockKey (mediaId : String) (blockStart : ℕ) : String :=
  mediaId ++ ":" ++ upTo blockStart.repr none

/-- `key.startsWith(mediaId + ":")`. -/
def keyOfMedia (mediaId key : String) : Bool := (mediaId ++ ":").toList.isPrefixOf key.toList

namespace CacheSlot

/-- An entry that is there and has not expired. -/
def hit (slot : CacheSlot) (key : String) : Option BlockEntry :=
  ((slot.blocks.find? fun kept => kept.1 == key).map Prod.snd).filter fun entry =>
    decide (slot.nowMs < entry.expiresAt)

def evictLoop (incomingBytes : ℕ) :
    List (String × BlockEntry) → ℤ → List (String × BlockEntry) × ℤ
  | [],total => ([],total)
  | (key,entry) :: rest,total =>
    if (CACHE_MAX_BYTES : ℤ) < total+incomingBytes then
      evictLoop incomingBytes rest (total-entry.block.bytes.length)
    else ((key,entry) :: rest,total)

def evictIfNeeded (slot : CacheSlot) (incomingBytes : ℕ) : CacheSlot :=
  let kept := evictLoop incomingBytes slot.blocks slot.totalBytes
  { slot with blocks := kept.1, totalBytes := kept.2 }

def touch (slot : CacheSlot) (key : String) (entry : BlockEntry) : CacheSlot :=
  { slot with blocks := slot.blocks.filter (fun kept => kept.1 != key) ++ [(key,entry)] }

def putL1 (slot : CacheSlot) (key : String) (block : CachedBlock) : CacheSlot :=
  let evicted := slot.evictIfNeeded block.bytes.length
  let previous := ((evicted.blocks.find? fun kept => kept.1 == key).map Prod.snd).elim 0
    fun entry => entry.block.bytes.length
  let touched := evicted.touch key ⟨block,slot.nowMs+CACHE_TTL_MS⟩
  { touched with totalBytes := evicted.totalBytes-previous+block.bytes.length }

def clearL1ForMedia (slot : CacheSlot) (mediaId : String) : CacheSlot :=
  { slot with
    blocks := slot.blocks.filter fun kept => !keyOfMedia mediaId kept.1
    inflight := fun key => if keyOfMedia mediaId key then none else slot.inflight key
    totalBytes := slot.totalBytes-((slot.blocks.filter fun kept => keyOfMedia mediaId kept.1).map
      fun kept => (kept.2.block.bytes.length : ℤ)).sum }

def register (slot : CacheSlot) (key : String) (work : Option ℕ) : CacheSlot :=
  { slot with inflight := Function.update slot.inflight key work }

def tick (slot : CacheSlot) (ms : ℕ) : CacheSlot := { slot with nowMs := slot.nowMs+ms }

end CacheSlot

/-- Where a lookup that found nothing in its process stands. -/
inductive WorkPhase
  | getting
  /-- Redis has answered, the answer is on its way. -/
  | got (block : Option CachedBlock)
  | fetching (born : ℕ)
  | setting (block : CachedBlock)
  | adding (block : CachedBlock)
  | expiring (block : CachedBlock)
  | finishing (block : CachedBlock)
  | done (block : CachedBlock)
  | failed
  deriving DecidableEq

structure BlockWork where
  node : ℕ
  mediaId : String
  blockStart : ℕ
  began : ℕ
  phase : WorkPhase
  deriving DecidableEq

def BlockWork.key (work : BlockWork) : String := blockKey work.mediaId work.blockStart

inductive InvalidationPhase
  | reading
  | deleting (starts : List ℕ)
  | deleted
  | returned (moment : ℕ)
  deriving DecidableEq

structure Invalidation where
  node : ℕ
  mediaId : String
  began : ℕ
  phase : InvalidationPhase
  deriving DecidableEq

/-- A call: what it found at once, or the lookup whose bytes it waits for. -/
structure BlockLookup where
  node : ℕ
  mediaId : String
  began : ℕ
  source : CachedBlock ⊕ ℕ
  deriving DecidableEq

/-- Redis has the blocks by media and start: the keys of two blocks differ. -/
structure CacheState where
  moment : ℕ
  slots : ℕ → CacheSlot
  redis : String → ℕ → Option CachedBlock
  index : String → List ℕ
  works : ℕ → Option BlockWork
  invalidations : ℕ → Option Invalidation
  lookups : ℕ → Option BlockLookup

namespace CacheState

def setSlot (s : CacheState) (node : ℕ) (slot : CacheSlot) : CacheState :=
  { s with slots := Function.update s.slots node slot }

def setPhase (s : CacheState) (w : ℕ) (work : BlockWork) (phase : WorkPhase) : CacheState :=
  { s with works := Function.update s.works w (some { work with phase := phase }) }

def setInvalidation (s : CacheState) (i : ℕ) (invalidation : Invalidation)
    (phase : InvalidationPhase) : CacheState :=
  { s with invalidations :=
      Function.update s.invalidations i (some { invalidation with phase := phase }) }

def answerLookup (s : CacheState) (c : ℕ) (lookup : BlockLookup) : CacheState :=
  { s with lookups := Function.update s.lookups c (some lookup) }

/-- `finally`: whatever is registered under the key is not any more. -/
def deregister (s : CacheState) (work : BlockWork) : CacheState :=
  s.setSlot work.node ((s.slots work.node).register work.key none)

def store (s : CacheState) (work : BlockWork) (block : CachedBlock) : CacheState :=
  s.setSlot work.node ((s.slots work.node).putL1 work.key block)

def result (s : CacheState) (lookup : BlockLookup) : Option CachedBlock :=
  match lookup.source with
  | .inl block => some block
  | .inr w =>
    match (s.works w).map BlockWork.phase with
    | some (.done block) => some block
    | _ => none

def idle : CacheState where
  moment := 0
  slots _ := {}
  redis _ _ := none
  index _ := []
  works _ := none
  invalidations _ := none
  lookups _ := none

end CacheState

/-- The awaited commands and answers of a lookup that found nothing in its process. -/
inductive WorkStep
  | getBlock
  | gotBlock
  | fetched (bytes : List UInt8)
  | fetchFails
  | setBlock
  | addIndex
  | expireIndex
  | finish

inductive InvalidationStep
  | readIndex
  | deleteKeys
  | returns

inductive CacheStep
  | lookup (c node : ℕ) (mediaId : String) (blockStart w : ℕ)
  | work (w : ℕ) (a : WorkStep)
  | invalidate (i node : ℕ) (mediaId : String)
  | invalidation (i : ℕ) (a : InvalidationStep)
  | blockExpires (mediaId : String) (blockStart : ℕ)
  | indexExpires (mediaId : String)
  | tick (node ms : ℕ)

/-- The synchronous beginning of `getOrFetchLocalMediaBlock`. -/
def lookupStep (s : CacheState) (now c node : ℕ) (mediaId : String) (blockStart w : ℕ) :
    Option CacheState :=
  if (s.lookups c).isSome ∨ (s.works w).isSome then none
  else
    let slot := s.slots node
    let key := blockKey mediaId blockStart
    match slot.hit key with
    | some entry =>
      some ((s.setSlot node (slot.touch key entry)).answerLookup c
        ⟨node,mediaId,now,.inl entry.block⟩)
    | none =>
      match slot.inflight key with
      | some pending => some (s.answerLookup c ⟨node,mediaId,now,.inr pending⟩)
      | none =>
        let work := ⟨node,mediaId,blockStart,now,.getting⟩
        let begun := (s.setPhase w work .getting).setSlot node (slot.register key (some w))
        some (begun.answerLookup c ⟨node,mediaId,now,.inr w⟩)

def workStep (s : CacheState) (now w : ℕ) (work : BlockWork) : WorkStep → Option CacheState
  | .getBlock =>
    match work.phase with
    | .getting => some (s.setPhase w work (.got (s.redis work.mediaId work.blockStart)))
    | _ => none
  | .gotBlock =>
    match work.phase with
    | .got (some block) =>
      some (((s.store work block).deregister work).setPhase w work (.done block))
    | .got none => some (s.setPhase w work (.fetching now))
    | _ => none
  | .fetched bytes =>
    match work.phase with
    | .fetching born =>
      some ((s.store work ⟨bytes,born⟩).setPhase w work (.setting ⟨bytes,born⟩))
    | _ => none
  | .fetchFails =>
    match work.phase with
    | .fetching _ => some ((s.deregister work).setPhase w work .failed)
    | _ => none
  | .setBlock =>
    match work.phase with
    | .setting block =>
      some { s.setPhase w work (.adding block) with
        redis := Function.update s.redis work.mediaId
          (Function.update (s.redis work.mediaId) work.blockStart (some block)) }
    | _ => none
  | .addIndex =>
    match work.phase with
    | .adding block =>
      some { s.setPhase w work (.expiring block) with
        index := Function.update s.index work.mediaId
          (work.blockStart :: s.index work.mediaId) }
    | _ => none
  | .expireIndex =>
    match work.phase with
    | .expiring block => some (s.setPhase w work (.finishing block))
    | _ => none
  | .finish =>
    match work.phase with
    | .finishing block => some ((s.deregister work).setPhase w work (.done block))
    | _ => none

def invalidationStep (s : CacheState) (now i : ℕ) (invalidation : Invalidation) :
    InvalidationStep → Option CacheState
  | .readIndex =>
    match invalidation.phase with
    | .reading => some (s.setInvalidation i invalidation (.deleting (s.index invalidation.mediaId)))
    | _ => none
  | .deleteKeys =>
    match invalidation.phase with
    | .deleting starts =>
      some { s.setInvalidation i invalidation .deleted with
        redis := Function.update s.redis invalidation.mediaId fun start =>
          if start ∈ starts then none else s.redis invalidation.mediaId start
        index := Function.update s.index invalidation.mediaId [] }
    | _ => none
  | .returns =>
    match invalidation.phase with
    | .deleted => some (s.setInvalidation i invalidation (.returned now))
    | _ => none

def cacheCore (s : CacheState) (now : ℕ) : CacheStep → Option CacheState
  | .lookup c node mediaId blockStart w => lookupStep s now c node mediaId blockStart w
  | .work w a => (s.works w).bind fun work => workStep s now w work a
  | .invalidate i node mediaId =>
    match s.invalidations i with
    | some _ => none
    | none =>
      some ((s.setSlot node ((s.slots node).clearL1ForMedia mediaId)).setInvalidation i
        ⟨node,mediaId,now,.reading⟩ .reading)
  | .invalidation i a =>
    (s.invalidations i).bind fun invalidation => invalidationStep s now i invalidation a
  | .blockExpires mediaId blockStart =>
    some { s with
      redis := Function.update s.redis mediaId
        (Function.update (s.redis mediaId) blockStart none) }
  | .indexExpires mediaId => some { s with index := Function.update s.index mediaId [] }
  | .tick node ms => some (s.setSlot node ((s.slots node).tick ms))

/-- Every step has a moment of its own. -/
def cacheStep (s : CacheState) (a : CacheStep) : Option CacheState :=
  cacheCore { s with moment := s.moment+1 } s.moment a

def cacheSystem : TransitionSystem CacheState CacheStep where
  init s := s = .idle
  step s a s' := cacheStep s a = some s'

section Guard

/-- The invalidation had returned by then. -/
def Invalidation.OverBy (invalidation : Invalidation) (moment : ℕ) : Prop :=
  ∃ returned, invalidation.phase = .returned returned ∧ returned < moment

def Invalidation.Purged (invalidation : Invalidation) : Prop :=
  invalidation.phase = .deleted ∨ ∃ returned, invalidation.phase = .returned returned

namespace CacheState

/-- What holds of the invalidations of a media on a node. -/
def EachInvalidation (s : CacheState) (node : ℕ) (mediaId : String) (P : Invalidation → Prop) :
    Prop :=
  ∀ i invalidation, s.invalidations i = some invalidation → invalidation.node = node →
    invalidation.mediaId = mediaId → P invalidation

/-- The bytes are younger than every invalidation that was not over when the lookup began. -/
def StoresInTime (s : CacheState) (work : BlockWork) (born : ℕ) : Prop :=
  s.EachInvalidation work.node work.mediaId fun invalidation =>
    ¬invalidation.OverBy work.began → invalidation.began ≤ born

/-- A lookup that ends leaves no other one that is fetching unregistered. -/
def EndsAlone (s : CacheState) (w : ℕ) (work : BlockWork) : Prop :=
  ∀ w' other born, (s.slots work.node).inflight work.key = some w' → s.works w' = some other →
    other.phase = .fetching born → w' = w

def WorkGuard (s : CacheState) (w : ℕ) (work : BlockWork) : WorkStep → Prop
  | .gotBlock =>
    (∀ block, work.phase = .got (some block) →
      s.StoresInTime work block.born ∧ s.EndsAlone w work) ∧
    (work.phase = .got none → (s.slots work.node).inflight work.key = some w)
  | .fetched _ => ∀ born, work.phase = .fetching born → s.StoresInTime work born
  | .fetchFails => s.EndsAlone w work
  | .finish => s.EndsAlone w work
  | .setBlock => ∀ block, work.phase = .setting block → ∀ i invalidation,
      s.invalidations i = some invalidation → invalidation.mediaId = work.mediaId →
        invalidation.Purged → invalidation.began ≤ block.born
  | _ => True

end CacheState

/-- What a step must find so that nothing outlives an invalidation. -/
def CacheGuard (s : CacheState) : CacheStep → Prop
  | .work w a => ∀ work, s.works w = some work → s.WorkGuard w work a
  | .invalidate _ node mediaId => ∀ w work born, s.works w = some work →
      work.phase = .fetching born → work.node = node →
      (s.slots node).inflight work.key = some w → keyOfMedia mediaId work.key = true →
        work.mediaId = mediaId
  | .invalidation i .deleteKeys => ∀ invalidation starts, s.invalidations i = some invalidation →
      invalidation.phase = .deleting starts → ∀ start block,
        s.redis invalidation.mediaId start = some block → start ∉ starts →
          invalidation.began ≤ block.born
  | _ => True

end Guard

section Invariant

def WorkPhase.value? : WorkPhase → Option CachedBlock
  | .setting block => some block
  | .adding block => some block
  | .expiring block => some block
  | .finishing block => some block
  | .done block => some block
  | _ => none

def WorkPhase.isOpen : WorkPhase → Bool
  | .done _ => false
  | .failed => false
  | _ => true

variable {s s' : CacheState}

/-- Fetched after each invalidation of the media on the node began. -/
def CacheState.InTime (s : CacheState) (node : ℕ) (mediaId : String) (born : ℕ) : Prop :=
  s.EachInvalidation node mediaId fun invalidation => invalidation.began ≤ born

/-- Fetched after each invalidation began that was over by some moment. -/
def CacheState.AfterOver (s : CacheState) (node : ℕ) (mediaId : String) (moment born : ℕ) : Prop :=
  s.EachInvalidation node mediaId fun invalidation =>
    invalidation.OverBy moment → invalidation.began ≤ born

structure CacheInvariant (s : CacheState) : Prop where
  invalidation_lt : ∀ i invalidation, s.invalidations i = some invalidation →
    invalidation.began < s.moment ∧ ∀ returned, invalidation.phase = .returned returned →
      invalidation.began ≤ returned ∧ returned < s.moment
  work_lt : ∀ w work, s.works w = some work → work.began < s.moment ∧
    ∀ born, work.phase = .fetching born → work.began ≤ born ∧ born < s.moment
  lookup_lt : ∀ c lookup, s.lookups c = some lookup → lookup.began < s.moment
  registered : ∀ node key w, (s.slots node).inflight key = some w → ∃ work,
    s.works w = some work ∧ work.node = node ∧ work.key = key ∧ work.phase.isOpen = true
  kept : ∀ node key entry, (key,entry) ∈ (s.slots node).blocks → ∀ mediaId blockStart,
    key = blockKey mediaId blockStart → s.InTime node mediaId entry.block.born
  shared : ∀ mediaId blockStart block, s.redis mediaId blockStart = some block →
    ∀ i invalidation, s.invalidations i = some invalidation → invalidation.mediaId = mediaId →
      invalidation.Purged → invalidation.began ≤ block.born
  got : ∀ w work block, s.works w = some work → work.phase = .got (some block) →
    s.AfterOver work.node work.mediaId work.began block.born
  value : ∀ w work block, s.works w = some work → work.phase.value? = some block →
    (s.slots work.node).inflight work.key = some w →
      s.InTime work.node work.mediaId block.born
  waiting : ∀ c lookup w, s.lookups c = some lookup → lookup.source = .inr w → ∃ work,
    s.works w = some work ∧ work.node = lookup.node ∧ work.mediaId = lookup.mediaId ∧
      ∀ block, work.phase.value? = some block →
        s.AfterOver lookup.node lookup.mediaId lookup.began block.born
  found : ∀ c lookup block, s.lookups c = some lookup → lookup.source = .inl block →
    s.AfterOver lookup.node lookup.mediaId lookup.began block.born
  alone : ∀ w work born, s.works w = some work → work.phase = .fetching born →
    s.InTime work.node work.mediaId born → (s.slots work.node).inflight work.key = some w

theorem cacheInvariant_idle : CacheInvariant .idle := by
  constructor <;> intros <;> simp_all [CacheState.idle]

theorem blockKey_inj {mediaId mediaId' : String} {blockStart blockStart' : ℕ} :
    blockKey mediaId blockStart = blockKey mediaId' blockStart' ↔
      mediaId = mediaId' ∧ blockStart = blockStart' := by
  rw [blockKey,blockKey,join_upTo_eq_iff (colon_notMem_repr _) (colon_notMem_repr _)]
  simp [Nat.repr_inj]

theorem CacheInvariant.later (h : CacheInvariant s) :
    CacheInvariant { s with moment := s.moment+1 } := by
  refine ⟨fun i inv hi => ?_,fun w work hw => ?_,fun c lookup hc => ?_,h.registered,h.kept,h.shared,
    h.got,h.value,h.waiting,h.found,h.alone⟩
  · obtain ⟨hbegan,hreturned⟩ := h.invalidation_lt i inv hi
    refine ⟨Nat.lt_succ_of_lt hbegan,fun returned hr => ?_⟩
    exact ⟨(hreturned returned hr).1,Nat.lt_succ_of_lt (hreturned returned hr).2⟩
  · obtain ⟨hbegan,hborn⟩ := h.work_lt w work hw
    refine ⟨Nat.lt_succ_of_lt hbegan,fun born hb => ?_⟩
    exact ⟨(hborn born hb).1,Nat.lt_succ_of_lt (hborn born hb).2⟩
  · exact Nat.lt_succ_of_lt (h.lookup_lt c lookup hc)

theorem slots_setSlot (s : CacheState) (node other : ℕ) (slot : CacheSlot) :
    (s.setSlot node slot).slots other = if other = node then slot else s.slots other := by
  by_cases h : other = node
  · subst h
    simp [CacheState.setSlot]
  · simp [CacheState.setSlot,h]

theorem works_setPhase {w w' : ℕ} {work found : BlockWork} {phase : WorkPhase}
    (h : (s.setPhase w work phase).works w' = some found) :
    w' = w ∧ found = { work with phase := phase } ∨ w' ≠ w ∧ s.works w' = some found := by
  by_cases hw : w' = w
  · subst hw
    left
    simpa [CacheState.setPhase,eq_comm] using h
  · right
    simpa [CacheState.setPhase,hw] using h

theorem CacheInvariant.setBlocks (h : CacheInvariant s) {node : ℕ} {slot : CacheSlot}
    (hinflight : slot.inflight = (s.slots node).inflight)
    (hblocks : ∀ key entry, (key,entry) ∈ slot.blocks → (key,entry) ∈ (s.slots node).blocks ∨
      ∀ mediaId blockStart, key = blockKey mediaId blockStart →
        s.InTime node mediaId entry.block.born) : CacheInvariant (s.setSlot node slot) := by
  have hsame : ∀ other, ((s.setSlot node slot).slots other).inflight =
      (s.slots other).inflight := by
    intro other
    rw [slots_setSlot]
    by_cases hother : other = node
    · rw [if_pos hother,hinflight,hother]
    · rw [if_neg hother]
  refine ⟨h.invalidation_lt,h.work_lt,h.lookup_lt,fun other key w hw => ?_,
    fun other key entry hentry => ?_,h.shared,h.got,fun w work block hw hvalue hreg => ?_,h.waiting,
    h.found,fun w work born hw hborn hin => ?_⟩
  · rw [hsame] at hw
    exact h.registered other key w hw
  · rw [slots_setSlot] at hentry
    by_cases hother : other = node
    · subst hother
      rw [if_pos rfl] at hentry
      rcases hblocks key entry hentry with hold | hnew
      · exact h.kept other key entry hold
      · exact hnew
    · rw [if_neg hother] at hentry
      exact h.kept other key entry hentry
  · rw [hsame] at hreg
    exact h.value w work block hw hvalue hreg
  · rw [hsame]
    exact h.alone w work born hw hborn hin

theorem CacheInvariant.deregister (h : CacheInvariant s) {work : BlockWork}
    (halone : ∀ w' other born, (s.slots work.node).inflight work.key = some w' →
      s.works w' = some other → other.phase = .fetching born → False) :
    CacheInvariant (s.deregister work) := by
  have hold : ∀ other key w', ((s.deregister work).slots other).inflight key = some w' →
      (s.slots other).inflight key = some w' := by
    intro other key w' hw'
    rw [CacheState.deregister,slots_setSlot] at hw'
    by_cases hother : other = work.node
    · subst hother
      by_cases hkey : key = work.key
      · simp [CacheSlot.register,hkey] at hw'
      · simpa [CacheSlot.register,hkey] using hw'
    · rwa [if_neg hother] at hw'
  have hblocks : ∀ other, ((s.deregister work).slots other).blocks = (s.slots other).blocks := by
    intro other
    rw [CacheState.deregister,slots_setSlot]
    by_cases hother : other = work.node
    · rw [if_pos hother,hother]
      rfl
    · rw [if_neg hother]
  refine ⟨h.invalidation_lt,h.work_lt,h.lookup_lt,fun other key w' hw' =>
    h.registered other key w' (hold other key w' hw'),fun other key entry hentry => ?_,h.shared,
    h.got,fun w' found block hw' hvalue hreg => h.value w' found block hw' hvalue
      (hold _ _ _ hreg),h.waiting,h.found,fun w' found born hw' hborn hin => ?_⟩
  · rw [hblocks] at hentry
    exact h.kept other key entry hentry
  · have hreg := h.alone w' found born hw' hborn hin
    rw [CacheState.deregister,slots_setSlot]
    by_cases hnode : found.node = work.node
    · by_cases hkey : found.key = work.key
      · rw [hnode,hkey] at hreg
        exact (halone w' found born hreg hw' hborn).elim
      · rw [if_pos hnode]
        rw [hnode] at hreg
        simpa [CacheSlot.register,hkey] using hreg
    · rw [if_neg hnode]
      exact hreg

theorem CacheInvariant.setPhase (h : CacheInvariant s) {w : ℕ} {work : BlockWork}
    (hwork : s.works w = some work) {phase : WorkPhase}
    (hgot : ∀ block, phase = .got (some block) →
      s.AfterOver work.node work.mediaId work.began block.born)
    (hfetching : ∀ born, phase = .fetching born → work.began ≤ born ∧ born < s.moment ∧
      (s.slots work.node).inflight work.key = some w)
    (hvalue : ∀ block, phase.value? = some block → work.phase.value? = some block ∨
      s.InTime work.node work.mediaId block.born)
    (hopen : phase.isOpen = false → (s.slots work.node).inflight work.key ≠ some w) :
    CacheInvariant (s.setPhase w work phase) := by
  constructor
  case invalidation_lt => exact h.invalidation_lt
  case work_lt =>
    intro w' found hw'
    rcases works_setPhase hw' with ⟨rfl,rfl⟩ | ⟨-,hw'⟩
    · refine ⟨(h.work_lt w' work hwork).1,fun born hborn => ?_⟩
      obtain ⟨hle,hlt,-⟩ := hfetching born hborn
      exact ⟨hle,hlt⟩
    · exact h.work_lt w' found hw'
  case lookup_lt => exact h.lookup_lt
  case registered =>
    intro node key w' hw'
    obtain ⟨found,hfound,rfl,rfl,hopen'⟩ := h.registered node key w' hw'
    by_cases hsame : w' = w
    · subst hsame
      obtain rfl : work = found := Option.some.inj (hwork.symm.trans hfound)
      refine ⟨{ work with phase := phase },by simp [CacheState.setPhase],rfl,rfl,?_⟩
      by_contra hclosed
      exact hopen (by simpa using hclosed) hw'
    · exact ⟨found,by simpa [CacheState.setPhase,hsame] using hfound,rfl,rfl,hopen'⟩
  case kept => exact h.kept
  case shared => exact h.shared
  case got =>
    intro w' found block hw' hphase
    rcases works_setPhase hw' with ⟨rfl,rfl⟩ | ⟨-,hw'⟩
    · exact hgot block hphase
    · exact h.got w' found block hw' hphase
  case value =>
    intro w' found block hw' hblock hreg
    rcases works_setPhase hw' with ⟨rfl,rfl⟩ | ⟨-,hw'⟩
    · rcases hvalue block hblock with hold | hnew
      · exact h.value w' work block hwork hold hreg
      · exact hnew
    · exact h.value w' found block hw' hblock hreg
  case waiting =>
    intro c lookup w' hc hsource
    obtain ⟨found,hfound,hnode,hmedia,hblock⟩ := h.waiting c lookup w' hc hsource
    by_cases hsame : w' = w
    · subst hsame
      obtain rfl : work = found := Option.some.inj (hwork.symm.trans hfound)
      refine ⟨{ work with phase := phase },by simp [CacheState.setPhase],hnode,hmedia,
        fun block hphase => ?_⟩
      rcases hvalue block hphase with hold | hnew
      · exact hblock block hold
      · intro i invalidation hi hn hm hover
        exact hnew i invalidation hi (hn.trans hnode.symm) (hm.trans hmedia.symm)
    · exact ⟨found,by simpa [CacheState.setPhase,hsame] using hfound,hnode,hmedia,hblock⟩
  case found => exact h.found
  case alone =>
    intro w' found born hw' hborn hin
    rcases works_setPhase hw' with ⟨rfl,rfl⟩ | ⟨-,hw'⟩
    · exact (hfetching born hborn).2.2
    · exact h.alone w' found born hw' hborn hin

section Blocks

theorem mem_evictLoop {incomingBytes : ℕ} {kept : String × BlockEntry}
    (blocks : List (String × BlockEntry)) (total : ℤ)
    (h : kept ∈ (CacheSlot.evictLoop incomingBytes blocks total).1) : kept ∈ blocks := by
  induction blocks generalizing total with
  | nil => exact h
  | cons first rest ih =>
    rw [CacheSlot.evictLoop] at h
    split at h
    · exact List.mem_cons_of_mem _ (ih _ h)
    · exact h

theorem mem_touch {slot : CacheSlot} {key : String} {entry : BlockEntry}
    {kept : String × BlockEntry} (h : kept ∈ (slot.touch key entry).blocks) :
    kept ∈ slot.blocks ∨ kept = (key,entry) := by
  rcases List.mem_append.mp h with h | h
  · exact Or.inl (List.mem_filter.mp h).1
  · exact Or.inr (List.mem_singleton.mp h)

theorem mem_putL1 {slot : CacheSlot} {key : String} {block : CachedBlock}
    {kept : String × BlockEntry} (h : kept ∈ (slot.putL1 key block).blocks) :
    kept ∈ slot.blocks ∨ kept = (key,⟨block,slot.nowMs+CACHE_TTL_MS⟩) := by
  refine (mem_touch h).imp_left fun hold => ?_
  exact mem_evictLoop _ _ hold

theorem mem_of_hit {slot : CacheSlot} {key : String} {entry : BlockEntry}
    (h : slot.hit key = some entry) : (key,entry) ∈ slot.blocks := by
  obtain ⟨hfound,-⟩ := Option.filter_eq_some_iff.mp h
  obtain ⟨⟨key',entry'⟩,hfind,rfl⟩ := Option.map_eq_some_iff.mp hfound
  have hkey : key' = key := by simpa using List.find?_some hfind
  subst hkey
  exact List.mem_of_find?_eq_some hfind

end Blocks

theorem CacheInvariant.store (h : CacheInvariant s) {work : BlockWork} {block : CachedBlock}
    (hin : s.InTime work.node work.mediaId block.born) : CacheInvariant (s.store work block) := by
  refine h.setBlocks rfl fun key entry hentry => (mem_putL1 hentry).imp_right ?_
  rintro heq mediaId blockStart hkey
  obtain ⟨rfl,rfl⟩ := Prod.mk.inj heq
  obtain ⟨rfl,-⟩ := blockKey_inj.mp hkey
  exact hin

theorem CacheState.StoresInTime.inTime {work : BlockWork} {born : ℕ}
    (h : s.StoresInTime work born)
    (hover : s.AfterOver work.node work.mediaId work.began born) :
    s.InTime work.node work.mediaId born := by
  intro i invalidation hi hnode hmedia
  by_cases hdone : invalidation.OverBy work.began
  · exact hover i invalidation hi hnode hmedia hdone
  · exact h i invalidation hi hnode hmedia hdone

theorem CacheInvariant.afterOver_of_le (h : CacheInvariant s) {node : ℕ} {mediaId : String}
    {began born : ℕ} (hle : began ≤ born) : s.AfterOver node mediaId began born := by
  intro i invalidation hi hnode hmedia hover
  obtain ⟨returned,hphase,hlt⟩ := hover
  have hbegan := (h.invalidation_lt i invalidation hi).2 returned hphase
  omega

theorem Invalidation.OverBy.purged {invalidation : Invalidation} {moment : ℕ}
    (h : invalidation.OverBy moment) : invalidation.Purged :=
  Or.inr ⟨h.choose,h.choose_spec.1⟩

theorem CacheInvariant.setShared (h : CacheInvariant s)
    {redis : String → ℕ → Option CachedBlock} (index : String → List ℕ)
    (hredis : ∀ mediaId blockStart block, redis mediaId blockStart = some block →
      s.redis mediaId blockStart = some block ∨
        ∀ i invalidation, s.invalidations i = some invalidation →
          invalidation.mediaId = mediaId → invalidation.Purged →
            invalidation.began ≤ block.born) :
    CacheInvariant { s with redis := redis, index := index } := by
  refine ⟨h.invalidation_lt,h.work_lt,h.lookup_lt,h.registered,h.kept,?_,h.got,h.value,h.waiting,
    h.found,h.alone⟩
  intro mediaId blockStart block hblock
  rcases hredis mediaId blockStart block hblock with hold | hnew
  · exact h.shared mediaId blockStart block hold
  · exact hnew

theorem CacheInvariant.endWork (h : CacheInvariant s) {w : ℕ} {work : BlockWork}
    (hwork : s.works w = some work) (hnot : ∀ born, work.phase ≠ .fetching born)
    (halone : s.EndsAlone w work) {phase : WorkPhase} (hopen : phase.isOpen = false)
    (hvalue : ∀ block, phase.value? = some block → work.phase.value? = some block ∨
      s.InTime work.node work.mediaId block.born) :
    CacheInvariant ((s.deregister work).setPhase w work phase) := by
  have hgone : CacheInvariant (s.deregister work) := by
    refine h.deregister fun w' other born hreg hother hborn => ?_
    obtain rfl := halone w' other born hreg hother hborn
    obtain rfl : work = other := Option.some.inj (hwork.symm.trans hother)
    exact hnot born hborn
  refine hgone.setPhase hwork (fun block hblock => ?_) (fun born hborn => ?_) hvalue
    fun _ hreg => ?_
  · simp [hblock,WorkPhase.isOpen] at hopen
  · simp [hborn,WorkPhase.isOpen] at hopen
  · simp [CacheState.deregister,CacheState.setSlot,CacheSlot.register] at hreg

theorem setPhase_deregister_setPhase (s : CacheState) (w : ℕ) (work : BlockWork)
    (before phase : WorkPhase) :
    ((s.setPhase w work before).deregister { work with phase := before }).setPhase w
      { work with phase := before } phase = (s.deregister work).setPhase w work phase := by
  simp [CacheState.setPhase,CacheState.deregister,CacheState.setSlot,BlockWork.key]

theorem CacheInvariant.workStep (h : CacheInvariant s) {w now : ℕ} {work : BlockWork}
    (hwork : s.works w = some work) (hnow : now < s.moment) (hbegan : work.began ≤ now)
    {a : WorkStep} (hguard : s.WorkGuard w work a)
    (hs' : WebSyncPlay.workStep s now w work a = some s') : CacheInvariant s' := by
  cases a with
  | getBlock =>
    rw [WebSyncPlay.workStep] at hs'
    split at hs'
    · rename_i hphase
      cases hs'
      refine h.setPhase hwork (fun block hblock => ?_) nofun nofun nofun
      intro i invalidation hi hnode hmedia hover
      exact h.shared _ _ block (WorkPhase.got.inj hblock) i invalidation hi hmedia hover.purged
    · cases hs'
  | gotBlock =>
    rw [WebSyncPlay.workStep] at hs'
    split at hs'
    · rename_i block hphase
      cases hs'
      obtain ⟨hintime,halone⟩ := hguard.1 block hphase
      have hin := hintime.inTime (h.got w work block hwork hphase)
      have halone' : (s.store work block).EndsAlone w work := by
        intro w' other born hreg
        refine halone w' other born ?_
        simpa [CacheState.store,CacheState.setSlot,CacheSlot.putL1,CacheSlot.touch,
          CacheSlot.evictIfNeeded] using hreg
      refine (h.store hin).endWork hwork (fun born hborn => ?_) halone' rfl fun found hfound =>
        Or.inr ?_
      · rw [hphase] at hborn
        cases hborn
      · cases hfound
        exact hin
    · rename_i hphase
      cases hs'
      exact h.setPhase hwork nofun (fun born hborn => by
        cases hborn
        exact ⟨hbegan,hnow,hguard.2 hphase⟩) nofun nofun
    · cases hs'
  | fetched bytes =>
    rw [WebSyncPlay.workStep] at hs'
    split at hs'
    · rename_i born hphase
      cases hs'
      have hle := ((h.work_lt w work hwork).2 born hphase).1
      have hin := (hguard born hphase).inTime (h.afterOver_of_le hle)
      refine (h.store hin).setPhase hwork nofun nofun (fun block hblock => Or.inr ?_) nofun
      cases hblock
      exact hin
    · cases hs'
  | fetchFails =>
    rw [WebSyncPlay.workStep] at hs'
    split at hs'
    · rename_i born hphase
      cases hs'
      have hbefore : CacheInvariant (s.setPhase w work .getting) :=
        h.setPhase hwork nofun nofun nofun nofun
      have hwork' : (s.setPhase w work .getting).works w =
          some { work with phase := .getting } := by
        simp [CacheState.setPhase]
      have halone' : (s.setPhase w work .getting).EndsAlone w { work with phase := .getting } := by
        intro w' other born' hreg hother hborn'
        rcases works_setPhase hother with ⟨rfl,-⟩ | ⟨-,hother⟩
        · rfl
        · exact hguard w' other born' hreg hother hborn'
      have hend := @CacheInvariant.endWork _ hbefore w _ hwork' nofun halone' .failed rfl nofun
      rwa [setPhase_deregister_setPhase] at hend
    · cases hs'
  | setBlock =>
    rw [WebSyncPlay.workStep] at hs'
    split at hs'
    · rename_i block hphase
      cases hs'
      have hnext : CacheInvariant (s.setPhase w work (.adding block)) :=
        h.setPhase hwork nofun nofun (fun found hfound => Or.inl (by rw [hphase]; exact hfound))
          nofun
      refine hnext.setShared s.index fun mediaId blockStart found hfound => ?_
      by_cases hmedia : mediaId = work.mediaId
      · by_cases hstart : blockStart = work.blockStart
        · subst hmedia hstart
          have hsame : block = found := by simpa using hfound
          subst hsame
          exact Or.inr fun i invalidation hi hm hpurged =>
            hguard block hphase i invalidation hi hm hpurged
        · subst hmedia
          left
          simpa [CacheState.setPhase,hstart] using hfound
      · left
        simpa [CacheState.setPhase,hmedia] using hfound
    · cases hs'
  | addIndex =>
    rw [WebSyncPlay.workStep] at hs'
    split at hs'
    · rename_i block hphase
      cases hs'
      have hnext : CacheInvariant (s.setPhase w work (.expiring block)) :=
        h.setPhase hwork nofun nofun (fun found hfound => Or.inl (by rw [hphase]; exact hfound))
          nofun
      exact hnext.setShared _ fun _ _ _ hfound => Or.inl hfound
    · cases hs'
  | expireIndex =>
    rw [WebSyncPlay.workStep] at hs'
    split at hs'
    · rename_i block hphase
      cases hs'
      refine h.setPhase hwork nofun nofun (fun found hfound => Or.inl ?_) nofun
      rw [hphase]
      exact hfound
    · cases hs'
  | finish =>
    rw [WebSyncPlay.workStep] at hs'
    split at hs'
    · rename_i block hphase
      cases hs'
      refine h.endWork hwork (fun born hborn => ?_) hguard rfl fun found hfound => Or.inl ?_
      · rw [hphase] at hborn
        cases hborn
      · rw [hphase]
        exact hfound
    · cases hs'

theorem invalidations_setInvalidation {i j : ℕ} {invalidation found : Invalidation}
    {phase : InvalidationPhase}
    (h : (s.setInvalidation i invalidation phase).invalidations j = some found) :
    j = i ∧ found = { invalidation with phase := phase } ∨
      j ≠ i ∧ s.invalidations j = some found := by
  by_cases hj : j = i
  · subst hj
    left
    simpa [CacheState.setInvalidation,eq_comm] using h
  · right
    simpa [CacheState.setInvalidation,hj] using h

theorem CacheState.EachInvalidation.of_setInvalidation {i : ℕ} {invalidation : Invalidation}
    (hi : s.invalidations i = some invalidation) {phase : InvalidationPhase} {node : ℕ}
    {mediaId : String} {P : Invalidation → Prop}
    (hP : P { invalidation with phase := phase } → P invalidation)
    (h : (s.setInvalidation i invalidation phase).EachInvalidation node mediaId P) :
    s.EachInvalidation node mediaId P := by
  intro j found hj hnode hmedia
  by_cases hsame : j = i
  · subst hsame
    obtain rfl : invalidation = found := Option.some.inj (hi.symm.trans hj)
    have hnew : (s.setInvalidation j invalidation phase).invalidations j =
        some { invalidation with phase := phase } := by
      simp [CacheState.setInvalidation]
    exact hP (h j _ hnew hnode hmedia)
  · refine h j found ?_ hnode hmedia
    simpa [CacheState.setInvalidation,hsame] using hj

theorem CacheState.EachInvalidation.to_setInvalidation {i : ℕ} {invalidation : Invalidation}
    (hi : s.invalidations i = some invalidation) {phase : InvalidationPhase} {node : ℕ}
    {mediaId : String} {P : Invalidation → Prop}
    (hP : P invalidation → P { invalidation with phase := phase })
    (h : s.EachInvalidation node mediaId P) :
    (s.setInvalidation i invalidation phase).EachInvalidation node mediaId P := by
  intro j found hj hnode hmedia
  rcases invalidations_setInvalidation hj with ⟨rfl,rfl⟩ | ⟨-,hj⟩
  · exact hP (h j invalidation hi hnode hmedia)
  · exact h j found hj hnode hmedia

theorem OverBy_of_setPhase {invalidation : Invalidation} {phase : InvalidationPhase}
    {now began : ℕ} (hbegan : began ≤ now) (hreturned : ∀ r, phase = .returned r → r = now) :
    ¬({ invalidation with phase := phase } : Invalidation).OverBy began := by
  rintro ⟨r,hphase,hlt⟩
  have hr := hreturned r hphase
  omega

theorem CacheInvariant.setInvalidation (h : CacheInvariant s) {i now : ℕ}
    {invalidation : Invalidation} (hi : s.invalidations i = some invalidation)
    {phase : InvalidationPhase} (hnow : now+1 = s.moment)
    (hbegan : invalidation.began ≤ now) (hreturned : ∀ r, phase = .returned r → r = now)
    (hpurged : ({ invalidation with phase := phase } : Invalidation).Purged →
      invalidation.Purged ∨ ∀ blockStart block,
        s.redis invalidation.mediaId blockStart = some block → invalidation.began ≤ block.born) :
    CacheInvariant (s.setInvalidation i invalidation phase) := by
  have hafter : ∀ node mediaId began born, began < s.moment → s.AfterOver node mediaId began born →
      (s.setInvalidation i invalidation phase).AfterOver node mediaId began born := by
    intro node mediaId began born hlt hover
    refine hover.to_setInvalidation hi fun _ hdone => ?_
    exact (OverBy_of_setPhase (Nat.le_of_lt_succ (hlt.trans_eq hnow.symm)) hreturned hdone).elim
  have hin : ∀ node mediaId born, s.InTime node mediaId born →
      (s.setInvalidation i invalidation phase).InTime node mediaId born :=
    fun _ _ _ hold => hold.to_setInvalidation hi id
  constructor
  case invalidation_lt =>
    intro j found hj
    rcases invalidations_setInvalidation hj with ⟨rfl,rfl⟩ | ⟨-,hj⟩
    · refine ⟨(h.invalidation_lt j invalidation hi).1,fun r hr => ?_⟩
      obtain rfl := hreturned r hr
      refine ⟨hbegan,?_⟩
      show r < s.moment
      omega
    · exact h.invalidation_lt j found hj
  case work_lt => exact h.work_lt
  case lookup_lt => exact h.lookup_lt
  case registered => exact h.registered
  case kept =>
    intro node key entry hentry mediaId blockStart hkey
    exact hin _ _ _ (h.kept node key entry hentry mediaId blockStart hkey)
  case shared =>
    intro mediaId blockStart block hblock j found hj hmedia hdone
    rcases invalidations_setInvalidation hj with ⟨rfl,rfl⟩ | ⟨-,hj⟩
    · subst hmedia
      rcases hpurged hdone with hbefore | hyounger
      · exact h.shared _ blockStart block hblock j invalidation hi rfl hbefore
      · exact hyounger blockStart block hblock
    · exact h.shared mediaId blockStart block hblock j found hj hmedia hdone
  case got =>
    intro w work block hwork hphase
    exact hafter _ _ _ _ (h.work_lt w work hwork).1 (h.got w work block hwork hphase)
  case value =>
    intro w work block hwork hvalue hreg
    exact hin _ _ _ (h.value w work block hwork hvalue hreg)
  case waiting =>
    intro c lookup w hc hsource
    obtain ⟨work,hwork,hnode,hmedia,hblock⟩ := h.waiting c lookup w hc hsource
    refine ⟨work,hwork,hnode,hmedia,fun block hvalue => ?_⟩
    exact hafter _ _ _ _ (h.lookup_lt c lookup hc) (hblock block hvalue)
  case found =>
    intro c lookup block hc hsource
    exact hafter _ _ _ _ (h.lookup_lt c lookup hc) (h.found c lookup block hc hsource)
  case alone =>
    intro w work born hwork hborn hintime
    refine h.alone w work born hwork hborn ?_
    refine CacheState.EachInvalidation.of_setInvalidation hi ?_ hintime
    exact fun hle => hle

theorem CacheInvariant.invalidationStep (h : CacheInvariant s) {i now : ℕ}
    {invalidation : Invalidation} (hi : s.invalidations i = some invalidation)
    (hnow : now+1 = s.moment) (hbegan : invalidation.began ≤ now) {a : InvalidationStep}
    (hguard : CacheGuard s (.invalidation i a))
    (hs' : WebSyncPlay.invalidationStep s now i invalidation a = some s') :
    CacheInvariant s' := by
  cases a with
  | readIndex =>
    rw [WebSyncPlay.invalidationStep] at hs'
    split at hs'
    · cases hs'
      refine h.setInvalidation hi hnow hbegan nofun ?_
      rintro (hphase | ⟨r,hphase⟩)
      · cases hphase
      · cases hphase
    · cases hs'
  | deleteKeys =>
    rw [WebSyncPlay.invalidationStep] at hs'
    split at hs'
    · rename_i starts hphase
      cases hs'
      have hdeleted : CacheInvariant { s with
          redis := Function.update s.redis invalidation.mediaId fun start =>
            if start ∈ starts then none else s.redis invalidation.mediaId start
          index := Function.update s.index invalidation.mediaId [] } := by
        refine h.setShared _ fun mediaId blockStart block hblock => Or.inl ?_
        by_cases hmedia : mediaId = invalidation.mediaId
        · subst hmedia
          simp only [Function.update_self] at hblock
          exact (Option.ite_none_left_eq_some.mp hblock).2
        · simpa [hmedia] using hblock
      refine hdeleted.setInvalidation hi hnow hbegan nofun fun _ => Or.inr fun blockStart block
        hblock => ?_
      simp only [Function.update_self] at hblock
      obtain ⟨hunlisted,hstored⟩ := Option.ite_none_left_eq_some.mp hblock
      exact hguard invalidation starts hi hphase blockStart block hstored hunlisted
    · cases hs'
  | returns =>
    rw [WebSyncPlay.invalidationStep] at hs'
    split at hs'
    · rename_i hphase
      cases hs'
      refine h.setInvalidation hi hnow hbegan (fun r hr => ?_) fun _ => Or.inl (Or.inl hphase)
      exact (InvalidationPhase.returned.inj hr).symm
    · cases hs'

theorem CacheInvariant.invalidate (h : CacheInvariant s) {i now node : ℕ} {mediaId : String}
    (hi : s.invalidations i = none) (hnow : now < s.moment)
    (hborn : ∀ w work born, s.works w = some work → work.phase = .fetching born → born < now)
    (hguard : CacheGuard s (.invalidate i node mediaId)) :
    CacheInvariant ((s.setSlot node ((s.slots node).clearL1ForMedia mediaId)).setInvalidation i
      ⟨node,mediaId,now,.reading⟩ .reading) := by
  have hslots : ∀ other, ((s.setSlot node ((s.slots node).clearL1ForMedia mediaId)).setInvalidation
      i ⟨node,mediaId,now,.reading⟩ .reading).slots other =
        if other = node then (s.slots node).clearL1ForMedia mediaId else s.slots other := by
    intro other
    exact slots_setSlot s node other _
  have hown : ∀ blockStart, keyOfMedia mediaId (blockKey mediaId blockStart) = true := by
    intro blockStart
    simp [keyOfMedia,blockKey]
  have hreg : ∀ other key w, (((s.setSlot node
      ((s.slots node).clearL1ForMedia mediaId)).setInvalidation
        i ⟨node,mediaId,now,.reading⟩ .reading).slots other).inflight key = some w →
        (s.slots other).inflight key = some w ∧
          (other = node → keyOfMedia mediaId key = false) := by
    intro other key w hw
    rw [hslots] at hw
    by_cases hother : other = node
    · subst hother
      rw [if_pos rfl] at hw
      obtain ⟨hkey,hold⟩ := Option.ite_none_left_eq_some.mp hw
      exact ⟨hold,fun _ => by simpa using hkey⟩
    · rw [if_neg hother] at hw
      exact ⟨hw,fun heq => (hother heq).elim⟩
  have hafter : ∀ other media began born, s.AfterOver other media began born →
      ((s.setSlot node ((s.slots node).clearL1ForMedia mediaId)).setInvalidation i
        ⟨node,mediaId,now,.reading⟩ .reading).AfterOver other media began born := by
    intro other media began born hover j found hj hnode hmedia hdone
    rcases invalidations_setInvalidation hj with ⟨rfl,rfl⟩ | ⟨-,hj⟩
    · obtain ⟨r,hphase,-⟩ := hdone
      cases hphase
    · exact hover j found hj hnode hmedia hdone
  have hin : ∀ other media born, s.InTime other media born → (other = node → media ≠ mediaId) →
      ((s.setSlot node ((s.slots node).clearL1ForMedia mediaId)).setInvalidation i
        ⟨node,mediaId,now,.reading⟩ .reading).InTime other media born := by
    intro other media born hold hdiff j found hj hnode hmedia
    rcases invalidations_setInvalidation hj with ⟨rfl,rfl⟩ | ⟨-,hj⟩
    · exact (hdiff hnode.symm hmedia.symm).elim
    · exact hold j found hj hnode hmedia
  constructor
  case invalidation_lt =>
    intro j found hj
    rcases invalidations_setInvalidation hj with ⟨rfl,rfl⟩ | ⟨-,hj⟩
    · exact ⟨hnow,nofun⟩
    · exact h.invalidation_lt j found hj
  case work_lt => exact h.work_lt
  case lookup_lt => exact h.lookup_lt
  case registered => exact fun other key w hw => h.registered other key w (hreg other key w hw).1
  case kept =>
    intro other key entry hentry media blockStart hkey
    rw [hslots] at hentry
    by_cases hother : other = node
    · subst hother
      rw [if_pos rfl] at hentry
      obtain ⟨hold,hkept⟩ := List.mem_filter.mp hentry
      refine hin _ _ _ (h.kept other key entry hold media blockStart hkey) fun _ hmedia => ?_
      subst hmedia hkey
      simp [hown] at hkept
    · rw [if_neg hother] at hentry
      exact hin _ _ _ (h.kept other key entry hentry media blockStart hkey)
        fun heq => (hother heq).elim
  case shared =>
    intro media blockStart block hblock j found hj hmedia hdone
    rcases invalidations_setInvalidation hj with ⟨rfl,rfl⟩ | ⟨-,hj⟩
    · obtain hphase | ⟨r,hphase⟩ := hdone <;> cases hphase
    · exact h.shared media blockStart block hblock j found hj hmedia hdone
  case got =>
    intro w work block hwork hphase
    exact hafter _ _ _ _ (h.got w work block hwork hphase)
  case value =>
    intro w work block hwork hvalue hw
    obtain ⟨hold,hkept⟩ := hreg _ _ _ hw
    refine hin _ _ _ (h.value w work block hwork hvalue hold) fun hnode hmedia => ?_
    have hgone := hkept hnode
    rw [BlockWork.key,hmedia,hown] at hgone
    cases hgone
  case waiting =>
    intro c lookup w hc hsource
    obtain ⟨work,hwork,hnode,hmedia,hblock⟩ := h.waiting c lookup w hc hsource
    exact ⟨work,hwork,hnode,hmedia,fun block hvalue => hafter _ _ _ _ (hblock block hvalue)⟩
  case found =>
    intro c lookup block hc hsource
    exact hafter _ _ _ _ (h.found c lookup block hc hsource)
  case alone =>
    intro w work born hwork hphase hintime
    have hold : s.InTime work.node work.mediaId born := by
      intro j found hj hnode hmedia
      refine hintime j found ?_ hnode hmedia
      have hne : j ≠ i := by
        rintro rfl
        rw [hi] at hj
        cases hj
      simpa [CacheState.setInvalidation,CacheState.setSlot,hne] using hj
    have hwas := h.alone w work born hwork hphase hold
    rw [hslots]
    by_cases hnode : work.node = node
    · subst hnode
      rw [if_pos rfl]
      -- a fetch of the media itself began before the invalidation
      have hmedia : work.mediaId ≠ mediaId := by
        rintro rfl
        have hle := hintime i ⟨work.node,work.mediaId,now,.reading⟩
          (by simp [CacheState.setInvalidation]) rfl rfl
        exact absurd (hborn w work born hwork hphase) (Nat.not_lt.mpr hle)
      have hkey : keyOfMedia mediaId work.key = false := by
        by_contra hkey
        exact hmedia (hguard w work born hwork hphase rfl hwas (by simpa using hkey))
      simpa [CacheSlot.clearL1ForMedia,hkey] using hwas
    · rw [if_neg hnode]
      exact hwas

theorem CacheInvariant.answerLookup (h : CacheInvariant s) (c : ℕ) {lookup : BlockLookup}
    (hbegan : lookup.began < s.moment)
    (hfound : ∀ block, lookup.source = .inl block →
      s.AfterOver lookup.node lookup.mediaId lookup.began block.born)
    (hwaiting : ∀ w, lookup.source = .inr w → ∃ work, s.works w = some work ∧
      work.node = lookup.node ∧ work.mediaId = lookup.mediaId ∧
        ∀ block, work.phase.value? = some block →
          s.AfterOver lookup.node lookup.mediaId lookup.began block.born) :
    CacheInvariant (s.answerLookup c lookup) := by
  have hcases : ∀ c' other, (s.answerLookup c lookup).lookups c' = some other →
      other = lookup ∨ s.lookups c' = some other := by
    intro c' other hc'
    by_cases hsame : c' = c
    · subst hsame
      left
      simpa [CacheState.answerLookup,eq_comm] using hc'
    · right
      simpa [CacheState.answerLookup,hsame] using hc'
  refine ⟨h.invalidation_lt,h.work_lt,fun c' other hc' => ?_,h.registered,h.kept,h.shared,h.got,
    h.value,fun c' other w hc' hsource => ?_,fun c' other block hc' hsource => ?_,h.alone⟩
  · rcases hcases c' other hc' with rfl | hold
    · exact hbegan
    · exact h.lookup_lt c' other hold
  · rcases hcases c' other hc' with rfl | hold
    · exact hwaiting w hsource
    · exact h.waiting c' other w hold hsource
  · rcases hcases c' other hc' with rfl | hold
    · exact hfound block hsource
    · exact h.found c' other block hold hsource

theorem CacheInvariant.beginWork (h : CacheInvariant s) {w : ℕ} {work : BlockWork}
    (hfresh : s.works w = none) (hbegan : work.began < s.moment)
    (hfree : (s.slots work.node).inflight work.key = none) :
    CacheInvariant ((s.setPhase w work .getting).setSlot work.node
      ((s.slots work.node).register work.key (some w))) := by
  have hreg : ∀ other key w', (((s.setPhase w work .getting).setSlot work.node
      ((s.slots work.node).register work.key (some w))).slots other).inflight key = some w' →
        other = work.node ∧ key = work.key ∧ w' = w ∨
          (s.slots other).inflight key = some w' := by
    intro other key w' hw'
    rw [slots_setSlot] at hw'
    by_cases hother : other = work.node
    · subst hother
      by_cases hkey : key = work.key
      · left
        simpa [CacheSlot.register,hkey,eq_comm] using hw'
      · right
        simpa [CacheSlot.register,hkey] using hw'
    · rw [if_neg hother] at hw'
      exact Or.inr hw'
  have hne : ∀ {w' found}, s.works w' = some found → w' ≠ w := by
    rintro w' found hw' rfl
    rw [hfresh] at hw'
    cases hw'
  have hkeeps : ∀ {w' found}, s.works w' = some found → (s.setPhase w work .getting).works w' =
      some found := by
    intro w' found hw'
    simpa [CacheState.setPhase,hne hw'] using hw'
  constructor
  case invalidation_lt => exact h.invalidation_lt
  case work_lt =>
    intro w' found hw'
    rcases works_setPhase hw' with ⟨rfl,rfl⟩ | ⟨-,hw'⟩
    · exact ⟨hbegan,nofun⟩
    · exact h.work_lt w' found hw'
  case lookup_lt => exact h.lookup_lt
  case registered =>
    intro other key w' hw'
    rcases hreg other key w' hw' with ⟨rfl,rfl,rfl⟩ | hold
    · exact ⟨{ work with phase := .getting },by simp [CacheState.setPhase,CacheState.setSlot],
        rfl,rfl,rfl⟩
    · obtain ⟨found,hfound,hrest⟩ := h.registered other key w' hold
      exact ⟨found,hkeeps hfound,hrest⟩
  case kept =>
    intro other key entry hentry
    refine h.kept other key entry ?_
    rw [slots_setSlot] at hentry
    by_cases hother : other = work.node
    · subst hother
      rwa [if_pos rfl] at hentry
    · rwa [if_neg hother] at hentry
  case shared => exact h.shared
  case got =>
    intro w' found block hw' hphase
    rcases works_setPhase hw' with ⟨rfl,rfl⟩ | ⟨-,hw'⟩
    · cases hphase
    · exact h.got w' found block hw' hphase
  case value =>
    intro w' found block hw' hvalue hin
    rcases works_setPhase hw' with ⟨rfl,rfl⟩ | ⟨hdiff,hw'⟩
    · cases hvalue
    · rcases hreg _ _ _ hin with ⟨-,-,hsame⟩ | hold
      · exact (hdiff hsame).elim
      · exact h.value w' found block hw' hvalue hold
  case waiting =>
    intro c lookup w' hc hsource
    obtain ⟨found,hfound,hrest⟩ := h.waiting c lookup w' hc hsource
    exact ⟨found,hkeeps hfound,hrest⟩
  case found => exact h.found
  case alone =>
    intro w' found born hw' hborn hin
    rcases works_setPhase hw' with ⟨rfl,rfl⟩ | ⟨hdiff,hw'⟩
    · cases hborn
    · have hold := h.alone w' found born hw' hborn hin
      rw [slots_setSlot]
      by_cases hnode : found.node = work.node
      · have hkey : found.key ≠ work.key := by
          intro hkey
          rw [hnode,hkey,hfree] at hold
          cases hold
        rw [if_pos hnode]
        rw [hnode] at hold
        simpa [CacheSlot.register,hkey] using hold
      · rw [if_neg hnode]
        exact hold

theorem CacheState.InTime.afterOver {node : ℕ} {mediaId : String} {born : ℕ}
    (h : s.InTime node mediaId born) (moment : ℕ) : s.AfterOver node mediaId moment born :=
  fun i invalidation hi hnode hmedia _ => h i invalidation hi hnode hmedia

theorem CacheInvariant.lookupStep (h : CacheInvariant s) {c node now : ℕ} {mediaId : String}
    {blockStart w : ℕ} (hnow : now < s.moment)
    (hs' : WebSyncPlay.lookupStep s now c node mediaId blockStart w = some s') :
    CacheInvariant s' := by
  rw [WebSyncPlay.lookupStep] at hs'
  split at hs'
  · cases hs'
  · rename_i hfresh
    obtain ⟨-,hwork⟩ := not_or.mp hfresh
    dsimp only at hs'
    split at hs'
    · rename_i entry hhit
      cases hs'
      have hentry := mem_of_hit hhit
      have hin := h.kept node _ entry hentry mediaId blockStart rfl
      have htouched : CacheInvariant (s.setSlot node
          ((s.slots node).touch (blockKey mediaId blockStart) entry)) := by
        refine h.setBlocks rfl fun key kept hkept => Or.inl ?_
        rcases mem_touch hkept with hold | hsame
        · exact hold
        · rwa [hsame]
      refine htouched.answerLookup c hnow (fun block hblock => ?_) nofun
      cases hblock
      exact hin.afterOver now
    · split at hs'
      · rename_i pending hpending
        cases hs'
        refine h.answerLookup c hnow nofun fun w' hw' => ?_
        cases hw'
        obtain ⟨work,hfound,rfl,hkey,-⟩ := h.registered node _ pending hpending
        obtain ⟨rfl,rfl⟩ := blockKey_inj.mp hkey
        refine ⟨work,hfound,rfl,rfl,fun block hvalue => ?_⟩
        exact (h.value pending work block hfound hvalue hpending).afterOver now
      · rename_i hfree
        cases hs'
        have hbegun := @CacheInvariant.beginWork s h w ⟨node,mediaId,blockStart,now,.getting⟩
          (by simpa using hwork) hnow hfree
        refine hbegun.answerLookup c hnow nofun fun w' hw' => ?_
        cases hw'
        refine ⟨⟨node,mediaId,blockStart,now,.getting⟩,?_,rfl,rfl,nofun⟩
        simp [CacheState.setPhase,CacheState.setSlot]

theorem CacheInvariant.step (h : CacheInvariant s) {a : CacheStep} (hguard : CacheGuard s a)
    (hs' : cacheStep s a = some s') : CacheInvariant s' := by
  have hlater := h.later
  cases a with
  | lookup c node mediaId blockStart w => exact hlater.lookupStep (Nat.lt_succ_self _) hs'
  | work w a =>
    obtain ⟨work,hwork,hs'⟩ := Option.bind_eq_some_iff.mp hs'
    have hbegan := (h.work_lt w work hwork).1.le
    exact hlater.workStep hwork (Nat.lt_succ_self _) hbegan (hguard work hwork) hs'
  | invalidate i node mediaId =>
    rw [cacheStep,cacheCore] at hs'
    split at hs'
    · cases hs'
    · rename_i hi
      cases hs'
      exact hlater.invalidate hi (Nat.lt_succ_self _)
        (fun w work born hwork hborn => ((h.work_lt w work hwork).2 born hborn).2) hguard
  | invalidation i a =>
    obtain ⟨invalidation,hi,hs'⟩ := Option.bind_eq_some_iff.mp hs'
    have hbegan := (h.invalidation_lt i invalidation hi).1.le
    exact hlater.invalidationStep hi rfl hbegan (by cases a <;> exact hguard) hs'
  | blockExpires mediaId blockStart =>
    cases hs'
    refine hlater.setShared _ fun media start block hblock => Or.inl ?_
    by_cases hmedia : media = mediaId
    · subst hmedia
      by_cases hstart : start = blockStart
      · simp [hstart] at hblock
      · simpa [hstart] using hblock
    · simpa [hmedia] using hblock
  | indexExpires mediaId =>
    cases hs'
    exact hlater.setShared _ fun _ _ _ hblock => Or.inl hblock
  | tick node ms =>
    cases hs'
    exact hlater.setBlocks rfl fun _ _ hentry => Or.inl hentry

theorem cacheInvariant_of_reachable (h : (cacheSystem.restrict CacheGuard).Reachable s) :
    CacheInvariant s := by
  refine h.invariant CacheInvariant ?_ ?_
  · rintro s rfl
    exact cacheInvariant_idle
  · rintro s a s' - hinv ⟨hguard,hstep⟩
    exact hinv.step hguard hstep

end Invariant

section Invalidation

namespace CacheState

/-- No call of a media returns what was fetched before an invalidation that had returned, on the
node, when it began. -/
def BytesFresh (s : CacheState) : Prop :=
  ∀ c lookup block, s.lookups c = some lookup → s.result lookup = some block →
    s.EachInvalidation lookup.node lookup.mediaId fun invalidation =>
      invalidation.OverBy lookup.began → invalidation.began ≤ block.born

/-- Of the fetches of a block that began after the last invalidation on the node, one at most is
under way. -/
def OneFetch (s : CacheState) : Prop :=
  ∀ w w' work work' born born', s.works w = some work → s.works w' = some work' →
    work.phase = .fetching born → work'.phase = .fetching born' → work.node = work'.node →
    work.mediaId = work'.mediaId → work.blockStart = work'.blockStart →
    s.EachInvalidation work.node work.mediaId (fun invalidation => invalidation.began ≤ born) →
    s.EachInvalidation work'.node work'.mediaId (fun invalidation => invalidation.began ≤ born') →
      w = w'

end CacheState

variable {s : CacheState}

theorem CacheInvariant.bytesFresh (h : CacheInvariant s) : s.BytesFresh := by
  intro c lookup block hc hblock
  obtain ⟨node,mediaId,began,source⟩ := lookup
  cases source with
  | inl found =>
    obtain rfl : found = block := Option.some.inj hblock
    exact h.found c _ found hc rfl
  | inr w =>
    obtain ⟨work,hwork,hnode,hmedia,hvalue⟩ := h.waiting c _ w hc rfl
    have hdone : work.phase = .done block := by
      simp only [CacheState.result,hwork,Option.map_some] at hblock
      split at hblock
      · rename_i heq
        rw [Option.some.inj heq,Option.some.inj hblock]
      · cases hblock
    refine hvalue block ?_
    rw [hdone]
    rfl

theorem CacheInvariant.oneFetch (h : CacheInvariant s) : s.OneFetch := by
  intro w w' work work' born born' hwork hwork' hphase hphase' hnode hmedia hstart hin hin'
  have hreg := h.alone w work born hwork hphase hin
  have hreg' := h.alone w' work' born' hwork' hphase' hin'
  have hkey : work.key = work'.key := blockKey_inj.mpr ⟨hmedia,hstart⟩
  rw [hnode,hkey,hreg'] at hreg
  exact (Option.some.inj hreg).symm

/-- Block cache invalidation holds as long as lookups that an invalidation finds under way leave
the cache, Redis and the registrations of younger ones alone. -/
theorem block_cache_invalidation (h : (cacheSystem.restrict CacheGuard).Reachable s) :
    s.BytesFresh ∧ s.OneFetch := by
  have hinv := cacheInvariant_of_reachable h
  exact ⟨hinv.bytesFresh,hinv.oneFetch⟩

theorem block_cache_invalidation_refetched :
    ∃ s : CacheState, (s.BytesFresh ∧ s.OneFetch) ∧ (s.lookups 0).bind s.result = some ⟨[7],6⟩ := by
  have next : ∀ {s s'} a, (cacheSystem.restrict CacheGuard).Reachable s → CacheGuard s a →
      cacheStep s a = some s' → (cacheSystem.restrict CacheGuard).Reachable s' :=
    fun a h hguard hs' => h.step ⟨hguard,hs'⟩
  have h1 := next (.invalidate 0 0 "a") (.init rfl) (fun w work born hw => nomatch hw) rfl
  have h2 := next (.invalidation 0 .readIndex) h1 trivial rfl
  have h3 := next (.invalidation 0 .deleteKeys) h2 (fun _ _ _ _ _ _ hblock => nomatch hblock) rfl
  have h4 := next (.invalidation 0 .returns) h3 trivial rfl
  have h5 := next (.lookup 0 0 "a" 0 0) h4 trivial rfl
  have h6 := next (.work 0 .getBlock) h5 (fun _ _ => trivial) rfl
  have h7 := next (.work 0 .gotBlock) h6 (fun work hwork => by
    cases hwork
    exact ⟨nofun,fun _ => rfl⟩) rfl
  have h8 := next (.work 0 (.fetched [7])) h7 (fun _ _ _ _ i invalidation hi _ _ _ => by
    by_cases hzero : i = 0
    · subst hzero
      cases hi
      exact Nat.zero_le _
    · simp [CacheState.setPhase,CacheState.setSlot,CacheState.answerLookup,
        CacheState.setInvalidation,CacheState.idle,hzero] at hi) rfl
  have h9 := next (.work 0 .setBlock) h8 (fun _ _ _ _ i invalidation hi _ _ => by
    by_cases hzero : i = 0
    · subst hzero
      cases hi
      exact Nat.zero_le _
    · simp [CacheState.setPhase,CacheState.setSlot,CacheState.answerLookup,CacheState.store,
        CacheState.setInvalidation,CacheState.idle,hzero] at hi) rfl
  have h10 := next (.work 0 .addIndex) h9 (fun _ _ => trivial) rfl
  have h11 := next (.work 0 .expireIndex) h10 (fun _ _ => trivial) rfl
  have h12 := next (.work 0 .finish) h11 (fun work hwork w' other born hreg _ _ => by
    cases hwork
    exact (Option.some.inj hreg).symm) rfl
  exact ⟨_,block_cache_invalidation h12,rfl⟩

/-- A fetch under way when an invalidation runs puts its bytes into the cache after it, and its
failure unregisters the fetch that took its place. -/
theorem late_fetch_outlives_invalidation :
    (∃ s, cacheSystem.Reachable s ∧ ¬s.BytesFresh) ∧
      ∃ s, cacheSystem.Reachable s ∧ ¬s.OneFetch := by
  constructor
  · have hrun : (TransitionSystem.runSteps cacheStep .idle [.lookup 0 0 "a" 0 0,.work 0 .getBlock,
        .work 0 .gotBlock,.invalidate 0 0 "a",.invalidation 0 .readIndex,
        .invalidation 0 .deleteKeys,.invalidation 0 .returns,.work 0 (.fetched [7]),
        .lookup 1 0 "a" 0 1]).map (fun s => (s.lookups 1,s.invalidations 0)) =
        some (some ⟨0,"a",8,.inl ⟨[7],2⟩⟩,some ⟨0,"a",3,.returned 6⟩) := by decide +kernel
    obtain ⟨s,hs,heq⟩ := Option.map_eq_some_iff.mp hrun
    obtain ⟨hlookup,hinvalidation⟩ := Prod.mk.inj heq
    refine ⟨s,.of_runSteps (fun _ _ _ h => h) _ (.init rfl) hs,fun hfresh => ?_⟩
    have hle := hfresh 1 _ ⟨[7],2⟩ hlookup rfl 0 _ hinvalidation rfl rfl ⟨6,rfl,by decide⟩
    exact absurd hle (by decide)
  · have hrun : (TransitionSystem.runSteps cacheStep .idle [.lookup 0 0 "a" 0 0,.work 0 .getBlock,
        .work 0 .gotBlock,.invalidate 0 0 "a",.lookup 1 0 "a" 0 1,.work 1 .getBlock,
        .work 1 .gotBlock,.work 0 .fetchFails,.lookup 2 0 "a" 0 2,.work 2 .getBlock,
        .work 2 .gotBlock]).map (fun s => (s.works 1,s.works 2,s.invalidations)) =
        some (some ⟨0,"a",0,4,.fetching 6⟩,some ⟨0,"a",0,8,.fetching 10⟩,
          Function.update (fun _ => none) 0 (some ⟨0,"a",3,.reading⟩)) := by rfl
    obtain ⟨s,hs,heq⟩ := Option.map_eq_some_iff.mp hrun
    obtain ⟨hfirst,heq⟩ := Prod.mk.inj heq
    obtain ⟨hsecond,hinvalidations⟩ := Prod.mk.inj heq
    refine ⟨s,.of_runSteps (fun _ _ _ h => h) _ (.init rfl) hs,fun hone => ?_⟩
    have hin : ∀ born, 3 ≤ born → s.EachInvalidation 0 "a" fun invalidation =>
        invalidation.began ≤ born := by
      intro born hborn i invalidation hi _ _
      rw [hinvalidations] at hi
      by_cases hzero : i = 0
      · subst hzero
        cases hi
        exact hborn
      · rw [Function.update_of_ne hzero] at hi
        cases hi
    have hsame := hone 1 2 _ _ 6 10 hfirst hsecond rfl rfl rfl rfl rfl (hin 6 (by decide))
      (hin 10 (by decide))
    exact absurd hsame (by decide)

end Invalidation

end WebSyncPlay
