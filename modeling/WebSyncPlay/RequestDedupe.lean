import WebSyncPlay.SocketDispatch

/-! Runs of the request dedupe (`ws/request-dedupe.ts`): requests, and the timer that prunes. -/
namespace WebSyncPlay

open Library

/-- The map of the dedupe slot, the latest time read, the requests that came, and when each id was
last accepted. -/
structure DedupeRun where
  map : DedupeMap Unit
  clock : ℕ
  arrivals : List (RequestId × ℕ)
  accepted : RequestId → Option ℕ

inductive DedupeEvent
  | request (requestId : String) (now : ℕ)
  | pruneTimer (now : ℕ)

namespace DedupeRun

def initial : DedupeRun := ⟨.empty,0,[],fun _ => none⟩

def skips (r : DedupeRun) (requestId : String) (now : ℕ) : Bool :=
  (shouldSkipDuplicateRequest r.map now () requestId).1

/-- A request is not earlier than anything before it; the timer fires at any time. -/
def step (r : DedupeRun) : DedupeEvent → Option DedupeRun
  | .request requestId now =>
    if now < r.clock then none
    else some {
      map := (shouldSkipDuplicateRequest r.map now () requestId).2
      clock := now
      arrivals := r.arrivals ++ [(⟨requestId⟩,now)]
      accepted := if r.skips requestId now then r.accepted
        else Function.update r.accepted ⟨requestId⟩ (some now) }
  | .pruneTimer now => some { r with map := pruneExpired r.map now, clock := max r.clock now }

def idsWithin (r : DedupeRun) (t : ℕ) : Finset RequestId :=
  ((r.arrivals.filter fun a => t < a.2+dedupeWindowMs ∧ a.2 ≤ t).map Prod.fst).toFinset

/-- No window brings more ids than the map holds. -/
def Bounded (r : DedupeRun) : Prop := ∀ t, (r.idsWithin t).card ≤ maxEntries

end DedupeRun

def dedupeSystem : TransitionSystem DedupeRun DedupeEvent where
  init r := r = .initial
  step r e r' := r.step e = some r'

section Map

variable {S : Type*} {map : DedupeMap S} {now t : ℕ}

theorem liveSeen_pruneExpired_later (h : t ≤ now) (k : RequestId) :
    liveSeen (pruneExpired map t) now k = liveSeen map now k := by
  rw [liveSeen,pruneExpired,Record.get?_filter,Option.filter_filter,liveSeen]
  congr 1
  funext e
  cases hlive : e.live now with
  | true => simp [DedupeEntry.live_mono h hlive]
  | false => simp

theorem get?_shouldSkip {requestId : String} {sender : S} {k : RequestId} {e : DedupeEntry S}
    (h : (shouldSkipDuplicateRequest map now sender requestId).2.get? k = some e) :
    (k = ⟨requestId⟩ ∧ e = ⟨now,sender⟩) ∨ map.get? k = some e := by
  have hset : (map.set ⟨requestId⟩ ⟨now,sender⟩).get? k = some e →
      (k = ⟨requestId⟩ ∧ e = ⟨now,sender⟩) ∨ map.get? k = some e := by
    intro hget
    rw [Record.get?_set] at hget
    split at hget
    · rename_i hk
      exact Or.inl ⟨hk,(Option.some.inj hget).symm⟩
    · exact Or.inr hget
  rw [shouldSkipDuplicateRequest] at h
  split at h
  · exact Or.inr h
  · dsimp only at h
    split at h
    · have hget := Record.get?_drop_some _ _ _ _ h
      rw [pruneExpired,Record.get?_filter] at hget
      exact hset (Option.eq_some_of_filter_eq_some hget)
    · exact hset h

end Map

namespace DedupeRun

variable {r r' : DedupeRun} {now : ℕ} {requestId : String}

/-- The live entries are the ids accepted within the window. -/
structure Exact (r : DedupeRun) : Prop where
  seen : ∀ k, liveSeen r.map r.clock k =
    ((r.accepted k).map fun t => ⟨t,()⟩).filter (·.live r.clock)
  arrived : ∀ k e, r.map.get? k = some e → (k,e.seen) ∈ r.arrivals ∧ e.seen ≤ r.clock

theorem Exact.seen_later (h : Exact r) (hnow : r.clock ≤ now) (k : RequestId) :
    liveSeen r.map now k = ((r.accepted k).map fun t => ⟨t,()⟩).filter (·.live now) := by
  rw [liveSeen_later hnow,h.seen,Option.filter_filter]
  congr 1
  funext e
  cases hlive : e.live now with
  | true => simp [DedupeEntry.live_mono hnow hlive]
  | false => simp

theorem skips_iff : r.skips requestId now = true ↔ (liveSeen r.map now ⟨requestId⟩).isSome := by
  rw [skips,shouldSkipDuplicateRequest,liveSeen]
  cases hget : r.map.get? ⟨requestId⟩ with
  | none => simp; split <;> simp
  | some e =>
    cases hlive : e.live now with
    | true => simp [Option.filter,hlive]
    | false => simp [Option.filter,hlive]; split <;> simp

theorem Exact.skips_iff_accepted (h : Exact r) (hnow : r.clock ≤ now) :
    r.skips requestId now = true ↔
      ∃ t, r.accepted ⟨requestId⟩ = some t ∧ now < t+dedupeWindowMs := by
  rw [skips_iff,h.seen_later hnow]
  cases hlast : r.accepted ⟨requestId⟩ with
  | none => simp
  | some t =>
    have hlive : DedupeEntry.live now (⟨t,()⟩ : DedupeEntry Unit) = true ↔
        now < t+dedupeWindowMs := by
      have hpos : 0 < dedupeWindowMs := by decide
      rw [DedupeEntry.live,decide_eq_true_eq]
      change now-t < dedupeWindowMs ↔ now < t+dedupeWindowMs
      omega
    by_cases hin : now < t+dedupeWindowMs
    · simp [Option.filter,hlive.mpr hin,hin]
    · have hdead : DedupeEntry.live now (⟨t,()⟩ : DedupeEntry Unit) = false := by
        rw [← Bool.not_eq_true,hlive]
        exact hin
      simp [Option.filter,hdead,hin]

theorem Bounded.of_step {e : DedupeEvent} (hstep : r.step e = some r') (h : r'.Bounded) :
    r.Bounded := by
  cases e with
  | request requestId now =>
    rw [step] at hstep
    split at hstep
    · cases hstep
    · obtain rfl := Option.some.inj hstep
      intro t
      refine le_trans (Finset.card_le_card ?_) (h t)
      intro k hk
      simp only [idsWithin,List.mem_toFinset,List.mem_map,List.mem_filter] at hk ⊢
      obtain ⟨a,⟨ha,hin⟩,rfl⟩ := hk
      exact ⟨a,⟨List.mem_append_left _ ha,hin⟩,rfl⟩
  | pruneTimer now =>
    obtain rfl := Option.some.inj hstep
    exact h

/-- After the pruning that a full map calls for there is room, so the eviction loop stops at once. -/
theorem room_of_bounded (h : Exact r) (requestId : String) (hnow : r.clock ≤ now)
    (hbound : ({ r with arrivals := r.arrivals ++ [(⟨requestId⟩,now)] } : DedupeRun).Bounded) :
    (pruneExpired (r.map.set ⟨requestId⟩ ⟨now,()⟩) now).size ≤ maxEntries := by
  set kept := pruneExpired (r.map.set ⟨requestId⟩ ⟨now,()⟩) now with hkept
  have hcard : kept.size = kept.keys.toFinset.card := by
    have hnodup : kept.keys.Nodup := kept.nodup_keys
    rw [List.toFinset_card_of_nodup hnodup,Record.size,Record.keys,List.length_map]
  rw [hcard]
  refine le_trans (Finset.card_le_card ?_) (hbound now)
  intro k hk
  obtain ⟨e,he⟩ := (Record.mem_keys_iff kept k).mp (List.mem_toFinset.mp hk)
  rw [hkept,pruneExpired,Record.get?_filter,Option.filter_eq_some_iff,Record.get?_set] at he
  obtain ⟨hget,hlive⟩ := he
  have hpos : 0 < dedupeWindowMs := by decide
  have hseen : (k,e.seen) ∈ r.arrivals ++ [(⟨requestId⟩,now)] ∧ e.seen ≤ now := by
    split at hget
    · rename_i hk
      obtain rfl := Option.some.inj hget
      rw [hk]
      exact ⟨List.mem_append_right _ List.mem_cons_self,le_rfl⟩
    · obtain ⟨hin,hle⟩ := h.arrived k e hget
      exact ⟨List.mem_append_left _ hin,hle.trans hnow⟩
  simp only [idsWithin,List.mem_toFinset,List.mem_map,List.mem_filter,decide_eq_true_eq]
  refine ⟨(k,e.seen),⟨hseen.1,?_,hseen.2⟩,rfl⟩
  rw [DedupeEntry.live,decide_eq_true_eq] at hlive
  change now < e.seen+dedupeWindowMs
  omega

theorem exact_initial : Exact initial :=
  ⟨fun _ => rfl,fun _ _ he => by simp [initial] at he⟩

theorem Exact.request (h : Exact r) (hstep : r.step (.request requestId now) = some r')
    (hbound : r'.Bounded) : Exact r' := by
  rw [step] at hstep
  split at hstep
  · cases hstep
  rename_i hearly
  have hnow : r.clock ≤ now := not_lt.mp hearly
  obtain rfl := Option.some.inj hstep
  refine ⟨?_,?_⟩
  · intro k
    dsimp only
    cases hseen : (liveSeen r.map now ⟨requestId⟩).isSome with
    | true =>
      rw [if_pos (skips_iff.mpr hseen),shouldSkip_of_seen hseen]
      exact h.seen_later hnow k
    | false =>
      have hnone : liveSeen r.map now ⟨requestId⟩ = none := by simpa using hseen
      have hroom := room_of_bounded h requestId hnow hbound
      have hskips : ¬ r.skips requestId now = true := by
        rw [skips_iff,hseen]
        exact Bool.false_ne_true
      rw [if_neg hskips,(shouldSkip_of_not_seen hnone hroom).2 k]
      by_cases hk : k = ⟨requestId⟩
      · subst hk
        rw [if_pos rfl,Function.update_self]
        simp [Option.filter,DedupeEntry.live,dedupeWindowMs]
      · rw [if_neg hk,Function.update_of_ne hk]
        exact h.seen_later hnow k
  · intro k e he
    rcases get?_shouldSkip he with ⟨rfl,rfl⟩ | hget
    · exact ⟨List.mem_append_right _ List.mem_cons_self,le_rfl⟩
    · obtain ⟨hin,hle⟩ := h.arrived k e hget
      exact ⟨List.mem_append_left _ hin,hle.trans hnow⟩

theorem Exact.pruneTimer (h : Exact r) (t : ℕ) :
    Exact { r with map := pruneExpired r.map t, clock := max r.clock t } := by
  refine ⟨?_,?_⟩
  · intro k
    exact (liveSeen_pruneExpired_later (le_max_right _ _) k).trans
      (h.seen_later (le_max_left _ _) k)
  · intro k e he
    rw [pruneExpired,Record.get?_filter] at he
    obtain ⟨hin,hle⟩ := h.arrived k e (Option.eq_some_of_filter_eq_some he)
    exact ⟨hin,hle.trans (le_max_left _ _)⟩

theorem exact_of_reachable (h : dedupeSystem.Reachable r) : r.Bounded → Exact r := by
  refine h.invariant (fun r => r.Bounded → Exact r) ?_ ?_
  · rintro r rfl _
    exact exact_initial
  · intro r e r' _ hr hstep hbound
    have hexact := hr (hbound.of_step hstep)
    cases e with
    | request requestId now => exact hexact.request hstep hbound
    | pruneTimer t =>
      obtain rfl := Option.some.inj hstep
      exact hexact.pruneTimer t

end DedupeRun

/-- A request is skipped if and only if its id was last accepted within the window, however many ids
came before, as long as no window brings more of them than the map holds. -/
theorem request_dedupe_exact {r : DedupeRun} (h : dedupeSystem.Reachable r) (hbound : r.Bounded)
    {requestId : String} {now : ℕ} (hnow : r.clock ≤ now) :
    r.skips requestId now = true ↔
      ∃ t, r.accepted ⟨requestId⟩ = some t ∧ now < t+dedupeWindowMs :=
  (DedupeRun.exact_of_reachable h hbound).skips_iff_accepted hnow

/-- An id accepted at 0 and, once it had run out, at 4000, is skipped at 5000. -/
theorem request_dedupe_exact_again : ∃ r, dedupeSystem.Reachable r ∧ r.accepted ⟨"a"⟩ = some 4000 ∧
    r.skips "a" 5000 = true := by
  obtain ⟨r,hr,harrivals,hclock,haccepted⟩ : ∃ r, TransitionSystem.runSteps DedupeRun.step .initial
      [.request "a" 0,.request "b" 1000,.request "a" 2999,.request "a" 4000,.pruneTimer 4500] =
        some r ∧ r.arrivals.length = 4 ∧ r.clock = 4500 ∧ r.accepted ⟨"a"⟩ = some 4000 := by
    refine ⟨_,rfl,?_,?_,?_⟩ <;> decide
  have hreach : dedupeSystem.Reachable r := .of_runSteps (fun _ _ _ h => h) _ (.init rfl) hr
  have hbound : r.Bounded := by
    intro t
    calc (r.idsWithin t).card ≤ (List.map Prod.fst (r.arrivals.filter _)).length :=
          List.toFinset_card_le _
      _ ≤ r.arrivals.length := by rw [List.length_map]; exact List.length_filter_le _ _
      _ ≤ maxEntries := by rw [harrivals]; decide
  refine ⟨r,hreach,haccepted,?_⟩
  exact (request_dedupe_exact hreach hbound (by omega)).mpr ⟨4000,haccepted,by decide⟩

end WebSyncPlay
