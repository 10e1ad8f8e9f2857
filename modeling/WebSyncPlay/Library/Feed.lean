import Mathlib

/-! Items that come out one by one. A receiver gets its own as they come out, and the others by a
log that it reads through a queue and that may lose some on the way. -/
namespace Library

variable {ι : Type*} {own : ι → Bool} {issued log queue received : List ι}

/-- What was received, and what is still to be read, against the orders of the issue and of the
log. -/
structure FeedOk (own : ι → Bool) (issued log queue received : List ι) : Prop where
  ownOrder : (received.filter own).Sublist issued
  otherOrder : ((received.filter fun i => !own i) ++ queue).Sublist log

namespace FeedOk

theorem start (own : ι → Bool) : FeedOk own [] [] [] [] where
  ownOrder := List.Sublist.refl []
  otherOrder := List.Sublist.refl []

theorem issue (h : FeedOk own issued log queue received) (i : ι) :
    FeedOk own (issued ++ [i]) log queue received where
  ownOrder := h.ownOrder.trans (List.sublist_append_left issued [i])
  otherOrder := h.otherOrder

theorem receiveOwn (h : FeedOk own issued log queue received) {i : ι} (hi : own i = true) :
    FeedOk own (issued ++ [i]) log queue (received ++ [i]) where
  ownOrder := by
    have hfilter : (received ++ [i]).filter own = received.filter own ++ [i] := by simp [hi]
    rw [hfilter]
    exact h.ownOrder.append_right [i]
  otherOrder := by
    have hfilter : ((received ++ [i]).filter fun j => !own j) = received.filter fun j => !own j := by
      simp [hi]
    rw [hfilter]
    exact h.otherOrder

theorem append (h : FeedOk own issued log queue received) {i : ι} {added : List ι}
    (hadded : added.Sublist [i]) : FeedOk own issued (log ++ [i]) (queue ++ added) received where
  ownOrder := h.ownOrder
  otherOrder := by
    rw [← List.append_assoc]
    exact h.otherOrder.append hadded

theorem drop {i : ι} (h : FeedOk own issued log (i :: queue) received) :
    FeedOk own issued log queue received where
  ownOrder := h.ownOrder
  otherOrder := ((List.sublist_cons_self i queue).append_left _).trans h.otherOrder

theorem receive {i : ι} (h : FeedOk own issued log (i :: queue) received) (hi : own i = false) :
    FeedOk own issued log queue (received ++ [i]) where
  ownOrder := by
    have hfilter : (received ++ [i]).filter own = received.filter own := by simp [hi]
    rw [hfilter]
    exact h.ownOrder
  otherOrder := by
    have hfilter : ((received ++ [i]).filter fun j => !own j) =
        (received.filter fun j => !own j) ++ [i] := by simp [hi]
    rw [hfilter,List.append_assoc]
    exact h.otherOrder

theorem nodup (h : FeedOk own issued log queue received) (hissued : issued.Nodup)
    (hlog : log.Nodup) : received.Nodup := by
  classical
  rw [List.nodup_iff_count_le_one]
  intro i
  cases hi : own i with
  | true =>
    have hone := List.nodup_iff_count_le_one.mp (h.ownOrder.nodup hissued) i
    rwa [List.count_filter hi] at hone
  | false =>
    have hone := List.nodup_iff_count_le_one.mp
      (((List.sublist_append_left _ queue).trans h.otherOrder).nodup hlog) i
    rwa [List.count_filter (by simp [hi])] at hone

end FeedOk
end Library
