import Mathlib.Data.Option.Basic
import Mathlib.Tactic.Common

/-! Leases: a store keeps a token for some time. Who takes the lease needs it free or lapsed,
who renews it or gives it back needs the token to be the stored one. -/
namespace Library

structure Lease (τ : Type*) where
  token : τ
  expiresAtMs : ℕ
  deriving DecidableEq

namespace Lease

variable {τ : Type*}

/-- The token that a reader sees: none once the lease has lapsed. -/
def seen (nowMs : ℕ) (stored : Option (Lease τ)) : Option τ :=
  match stored with
  | some lease => if nowMs < lease.expiresAtMs then some lease.token else none
  | none => none

theorem token_of_seen {nowMs : ℕ} {token : τ} {stored : Option (Lease τ)}
    (h : seen nowMs stored = some token) : stored.map Lease.token = some token := by
  cases stored with
  | none => simp [seen] at h
  | some lease =>
    by_cases hlive : nowMs < lease.expiresAtMs
    · simpa [seen,hlive] using h
    · simp [seen,hlive] at h

/-- What is stored after a successful acquire, `none` when a lease is in the way. -/
def acquire (nowMs ttlMs : ℕ) (token : τ) (stored : Option (Lease τ)) : Option (Lease τ) :=
  if (seen nowMs stored).isNone then some ⟨token,nowMs+ttlMs⟩ else none

theorem acquire_eq_some_iff {nowMs ttlMs : ℕ} {token : τ} {stored : Option (Lease τ)}
    {lease : Lease τ} : acquire nowMs ttlMs token stored = some lease ↔
      (∀ old, stored = some old → old.expiresAtMs ≤ nowMs) ∧ lease = ⟨token,nowMs+ttlMs⟩ := by
  cases stored with
  | none => simp [acquire,seen,eq_comm]
  | some old =>
    by_cases hlive : nowMs < old.expiresAtMs
    · simp [acquire,seen,hlive]
    · simp [acquire,seen,hlive,Nat.le_of_not_lt hlive,eq_comm]

variable [DecidableEq τ]

def renew (nowMs ttlMs : ℕ) (token : τ) (stored : Option (Lease τ)) : Option (Lease τ) :=
  if seen nowMs stored = some token then some ⟨token,nowMs+ttlMs⟩ else stored

def release (nowMs : ℕ) (token : τ) (stored : Option (Lease τ)) : Option (Lease τ) :=
  if seen nowMs stored = some token then none else stored

@[simp] theorem renew_token (nowMs ttlMs : ℕ) (token : τ) (stored : Option (Lease τ)) :
    (renew nowMs ttlMs token stored).map Lease.token = stored.map Lease.token := by
  by_cases h : seen nowMs stored = some token
  · simp [renew,h,token_of_seen h]
  · simp [renew,h]

theorem release_of_ne {nowMs : ℕ} {token : τ} {stored : Option (Lease τ)}
    (h : stored.map Lease.token ≠ some token) : release nowMs token stored = stored :=
  if_neg (mt token_of_seen h)

end Lease
end Library
