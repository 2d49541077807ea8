import Mathlib.Logic.Function.Basic

/-!
# Objects handed out and given back

A pool numbers the objects it hands out and counts how often each was given back.
The number names the loan, not the place in memory, so a stale name never means a
later loan. `Accounted` says that every loan is given back once or still in use.
-/

namespace Rsu.Data

/-- What was handed out, and how often each loan was given back. -/
structure Pool where
  obtained : Nat
  releases : Nat → Nat

namespace Pool

variable {pool : Pool} {loan other : Nat} {owned : Nat → Prop}

/-- Nothing was handed out. -/
def empty : Pool := ⟨0, fun _ => 0⟩

/-- The name of the next loan is `pool.obtained`. -/
def get (pool : Pool) : Pool := { pool with obtained := pool.obtained + 1 }

/-- Give a loan back. -/
def release (pool : Pool) (loan : Nat) : Pool :=
  { pool with releases := Function.update pool.releases loan (pool.releases loan + 1) }

@[simp] theorem get_releases (pool : Pool) : pool.get.releases = pool.releases := rfl

@[simp] theorem get_obtained (pool : Pool) : pool.get.obtained = pool.obtained + 1 := rfl

@[simp] theorem release_obtained (pool : Pool) (loan : Nat) :
    (pool.release loan).obtained = pool.obtained := rfl

@[simp] theorem release_self (pool : Pool) (loan : Nat) :
    (pool.release loan).releases loan = pool.releases loan + 1 :=
  Function.update_self ..

theorem release_of_ne (pool : Pool) (different : other ≠ loan) :
    (pool.release loan).releases other = pool.releases other :=
  Function.update_of_ne different ..

/-- A loan that was not given back. -/
structure Live (pool : Pool) (loan : Nat) : Prop where
  obtained : loan < pool.obtained
  unreleased : pool.releases loan = 0

/-- Every loan was given back at most once, and one that was not has an owner. -/
structure Accounted (pool : Pool) (owned : Nat → Prop) : Prop where
  once : ∀ loan, pool.releases loan ≤ 1
  kept : ∀ loan, pool.Live loan → owned loan

/-- What was not handed out yet was not given back. -/
def Fresh (pool : Pool) : Prop := ∀ loan, pool.obtained ≤ loan → pool.releases loan = 0

theorem empty_fresh : empty.Fresh := fun _ _ => rfl

/-- An empty pool has no open account. -/
theorem empty_accounted : empty.Accounted owned where
  once := fun _ => Nat.zero_le 1
  kept := fun _ live => absurd live.obtained (Nat.not_lt_zero _)

/-- Obtaining a loan keeps the next one fresh. -/
theorem Fresh.get (fresh : pool.Fresh) : pool.get.Fresh :=
  fun loan later => fresh loan (Nat.le_of_succ_le later)

theorem Fresh.release (fresh : pool.Fresh) (known : loan < pool.obtained) :
    (pool.release loan).Fresh := by
  intro other later
  have different : other ≠ loan := by
    rintro rfl
    exact absurd known (Nat.not_lt.2 later)
  rw [release_of_ne pool different]
  exact fresh other later

/-- The next loan is live once it is handed out. -/
theorem Fresh.live_get (fresh : pool.Fresh) : pool.get.Live pool.obtained where
  obtained := Nat.lt_succ_self _
  unreleased := fresh _ (Nat.le_refl _)

/-- Handing out another loan keeps the earlier ones live. -/
theorem Live.get (live : pool.Live loan) : pool.get.Live loan where
  obtained := Nat.lt_succ_of_lt live.obtained
  unreleased := live.unreleased

/-- A live loan of the grown pool is the new one or an earlier one. -/
theorem Live.of_get (live : pool.get.Live loan) : loan = pool.obtained ∨ pool.Live loan := by
  rcases Nat.lt_succ_iff_lt_or_eq.1 live.obtained with earlier | same
  · exact .inr ⟨earlier, live.unreleased⟩
  · exact .inl same

/-- Giving one loan back keeps the others live. -/
theorem Live.release (live : pool.Live other) (different : other ≠ loan) :
    (pool.release loan).Live other where
  obtained := live.obtained
  unreleased := (release_of_ne pool different).trans live.unreleased

/-- What is live after a loan was given back is another loan. -/
theorem Live.of_release (live : (pool.release loan).Live other) :
    other ≠ loan ∧ pool.Live other := by
  have different : other ≠ loan := by
    rintro rfl
    have counted := live.unreleased
    rw [release_self] at counted
    exact Nat.succ_ne_zero _ counted
  exact ⟨different, live.obtained, (release_of_ne pool different).symm.trans live.unreleased⟩

/-- A new loan has to be owned. -/
theorem Accounted.get {next : Nat → Prop} (accounted : pool.Accounted owned)
    (owner : next pool.obtained) (same : ∀ loan, owned loan → next loan) :
    pool.get.Accounted next where
  once := accounted.once
  kept := by
    intro loan live
    rcases live.of_get with rfl | earlier
    · exact owner
    · exact same loan (accounted.kept loan earlier)

/-- A live loan may be given back by its owner. -/
theorem Accounted.release {next : Nat → Prop} (accounted : pool.Accounted owned)
    (live : pool.Live loan) (same : ∀ other, other ≠ loan → owned other → next other) :
    (pool.release loan).Accounted next where
  once := by
    intro other
    by_cases equal : other = loan
    · subst equal
      exact Nat.le_of_eq (by rw [release_self, live.unreleased])
    · rw [release_of_ne pool equal]
      exact accounted.once other
  kept := by
    intro other live
    obtain ⟨different, earlier⟩ := live.of_release
    exact same other different (accounted.kept other earlier)

/-- Owners may change as long as every loan keeps one. -/
theorem Accounted.mono {next : Nat → Prop} (accounted : pool.Accounted owned)
    (same : ∀ loan, owned loan → next loan) : pool.Accounted next where
  once := accounted.once
  kept := fun loan live => same loan (accounted.kept loan live)

end Pool

end Rsu.Data
