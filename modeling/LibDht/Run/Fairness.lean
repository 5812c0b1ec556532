import LibDht.Run.Ultimately
import Mathlib.Algebra.Ring.Nat
import Mathlib.Data.Countable.Basic
import Mathlib.Data.Nat.Pairing

/-!
# Fair runs of a system with a queue

A system takes steps. Some of them take an item from a queue, and some carry out a task. A
run is fair when every item that is in the queue is taken at some later step, and every task
that can be carried out is. When items and tasks are countably many, no item is lost by
taking another or by carrying out a task, and tasks stay possible, there is a fair run from
every state.

Along a fair run whatever is brought down by the items that carry a weight is used up.
-/

open Filter

/-- A system with a queue of items of `μ`, and tasks of `τ`. -/
structure System (σ μ τ : Type*) where
  step : σ → σ → Prop
  queue : σ → List μ
  arrives : μ → σ → σ → Prop
  enabled : τ → σ → Prop
  fires : τ → σ → σ → Prop

namespace System

variable {σ μ τ : Type*} {S : System σ μ τ} {P : σ → Prop} {run : ℕ → σ}

/-- A run in which every item in the queue is taken, and every task that is possible is
carried out. -/
structure Fair (S : System σ μ τ) (run : ℕ → σ) : Prop where
  step : ∀ n, run (n + 1) = run n ∨ S.step (run n) (run (n + 1))
  arrives : ∀ n, ∀ m ∈ S.queue (run n), ∃ k ≥ n, S.arrives m (run k) (run (k + 1))
  fires : ∀ n t, S.enabled t (run n) → ∃ k ≥ n, S.fires t (run k) (run (k + 1))

/-- What every step keeps holds along a run. -/
theorem Fair.invariant (h : S.Fair run) (hstep : ∀ s s', P s → S.step s s' → P s')
    {n : ℕ} (hn : P (run n)) :
  ∀ k ≥ n, P (run k)
  := by
  intro k hk
  induction k, hk using Nat.le_induction with
  | base => exact hn
  | succ k _ ih =>
    rcases h.step k with heq | hs
    · rw [heq]
      exact ih
    · exact hstep _ _ ih hs

/-- A measure of the states that no step brings up, and that every item that counts brings down
when it is taken, is used up, when some item counts as long as it is not. -/
theorem Fair.used_up (h : S.Fair run) (f : σ → ℕ) (counts : μ → Prop)
    (hle : ∀ᶠ n in atTop, f (run (n + 1)) ≤ f (run n))
    (hlt : ∀ᶠ n in atTop, ∀ m, counts m → S.arrives m (run n) (run (n + 1)) →
      f (run (n + 1)) < f (run n))
    (hsome : ∀ n, 0 < f (run n) → ∃ m ∈ S.queue (run n), counts m) :
  ∀ᶠ n in atTop, f (run n) = 0
  := by
  apply Ultimately.eq_zero_of_step_le hle
  obtain ⟨T, hT⟩ := eventually_atTop.mp hlt
  rw [eventually_atTop]
  use T
  intro n hn hpos
  obtain ⟨m, hm, hcounts⟩ := hsome n hpos
  obtain ⟨k, hk, harr⟩ := h.arrives n m hm
  exact ⟨k, hk, hT k (le_trans hn hk) m hcounts harr⟩

/-! ### There are fair runs -/

/-- There is a run in which every step is the one that is due. -/
theorem exists_run {due : ℕ → σ → σ → Prop} (h : ∀ n s, P s → ∃ s', due n s s' ∧ P s') {s₀ : σ}
    (h₀ : P s₀) :
  ∃ run : ℕ → σ, run 0 = s₀ ∧ ∀ n, P (run n) ∧ due n (run n) (run (n + 1))
  := by
  choose next hnext using fun (n : ℕ) (s : { s // P s }) => h n s.1 s.2
  let run : ℕ → { s // P s } := fun n =>
    n.rec ⟨s₀, h₀⟩ fun n s => ⟨next n s, (hnext n s).2⟩
  exact ⟨fun n => (run n).1, rfl, fun n => ⟨(run n).2, (hnext n (run n)).1⟩⟩

/-- In the states that satisfy `P`, every item of the queue can be taken, and every task that is
possible be carried out, so that no other item is lost; and tasks stay possible. -/
structure Serviceable (S : System σ μ τ) (P : σ → Prop) : Prop where
  keeps : ∀ s s', P s → S.step s s' → P s'
  step_of_arrives : ∀ m s s', S.arrives m s s' → S.step s s'
  step_of_fires : ∀ t s s', S.fires t s s' → S.step s s'
  arrive : ∀ s m, P s → m ∈ S.queue s →
    ∃ s', S.arrives m s s' ∧ ∀ x ∈ S.queue s, x ≠ m → x ∈ S.queue s'
  fire : ∀ s t, P s → S.enabled t s → ∃ s', S.fires t s s' ∧ S.queue s ⊆ S.queue s'
  stays : ∀ s s' t, P s → S.step s s' → S.enabled t s → S.enabled t s'

/-- The state after the item or the task `o` has been served, if it is there to be served. -/
def Serves (S : System σ μ τ) : μ ⊕ τ → σ → σ → Prop
  | .inl m, s, s' => (m ∉ S.queue s ∧ s' = s)
      ∨ S.arrives m s s' ∧ ∀ x ∈ S.queue s, x ≠ m → x ∈ S.queue s'
  | .inr t, s, s' => (¬ S.enabled t s ∧ s' = s) ∨ S.fires t s s' ∧ S.queue s ⊆ S.queue s'

theorem Serves.exists (h : S.Serviceable P) (o : μ ⊕ τ) {s : σ} (hs : P s) :
  ∃ s', S.Serves o s s'
  := by
  cases o with
  | inl m =>
    by_cases hm : m ∈ S.queue s
    · obtain ⟨s', hs'⟩ := h.arrive s m hs hm
      exact ⟨s', Or.inr hs'⟩
    · exact ⟨s, Or.inl ⟨hm, rfl⟩⟩
  | inr t =>
    by_cases ht : S.enabled t s
    · obtain ⟨s', hs'⟩ := h.fire s t hs ht
      exact ⟨s', Or.inr hs'⟩
    · exact ⟨s, Or.inl ⟨ht, rfl⟩⟩

theorem Serves.step (h : S.Serviceable P) {o : μ ⊕ τ} {s s' : σ} (hs : S.Serves o s s') :
  s' = s ∨ S.step s s'
  := by
  cases o with
  | inl m => exact hs.imp And.right fun hs => h.step_of_arrives m s s' hs.1
  | inr t => exact hs.imp And.right fun hs => h.step_of_fires t s s' hs.1

/-- An item stays in the queue until it is taken. -/
theorem Serves.mem_queue {o : μ ⊕ τ} {s s' : σ} (hs : S.Serves o s s') {m : μ}
    (hm : m ∈ S.queue s) :
  m ∈ S.queue s' ∨ S.arrives m s s'
  := by
  cases o with
  | inl x =>
    rcases hs with ⟨-, rfl⟩ | ⟨harr, hkeeps⟩
    · exact Or.inl hm
    · by_cases hmx : m = x
      · exact Or.inr (hmx ▸ harr)
      · exact Or.inl (hkeeps m hm hmx)
  | inr t =>
    rcases hs with ⟨-, rfl⟩ | ⟨-, hsub⟩
    · exact Or.inl hm
    · exact Or.inl (hsub hm)

/-- From every state that satisfies `P` there is a fair run, in which the items and the tasks
have their turns, each of them over and over again. -/
theorem Serviceable.exists_fair [Countable μ] [Countable τ] [Nonempty τ] (h : S.Serviceable P)
    {s : σ} (hs : P s) :
  ∃ run, run 0 = s ∧ S.Fair run
  := by
  obtain ⟨task, htask⟩ := exists_surjective_nat (μ ⊕ τ)
  have hdue : ∀ (n : ℕ) s, P s → ∃ s', S.Serves (task n.unpair.1) s s' ∧ P s' := by
    intro n s hs
    obtain ⟨s', hs'⟩ := Serves.exists h (task n.unpair.1) hs
    refine ⟨s', hs', ?_⟩
    rcases hs'.step h with rfl | hstep
    · exact hs
    · exact h.keeps _ _ hs hstep
  obtain ⟨run, hzero, hrun⟩ := exists_run hdue hs
  -- the item or the task with the number `j` has its turn at the step `(j, n)`
  have hturn : ∀ j n, S.Serves (task j) (run (Nat.pair j n)) (run (Nat.pair j n + 1)) := by
    intro j n
    have hserves := (hrun (Nat.pair j n)).2
    rwa [Nat.unpair_pair] at hserves
  refine ⟨run, hzero, fun n => (hrun n).2.step h, ?_, ?_⟩
  · intro n m hm
    obtain ⟨j, hj⟩ := htask (.inl m)
    by_contra hnever
    have hnot : ∀ k ≥ n, ¬ S.arrives m (run k) (run (k + 1)) := fun k hk harr =>
      hnever ⟨k, hk, harr⟩
    have hstays : ∀ k ≥ n, m ∈ S.queue (run k) := by
      intro k hk
      induction k, hk using Nat.le_induction with
      | base => exact hm
      | succ k hk ih => exact ((hrun k).2.mem_queue ih).resolve_right (hnot k hk)
    have hge := Nat.right_le_pair j n
    have hserves := hturn j n
    rw [hj] at hserves
    rcases hserves with ⟨hnone, -⟩ | ⟨harr, -⟩
    · exact hnone (hstays _ hge)
    · exact hnot _ hge harr
  · intro n t ht
    obtain ⟨j, hj⟩ := htask (.inr t)
    have hge := Nat.right_le_pair j n
    have hstays : ∀ k ≥ n, S.enabled t (run k) := by
      intro k hk
      induction k, hk using Nat.le_induction with
      | base => exact ht
      | succ k _ ih =>
        rcases (hrun k).2.step h with heq | hstep
        · rw [heq]
          exact ih
        · exact h.stays _ _ _ (hrun k).1 hstep ih
    have hserves := hturn j n
    rw [hj] at hserves
    rcases hserves with ⟨hnone, -⟩ | ⟨hfire, -⟩
    · exact absurd (hstays _ hge) hnone
    · exact ⟨_, hge, hfire⟩

end System
