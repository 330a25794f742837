import Mathlib

-- States a transition system can reach from one of its initial states, and the rule
-- that turns "holds initially, preserved by every step" into "holds everywhere".
def Reachable {σ : Type*} (init : σ → Prop) (step : σ → σ → Prop) (s : σ) : Prop :=
  ∃ s₀, init s₀ ∧ Relation.ReflTransGen step s₀ s

namespace Reachable

variable {σ : Type*} {init : σ → Prop} {step : σ → σ → Prop}

theorem of_init {s : σ} (h : init s) : Reachable init step s :=
  ⟨s, h, Relation.ReflTransGen.refl⟩

theorem tail {s t : σ} (hs : Reachable init step s) (hst : step s t) : Reachable init step t := by
  obtain ⟨s₀, h₀, hrun⟩ := hs
  exact ⟨s₀, h₀, hrun.tail hst⟩

-- The invariant rule: every reachable state satisfies what the initial states satisfy
-- and every step preserves.
theorem invariant {inv : σ → Prop} (hinit : ∀ s, init s → inv s)
    (hstep : ∀ s t, inv s → step s t → inv t) {s : σ} (hs : Reachable init step s) : inv s := by
  obtain ⟨s₀, h₀, hrun⟩ := hs
  induction hrun with
  | refl => exact hinit s₀ h₀
  | tail _ hst ih => exact hstep _ _ ih hst

-- A system each of whose steps the map `f` sends to a run of another, possibly an empty one,
-- refines it: what the first reaches maps to what the other reaches.
theorem map {τ : Type*} {init' : τ → Prop} {step' : τ → τ → Prop} (f : σ → τ)
    (hinit : ∀ s, init s → init' (f s))
    (hstep : ∀ s t, step s t → Relation.ReflTransGen step' (f s) (f t))
    {s : σ} (hs : Reachable init step s) : Reachable init' step' (f s) := by
  obtain ⟨s₀, h₀, hrun⟩ := hs
  refine ⟨f s₀, hinit s₀ h₀, ?_⟩
  induction hrun with
  | refl => exact .refl
  | tail _ hst ih => exact ih.trans (hstep _ _ hst)

-- Actions applied in turn, each allowed in the state it is applied to.
def allowedRun {α : Type*} (allowed : σ → α → Bool) (apply : σ → α → σ) : σ → List α → Bool
  | _, [] => true
  | s, a :: as => allowed s a && allowedRun allowed apply (apply s a) as

-- A run of allowed actions from a reachable state ends in a reachable state.
theorem foldl_of_allowedRun {α : Type*} {allowed : σ → α → Bool} {apply : σ → α → σ}
    (hstep : ∀ s a, allowed s a = true → step s (apply s a)) {s : σ} (hs : Reachable init step s)
    (as : List α) (hrun : allowedRun allowed apply s as = true) :
    Reachable init step (as.foldl apply s) := by
  induction as generalizing s with
  | nil => exact hs
  | cons a as ih =>
    simp only [allowedRun, Bool.and_eq_true] at hrun
    exact ih (hs.tail (hstep s a hrun.1)) hrun.2

end Reachable
