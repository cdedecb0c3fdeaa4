import Mathlib

/-!
# Runs of a partial transition function

A component is a function `step : σ → ι → Option σ`, `none` meaning that the
call panics. `Run step ok s t` is a finite run from `s` to `t` all of whose
steps meet `ok`. An invariant is proved once per step (`Run.invariant`).
-/
namespace Bmux

variable {σ ι : Type}

/-- A finite run whose steps all meet `ok`. -/
inductive Run (step : σ → ι → Option σ) (ok : σ → ι → Prop) : σ → σ → Prop where
  | refl (s : σ) : Run step ok s s
  | tail {s t u : σ} {i : ι} : Run step ok s t → ok t i → step t i = some u → Run step ok s u

namespace Run

variable {step : σ → ι → Option σ} {ok ok' : σ → ι → Prop} {s t u : σ}

/-- A step lemma gives a run lemma. -/
theorem invariant {I : σ → Prop} (h : Run step ok s t)
    (hstep : ∀ s i s', I s → ok s i → step s i = some s' → I s') (hs : I s) : I t := by
  induction h with
  | refl => exact hs
  | tail _ hok hi ih => exact hstep _ _ _ ih hok hi

theorem mono (h : Run step ok s t) (himp : ∀ s i, ok s i → ok' s i) : Run step ok' s t := by
  induction h with
  | refl => exact refl _
  | tail _ hok hi ih => exact ih.tail (himp _ _ hok) hi

theorem trans (h1 : Run step ok s t) (h2 : Run step ok t u) : Run step ok s u := by
  induction h2 with
  | refl => exact h1
  | tail _ hok hi ih => exact ih.tail hok hi

/-- A run given by the list of its inputs, each of which is fine in every state. -/
theorem of_foldlM_mem {l : List ι} (hl : l.foldlM step s = some t) (hok : ∀ i ∈ l, ∀ s, ok s i) :
    Run step ok s t := by
  induction l generalizing s with
  | nil => cases hl; exact refl _
  | cons i l ih =>
    obtain ⟨s', hi, hl⟩ := Option.bind_eq_some_iff.mp hl
    exact ((refl s).tail (hok i (by simp) s) hi).trans (ih hl fun j hj => hok j (by simp [hj]))

theorem of_foldlM {l : List ι} (hl : l.foldlM step s = some t) (hok : ∀ s i, ok s i) : Run step ok s t :=
  of_foldlM_mem hl fun i _ s => hok s i

end Run
end Bmux
