import Bmux.L2Control.Effects

/-!
# Generation fencing of executions

The generation of a pane's execution fences off workers that were replaced:
`AssignExecution` only accepts a newer generation. `PutPane` writes the whole
pane record, execution included, and compares nothing with the record it
replaces, so it can bring an old generation back
(`put_lowers_generation`). Without such a `PutPane`, generations only grow
along a run, and every change of the assignment raises them
(`generation_fenced`).
-/
namespace Bmux.Control
open Std Canonical

/-- From `p` to `q` the execution is the same or the generation is newer. -/
def Fenced (p q : LogicalPaneRecord) : Prop :=
  p.execution = q.execution ∨ paneGeneration p < paneGeneration q

/-- A `PutPane` that will be accepted and replaces the execution of the pane
`k` without a newer generation. -/
def RewritesExecution (k : Uuid) (s : ControlState) (op : Op) : Prop :=
  ∃ c pane w t p, op = .command c ∧ Fresh s c ∧ c.request = .putPane pane w.revision ∧
    s.workspaces[pane.workspaceId.value]? = some w ∧ s.tabs[pane.tabId.value]? = some t ∧
    t.workspaceId = pane.workspaceId ∧ (∀ a, pane.execution = some a → a.generation ≠ 0) ∧
    pane.paneId.value = k ∧ s.panes[k]? = some p ∧ ¬ Fenced p pane

theorem paneGeneration_congr {p q : LogicalPaneRecord} (h : p.execution = q.execution) :
    paneGeneration p = paneGeneration q := by
  unfold paneGeneration; rw [h]

theorem Fenced.trans {p q r : LogicalPaneRecord} (h1 : Fenced p q) (h2 : Fenced q r) : Fenced p r := by
  rcases h1 with h1 | h1 <;> rcases h2 with h2 | h2
  · exact .inl (h1.trans h2)
  · right; rw [paneGeneration_congr h1]; exact h2
  · right; rw [← paneGeneration_congr h2]; exact h1
  · exact .inr (UInt64.lt_trans h1 h2)

section
variable {env : Env} {s : ControlState} {op : Op} {c' : Catalogue} {k : Uuid} {p q : LogicalPaneRecord}

/-- What one call does to the execution of a pane that stays. -/
theorem Effect.fenced (he : Effect s op c') (hp : s.panes[k]? = some p)
    (hcat : c'.panes[k]? = some q) (hput : ¬ RewritesExecution k s op) : Fenced p q := by
  have hsame : s.panes[k]? = some q → Fenced p q := by
    intro heq
    rw [hp] at heq; cases heq; exact .inl rfl
  cases he with
  | same | bump | refresh => exact hsame hcat
  | @request c _ _ _ fresh hreq next effect =>
    cases effect with
    | @putPane pane w t found inTab sameWorkspace generation differs =>
      rcases TreeMap.of_insert hcat with ⟨hk, rfl⟩ | hcat
      · by_contra hf
        exact hput ⟨c, pane, w, t, p, rfl, fresh, hreq, found, inTab, sameWorkspace, generation, hk,
          hp, hf⟩
      · exact hsame hcat
    | removePane found => exact hsame (TreeMap.of_erase hcat)
    | @assignExecution id a _ p' found newer =>
      rcases TreeMap.of_insert hcat with ⟨rfl, rfl⟩ | hcat
      · cases found.symm.trans hp
        exact .inr newer
      · exact hsame hcat
    | @setPaneAvailability id a _ _ p' found current =>
      rcases TreeMap.of_insert hcat with ⟨rfl, rfl⟩ | hcat
      · cases found.symm.trans hp
        exact .inl rfl
      · exact hsame hcat
    | _ => exact hsame hcat

/-- **Generation fencing.** Along a run on which the pane `k` stays present
and no accepted `PutPane` replaces its execution without a newer generation,
its generation never decreases and every change of its execution raises it. -/
theorem generation_fenced {t : ControlState}
    (h : Run (step env) (fun s op => (∃ p, s.panes[k]? = some p) ∧ ¬ RewritesExecution k s op) s t)
    (hp : s.panes[k]? = some p) (hq : t.panes[k]? = some q) : paneGeneration p ≤ paneGeneration q ∧
      (p.execution ≠ q.execution → paneGeneration p < paneGeneration q) := by
  have hf : Fenced p q := by
    induction h generalizing q with
    | refl => rw [hp] at hq; cases hq; exact .inl rfl
    | tail _ hok hstep ih =>
      obtain ⟨⟨p', hp'⟩, hput⟩ := hok
      exact (ih hp').trans ((step_effect hstep).fenced hp' hq hput)
  rcases hf with heq | hlt
  · exact ⟨by rw [paneGeneration_congr heq]; exact UInt64.le_refl _, fun hne => absurd heq hne⟩
  · exact ⟨UInt64.le_of_lt hlt, fun _ => hlt⟩

end

/-! ## Concrete runs -/

namespace Sample

/-- `AssignExecution` raises the generation of the pane of `onePane`. -/
theorem assign_raises_generation : paneGeneration (pane 1 none) ≤
    paneGeneration ((pane 1 none).assigned (assignment 1)) := by
  have hrun : Run (step env) (fun s op => (∃ p, s.panes[(1 : Uuid)]? = some p) ∧
      ¬ RewritesExecution 1 s op) onePaneState (after onePaneState [.command assign]) := by
    refine (Run.refl _).tail (i := .command assign) ⟨⟨_, rfl⟩, ?_⟩ rfl
    rintro ⟨_, _, _, _, _, hc, _, hreq, _⟩
    cases hc; cases hreq
  exact (generation_fenced hrun (p := (pane 1 none).withRevision 3)
    (q := ((pane 1 none).assigned (assignment 1)).withRevision 4) rfl rfl).1

/-- `PutPane` brings generation 4 back where generation 5 was running. -/
theorem put_lowers_generation : ∃ s s' p q, Reachable env s ∧
    step env s (.command (command 4 (.putPane (pane 1 (some (assignment 4))) 3))) = some s' ∧
    s.panes[(1 : Uuid)]? = some p ∧ s'.panes[(1 : Uuid)]? = some q ∧
    paneGeneration p = 5 ∧ paneGeneration q = 4 := by
  refine ⟨after (.new "c") (ops [create 1, .putTab (tab 1 1) 1, .putPane (pane 1 (some (assignment 5))) 2]),
    _, _, _, ?_, rfl, rfl, rfl, rfl, rfl⟩
  exact reachable_after (by decide +kernel)

end Sample
end Bmux.Control
