import Bmux.L2Control.References

/-!
# Optimistic concurrency on the workspace revision

A writer of tabs and panes sends the workspace revision it saw; the command
is accepted if the workspace still has it. `PutTab` and `PutPane` stamp the
workspace, so the token moves with them. Three commands break the scheme:

* `AssignExecution` and `SetPaneAvailability` stamp the pane but not its
  workspace, so a `PutPane` that saw neither is still accepted
  (`put_overwrites_assignment`);
* a record moved between workspaces is checked against its new workspace only;
* `RemoveTab` stamps nothing, so its token can be used again.

`no_lost_update` is what holds without them.
-/
namespace Bmux.Control
open Std Canonical UInt64
open TreeMap (All)

/-! ## What a call does to a workspace, a tab and a pane -/

/-- The call is an `AssignExecution` or `SetPaneAvailability` that changes
the record of pane `k`. -/
def Touches (k : Uuid) (s : ControlState) (op : Op) (s' : ControlState) : Prop :=
  s'.panes[k]? ≠ s.panes[k]? ∧ ∃ c id, op = .command c ∧ LogicalPaneId.value id = k ∧
    ((∃ r g a spec, c.request = .assignExecution id r g a spec) ∨
      ∃ r a availability reason, c.request = .setPaneAvailability id r a availability reason)

section
variable {env : Env} {s s' : ControlState} {op : Op} {c' : Catalogue} {k : Uuid}

theorem Effect.workspace (he : Effect s op c') {w : WorkspaceRecord} (hw : s.workspaces[k]? = some w) :
    ∃ w', c'.workspaces[k]? = some w' ∧ (w'.revision = w.revision ∨ s.revision < w'.revision) := by
  have hkeep : ∃ w', s.workspaces[k]? = some w' ∧ (w'.revision = w.revision ∨ s.revision < w'.revision) :=
    ⟨w, hw, .inl rfl⟩
  have hput : ∀ (id : Uuid) (v : WorkspaceRecord), s.revision < v.revision →
      ∃ w', (s.workspaces.insert id v)[k]? = some w' ∧
        (w'.revision = w.revision ∨ s.revision < w'.revision) := by
    intro id v hv
    rw [TreeMap.getElem?_insert]
    split
    · exact ⟨v, rfl, .inr hv⟩
    · exact hkeep
  cases he with
  | same | bump | refresh => exact hkeep
  | request _ _ next effect =>
    have hlt := lt_of_checkedSucc next
    cases effect with
    | createWorkspace | renameWorkspace | putTab | putPane => exact hput _ _ hlt
    | _ => exact hkeep

theorem Effect.tab (he : Effect s op c') {t : LogicalTabRecord} (htabs : c'.tabs[k]? = some t) :
    s.tabs[k]? = some t ∨ ∃ w, c'.workspaces[t.workspaceId.value]? = some w ∧ t.revision ≤ w.revision := by
  cases he with
  | same | bump | refresh => exact .inl htabs
  | request _ _ _ effect =>
    cases effect with
    | @putTab tab w found _ =>
      rcases TreeMap.of_insert htabs with ⟨-, rfl⟩ | htabs
      · exact .inr ⟨w.withRevision _, ExtTreeMap.getElem?_insert_self, le_refl _⟩
      · exact .inl htabs
    | removeTab => exact .inl (TreeMap.of_erase htabs)
    | _ => exact .inl htabs

/-- A pane is as before, was just stamped together with its workspace, or was
touched on its own. -/
theorem step_pane (h : step env s op = some s') (hs : s.catalogue.WellFormed) {p : LogicalPaneRecord}
    (hp : s'.panes[k]? = some p) : s.panes[k]? = some p ∨
      (∃ w, s'.workspaces[p.workspaceId.value]? = some w ∧ p.revision ≤ w.revision) ∨
      ∃ old, s.panes[k]? = some old ∧ p.workspaceId = old.workspaceId ∧ Touches k s op s' ∧
        s'.workspaces = s.workspaces := by
  have he := step_effect h
  have hpanes : s'.catalogue.panes[k]? = some p := hp
  have hws : s'.catalogue.workspaces = s'.workspaces := rfl
  rw [← hws]
  generalize s'.catalogue = c' at he hpanes
  cases he with
  | same | bump | refresh => exact .inl hpanes
  | @request c _ rev _ _ hreq next effect =>
    -- the new revision tells the record from the one it replaces
    have hnew : ∀ old, s.panes[k]? = some old → p.revision = rev → s'.panes[k]? ≠ s.panes[k]? := by
      intro old hold hrev heq
      rw [hp, hold] at heq
      cases heq
      obtain ⟨_, hle, _⟩ := hs.panes k _ hold
      have hlt := lt_of_le_of_lt hle (lt_of_checkedSucc next)
      rw [hrev] at hlt
      exact UInt64.lt_irrefl _ hlt
    cases effect with
    | @putPane pane w _ found _ _ _ _ =>
      rcases TreeMap.of_insert hpanes with ⟨-, rfl⟩ | hpanes
      · exact .inr (.inl ⟨w.withRevision rev, ExtTreeMap.getElem?_insert_self, le_refl _⟩)
      · exact .inl hpanes
    | removePane => exact .inl (TreeMap.of_erase hpanes)
    | @assignExecution id a spec old found _ =>
      rcases TreeMap.of_insert hpanes with ⟨rfl, rfl⟩ | hpanes
      · exact .inr (.inr ⟨old, found, rfl,
          ⟨hnew old found rfl, c, id, rfl, rfl, .inl ⟨_, _, a, spec, hreq⟩⟩, rfl⟩)
      · exact .inl hpanes
    | @setPaneAvailability id a availability reason old found _ =>
      rcases TreeMap.of_insert hpanes with ⟨rfl, rfl⟩ | hpanes
      · exact .inr (.inr ⟨old, found, rfl,
          ⟨hnew old found rfl, c, id, rfl, rfl, .inr ⟨_, a, availability, reason, hreq⟩⟩, rfl⟩)
      · exact .inl hpanes
    | _ => exact .inl hpanes

end

/-! ## Runs -/

/-- In the run `ops` from `s₀`, pane `k` was touched at a moment when the
workspace `ws` had revision `r`. -/
def TouchedAt (env : Env) (s₀ : ControlState) (ops : List Op) (k ws : Uuid) (r : UInt64) : Prop :=
  ∃ before op later u u' w, ops = before ++ op :: later ∧ before.foldlM (step env) s₀ = some u ∧
    step env u op = some u' ∧ Touches k u op u' ∧ u.workspaces[ws]? = some w ∧ w.revision = r

/-- Tabs are no newer than their workspace, and neither are panes, unless
they were touched since the workspace got its revision. -/
structure Current (env : Env) (s₀ : ControlState) (ops : List Op) (s : ControlState) : Prop where
  records : s.catalogue.WellFormed
  tabs : All (fun _ t => ∃ w, s.workspaces[t.workspaceId.value]? = some w ∧ t.revision ≤ w.revision) s.tabs
  panes : All (fun k p => ∃ w, s.workspaces[p.workspaceId.value]? = some w ∧
    (p.revision ≤ w.revision ∨ TouchedAt env s₀ ops k p.workspaceId.value w.revision)) s.panes

section
variable {env : Env} {s₀ s s' : ControlState} {ops : List Op} {op : Op} {k ws : Uuid} {r : UInt64}

theorem TouchedAt.snoc (h : TouchedAt env s₀ ops k ws r) : TouchedAt env s₀ (ops ++ [op]) k ws r := by
  obtain ⟨before, o, later, u, u', w, rfl, hrest⟩ := h
  exact ⟨before, o, later ++ [op], u, u', w, by simp, hrest⟩

/-- The step lemma of `Current`, along a run that ends in the state. -/
theorem step_current (hrun : ops.foldlM (step env) s₀ = some s) (hs : Current env s₀ ops s)
    (h : step env s op = some s') : Current env s₀ (ops ++ [op]) s' where
  records := (step_effect h).wellFormed hs.records
  tabs := by
    intro k t ht
    rcases (step_effect h).tab ht with hold | hnew
    · obtain ⟨w, hw, hle⟩ := hs.tabs k t hold
      obtain ⟨w', hw', heq | hlt⟩ := (step_effect h).workspace hw
      · exact ⟨w', hw', heq ▸ hle⟩
      · obtain ⟨_, hrev, _⟩ := hs.records.tabs k t hold
        exact ⟨w', hw', le_of_lt (lt_of_le_of_lt hrev hlt)⟩
    · exact hnew
  panes := by
    intro k p hp
    rcases step_pane h hs.records hp with hold | ⟨w, hw, hle⟩ | ⟨old, hold, hws, htouch, hsame⟩
    · obtain ⟨w, hw, hle⟩ := hs.panes k p hold
      obtain ⟨w', hw', heq | hlt⟩ := (step_effect h).workspace hw
      · exact ⟨w', hw', heq ▸ hle.imp_right TouchedAt.snoc⟩
      · obtain ⟨_, hrev, _⟩ := hs.records.panes k p hold
        exact ⟨w', hw', .inl (le_of_lt (lt_of_le_of_lt hrev hlt))⟩
    · exact ⟨w, hw, .inl hle⟩
    · obtain ⟨w, hw, _⟩ := hs.panes k old hold
      rw [hws, hsame]
      exact ⟨w, hw, .inr ⟨ops, op, [], s, s', w, rfl, hrun, h, htouch, hw, rfl⟩⟩

theorem current_of_run {clusterId : String} (hrun : ops.foldlM (step env) (.new clusterId) = some s) :
    Current env (.new clusterId) ops s := by
  induction ops using List.reverseRecOn generalizing s with
  | nil =>
    cases hrun
    exact ⟨(new_referential clusterId).records, All.empty, All.empty⟩
  | append_singleton ops op ih =>
    rw [List.foldlM_append] at hrun
    obtain ⟨t, hops, hrun⟩ := Option.bind_eq_some_iff.mp hrun
    have hlast : step env t op = some s := by simpa using hrun
    exact step_current hops (ih hops) hlast

def Targets (s : ControlState) (ws : Uuid) (r : UInt64) : ControlCommandRequest → Prop
  | .putTab tab expected => tab.workspaceId.value = ws ∧ expected = r
  | .putPane pane expected => pane.workspaceId.value = ws ∧ expected = r
  | .removeTab tabId expected =>
    (∃ t, s.tabs[tabId.value]? = some t ∧ t.workspaceId.value = ws) ∧ expected = r
  | _ => False

/-- A command that targets a workspace and takes effect found its revision;
unless it is a `RemoveTab`, it leaves a newer one. -/
theorem Effect.targets {c : ControlCommand} {c' : Catalogue} (he : Effect s (.command c) c')
    (hrev : c'.revision ≠ s.revision) (ht : Targets s ws r c.request) :
    ∃ w, s.workspaces[ws]? = some w ∧ w.revision = r ∧ ((∀ id e, c.request ≠ .removeTab id e) →
      ∃ w', c'.workspaces[ws]? = some w' ∧ s.revision < w'.revision) := by
  cases he with
  | same => exact absurd rfl hrev
  | bump other => exact absurd rfl (other c)
  | request _ hreq next effect =>
    rw [hreq] at ht ⊢
    have hlt := lt_of_checkedSucc next
    cases effect with
    | @putTab tab w found _ =>
      obtain ⟨rfl, rfl⟩ := ht
      exact ⟨w, found, rfl, fun _ => ⟨w.withRevision _, by simp, hlt⟩⟩
    | @putPane pane w _ found _ _ _ _ =>
      obtain ⟨rfl, rfl⟩ := ht
      exact ⟨w, found, rfl, fun _ => ⟨w.withRevision _, by simp, hlt⟩⟩
    | @removeTab id t w found inWorkspace _ =>
      obtain ⟨⟨t', ht', rfl⟩, rfl⟩ := ht
      have htt : t' = t := Option.some.inj (ht'.symm.trans found)
      subst htt
      exact ⟨w, inWorkspace, rfl, fun hno => absurd rfl (hno id _)⟩
    | _ => exact absurd ht id

theorem run_workspace_newer {later : List Op} (hrun : later.foldlM (step env) s = some s')
    (hs : s.catalogue.WellFormed) (hw : ∃ w, s.workspaces[ws]? = some w ∧ r < w.revision) :
    ∃ w, s'.workspaces[ws]? = some w ∧ r < w.revision := by
  have hr : Run (step env) (fun _ _ => True) s s' := Run.of_foldlM hrun fun _ _ => trivial
  have hinv := hr.invariant
    (I := fun s => s.catalogue.WellFormed ∧ ∃ w, s.workspaces[ws]? = some w ∧ r < w.revision) ?_ ⟨hs, hw⟩
  · exact hinv.2
  · rintro u op u' ⟨hu, w, hw, hlt⟩ _ hstep
    refine ⟨(step_effect hstep).wellFormed hu, ?_⟩
    obtain ⟨w', hw', heq | hgt⟩ := (step_effect hstep).workspace hw
    · exact ⟨w', hw', heq ▸ hlt⟩
    · obtain ⟨_, hle⟩ := hu.workspaces ws w hw
      exact ⟨w', hw', lt_trans hlt (lt_of_le_of_lt hle hgt)⟩

/-- **No lost update.** In a state reached by the run `ops`: an accepted
`PutTab` or `PutPane` that keeps the record in its workspace, and whose pane
was not touched since the workspace has the expected revision, replaces a
record no newer than that revision. And of two commands that write tabs or
panes of one workspace at the same expected revision, the first not a
`RemoveTab`, at most one takes effect. -/
theorem no_lost_update {clusterId : String} (hrun : ops.foldlM (step env) (.new clusterId) = some s) :
    (∀ c tab r out old, c.request = .putTab tab r → s.dedup[dedupKey c]? = none →
      commandOutcome env s c = .ok out → s.tabs[tab.tabId.value]? = some old →
      old.workspaceId = tab.workspaceId → old.revision ≤ r) ∧
    (∀ c pane r out old, c.request = .putPane pane r → s.dedup[dedupKey c]? = none →
      commandOutcome env s c = .ok out → s.panes[pane.paneId.value]? = some old →
      old.workspaceId = pane.workspaceId →
      ¬ TouchedAt env (.new clusterId) ops pane.paneId.value pane.workspaceId.value r → old.revision ≤ r) ∧
    ∀ c₁ s₁ (later : List Op) s₂ c₂ s₃ ws r, step env s (.command c₁) = some s₁ → s₁.revision ≠ s.revision →
      later.foldlM (step env) s₁ = some s₂ → step env s₂ (.command c₂) = some s₃ →
      s₃.revision ≠ s₂.revision → Targets s ws r c₁.request → Targets s₂ ws r c₂.request →
      ∃ id e, c₁.request = .removeTab id e := by
  have hcur := current_of_run hrun
  refine ⟨?_, ?_, ?_⟩
  · intro c tab r out old hreq _ hout hold hsame
    obtain ⟨_, harm⟩ := commandOutcome_ok.mp hout
    rw [applyRequest, hreq] at harm
    obtain ⟨w, hw, rfl, _⟩ := putTab_ok.mp harm
    obtain ⟨w', hw', hle⟩ := hcur.tabs _ old hold
    rw [hsame, hw] at hw'
    cases hw'
    exact hle
  · intro c pane r out old hreq _ hout hold hsame hclean
    obtain ⟨_, harm⟩ := commandOutcome_ok.mp hout
    rw [applyRequest, hreq] at harm
    obtain ⟨w, hw, rfl, _⟩ := putPane_ok.mp harm
    obtain ⟨w', hw', hle⟩ := hcur.panes _ old hold
    rw [hsame, hw] at hw'
    cases hw'
    rw [hsame] at hle
    exact hle.resolve_right hclean
  · intro c₁ s₁ later s₂ c₂ s₃ ws r h1 he1 hlater h2 he2 ht1 ht2
    by_contra hno
    obtain ⟨w, hw, hr, hnew⟩ := (step_effect h1).targets he1 ht1
    obtain ⟨_, hle⟩ := hcur.records.workspaces ws w hw
    obtain ⟨w₁, hw₁, hlt⟩ := hnew fun id e heq => hno ⟨id, e, heq⟩
    have hgt : r < w₁.revision := hr ▸ lt_of_le_of_lt hle hlt
    obtain ⟨w₂, hw₂, hgt₂⟩ := run_workspace_newer hlater ((step_effect h1).wellFormed hcur.records) ⟨w₁, hw₁, hgt⟩
    obtain ⟨w₂', hw₂', hr₂, _⟩ := (step_effect h2).targets he2 ht2
    rw [hw₂] at hw₂'
    cases hw₂'
    rw [hr₂] at hgt₂
    exact UInt64.lt_irrefl _ hgt₂

end
/-! ## Concrete runs -/

namespace Sample

/-- Renaming the tab of `onePane` at the revision its workspace has. -/
theorem put_replaces_older_tab : ∃ old, onePaneState.tabs[(1 : Uuid)]? = some old ∧ old.revision ≤ 3 := by
  have hrun : (ops onePane).foldlM (step env) (.new "c") = some onePaneState := rfl
  exact ⟨_, rfl, (no_lost_update hrun).1
    (command 9 (.putTab { tab 1 1 with name := some "t" } 3)) _ 3 _ _ rfl rfl rfl rfl rfl⟩

/-- The pane of `onePane` gets an execution; a `PutPane` that saw the
workspace before that is accepted and replaces the newer record. And two
`RemoveTab`s at one expected revision both take effect. -/
theorem put_overwrites_assignment :
    (∃ s out old, Reachable env s ∧ s.dedup[dedupKey (command 11 (.putPane (pane 1 none) 3))]? = none ∧
      commandOutcome env s (command 11 (.putPane (pane 1 none) 3)) = .ok out ∧
      s.panes[(1 : Uuid)]? = some old ∧ 3 < old.revision) ∧
    ∃ s s₁ s₂, Reachable env s ∧ Targets s 1 3 (.removeTab ⟨1⟩ 3) ∧
      step env s (.command (command 11 (.removeTab ⟨1⟩ 3))) = some s₁ ∧ s₁.revision ≠ s.revision ∧
      Targets s₁ 1 3 (.removeTab ⟨2⟩ 3) ∧
      step env s₁ (.command (command 12 (.removeTab ⟨2⟩ 3))) = some s₂ ∧ s₂.revision ≠ s₁.revision := by
  refine ⟨⟨after onePaneState [.command assign], _, _, ⟨"c", ?_⟩, rfl, rfl, rfl, by decide⟩,
    after (.new "c") (ops [create 1, .putTab (tab 1 1) 1, .putTab (tab 2 1) 2]), _, _, ?_,
    ⟨⟨_, rfl, rfl⟩, rfl⟩, rfl, by decide, ⟨⟨_, rfl, rfl⟩, rfl⟩, rfl, by decide⟩
  · exact Run.of_foldlM (l := ops onePane ++ [.command assign]) rfl fun _ _ => trivial
  · exact reachable_after (by decide +kernel)

end Sample
end Bmux.Control
