import Bmux.L2Control.Dedup

/-!
# Referential integrity

`WellFormed` says that the records point at records that exist: every key is
the id inside its record, a tab's workspace and a pane's tab and workspace
exist, executions have a generation, and no record is newer than the state.
Every reachable state is well formed (`wellFormed_of_reachable`).

`Referential` adds that a pane names the workspace of its tab. `PutTab`
replaces a tab record wholesale, so a tab can be moved to another workspace
while its panes still name the old one (`moved_tab_leaves_pane`). That is the
only way out: `referential_of_runs`.
-/
namespace Bmux.Control
open Std Canonical
open TreeMap (All)

/-- The references between the records of a state. -/
structure Catalogue.WellFormed (c : Catalogue) : Prop where
  members : All (fun k m => m.nodeId = k) c.members
  workspaces : All (fun k w => w.workspaceId.value = k ∧ w.revision ≤ c.revision) c.workspaces
  tabs : All (fun k t => t.tabId.value = k ∧ t.revision ≤ c.revision ∧
    ∃ w, c.workspaces[t.workspaceId.value]? = some w) c.tabs
  panes : All (fun k p => p.paneId.value = k ∧ p.revision ≤ c.revision ∧
    (∃ w, c.workspaces[p.workspaceId.value]? = some w) ∧ (∃ t, c.tabs[p.tabId.value]? = some t) ∧
    ∀ a, p.execution = some a → 1 ≤ a.generation) c.panes

def Catalogue.Agree (c : Catalogue) : Prop :=
  All (fun _ p => ∀ t, c.tabs[p.tabId.value]? = some t → t.workspaceId = p.workspaceId) c.panes

/-- Referential integrity of a state, its deduplication tables included. -/
structure ControlState.Referential (s : ControlState) : Prop where
  records : s.catalogue.WellFormed
  agree : s.catalogue.Agree
  dedup : All (fun k r => dedupKey r.command = k) s.dedup
  featureDedup : All (fun k r => featureKey r.command = k) s.featureDedup

/-- A `PutTab` that will be accepted and moves a tab with panes to another
workspace. -/
def MovesOccupiedTab (s : ControlState) (op : Op) : Prop :=
  ∃ c tab w t, op = .command c ∧ Fresh s c ∧ c.request = .putTab tab w.revision ∧
    s.workspaces[tab.workspaceId.value]? = some w ∧
    s.tabs[tab.tabId.value]? = some t ∧ t.workspaceId ≠ tab.workspaceId ∧
    ∃ (k : Uuid) (p : LogicalPaneRecord), s.panes[k]? = some p ∧ p.tabId = tab.tabId

/-! ## Steps -/

theorem le_of_checkedSucc {a b r : UInt64} (h : checkedSucc a = some b) (hr : r ≤ a) : r ≤ b :=
  UInt64.le_trans hr (UInt64.le_of_lt (lt_of_checkedSucc h))

section
variable {c c' : Catalogue} {rev : UInt64} {r : ControlCommandRequest}

namespace Catalogue.WellFormed

section
variable (h : c.WellFormed)
include h

theorem bump (hrev : checkedSucc c.revision = some rev) :
    { c with revision := rev }.WellFormed where
  members := h.members
  workspaces := h.workspaces.imp fun _ _ _ ⟨hk, hr⟩ => ⟨hk, le_of_checkedSucc hrev hr⟩
  tabs := h.tabs.imp fun _ _ _ ⟨hk, hr, hw⟩ => ⟨hk, le_of_checkedSucc hrev hr, hw⟩
  panes := h.panes.imp fun _ _ _ ⟨hk, hr, hrest⟩ => ⟨hk, le_of_checkedSucc hrev hr, hrest⟩

variable {w : WorkspaceRecord} {id : Uuid}

theorem putWorkspace (hid : w.workspaceId.value = id) (hw : w.revision ≤ c.revision) :
    { c with workspaces := c.workspaces.insert id w }.WellFormed where
  members := h.members
  workspaces := h.workspaces.insert ⟨hid, hw⟩
  tabs := h.tabs.imp fun _ _ _ ⟨hk, hr, _, hw⟩ => ⟨hk, hr, by grind⟩
  panes := h.panes.imp fun _ _ _ ⟨hk, hr, ⟨_, hw⟩, ht⟩ => ⟨hk, hr, by grind, ht⟩

theorem putMember {m : ClusterMember} {id : String} (hid : m.nodeId = id) :
    { c with members := c.members.insert id m }.WellFormed :=
  ⟨h.members.insert hid, h.workspaces, h.tabs, h.panes⟩

theorem putTab {t : LogicalTabRecord} (hid : t.tabId.value = id) (hr : t.revision ≤ c.revision)
    (hw : c.workspaces[t.workspaceId.value]? = some w) :
    { c with tabs := c.tabs.insert id t }.WellFormed where
  members := h.members
  workspaces := h.workspaces
  tabs := h.tabs.insert ⟨hid, hr, w, hw⟩
  panes := h.panes.imp fun _ _ _ ⟨hk, hr, hw, ⟨_, ht⟩, hg⟩ => ⟨hk, hr, hw, by grind, hg⟩

theorem putPane {p : LogicalPaneRecord} {t : LogicalTabRecord} (hid : p.paneId.value = id)
    (hr : p.revision ≤ c.revision)
    (hw : c.workspaces[p.workspaceId.value]? = some w) (ht : c.tabs[p.tabId.value]? = some t)
    (hg : ∀ a, p.execution = some a → 1 ≤ a.generation) :
    { c with panes := c.panes.insert id p }.WellFormed :=
  ⟨h.members, h.workspaces, h.tabs, h.panes.insert ⟨hid, hr, ⟨w, hw⟩, ⟨t, ht⟩, hg⟩⟩

theorem removeTab
    (hempty : ¬ ∃ (k : Uuid) (p : LogicalPaneRecord), c.panes[k]? = some p ∧ p.tabId.value = id) :
    { c with tabs := c.tabs.erase id }.WellFormed where
  members := h.members
  workspaces := h.workspaces
  tabs := h.tabs.erase
  panes := h.panes.imp fun k p hp ⟨hk, hr, hw, ⟨t, ht⟩, hg⟩ => by
    refine ⟨hk, hr, hw, ⟨t, ?_⟩, hg⟩
    rw [TreeMap.getElem?_erase, if_neg fun heq => hempty ⟨k, p, hp, heq.symm⟩, ht]

theorem removePane (id : Uuid) : { c with panes := c.panes.erase id }.WellFormed :=
  ⟨h.members, h.workspaces, h.tabs, h.panes.erase⟩

end

end Catalogue.WellFormed

/-- Every request checks what its records refer to. -/
theorem RequestEffect.wellFormed (he : RequestEffect c rev r c') (h : c.WellFormed)
    (hrev : checkedSucc c.revision = some rev) : c'.WellFormed := by
  have hb := h.bump hrev
  cases he with
  | upsertMember _ => exact hb.putMember rfl
  | setMemberState found _ =>
    have hid := h.members _ _ found
    exact hb.putMember hid
  | createWorkspace _ => exact hb.putWorkspace rfl (UInt64.le_refl _)
  | renameWorkspace found =>
    obtain ⟨hid, _⟩ := h.workspaces _ _ found
    exact hb.putWorkspace hid (UInt64.le_refl _)
  | @putTab tab w found differs =>
    obtain ⟨hid, _⟩ := h.workspaces _ _ found
    exact (hb.putTab (t := tab.withRevision rev) rfl (UInt64.le_refl _) found).putWorkspace hid
      (UInt64.le_refl _)
  | removeTab _ _ empty => exact hb.removeTab empty
  | @putPane pane w t found inTab _ generation _ =>
    obtain ⟨hid, _⟩ := h.workspaces _ _ found
    have hg : ∀ a, pane.execution = some a → 1 ≤ a.generation := by
      intro a ha
      grind
    exact (hb.putPane (p := pane.withRevision rev) rfl (UInt64.le_refl _) found inTab hg).putWorkspace
      hid (UInt64.le_refl _)
  | removePane _ => exact hb.removePane _
  | @assignExecution id a _ p found newer =>
    obtain ⟨hid, _, ⟨w, hw⟩, ⟨t, ht⟩, _⟩ := h.panes _ _ found
    refine hb.putPane hid (UInt64.le_refl _) hw ht fun a' ha' => ?_
    cases ha'
    grind
  | @setPaneAvailability id a _ _ p found current =>
    obtain ⟨hid, _, ⟨w, hw⟩, ⟨t, ht⟩, hg⟩ := h.panes _ _ found
    exact hb.putPane hid (UInt64.le_refl _) hw ht hg
  | completeWorkflow | pruneDedup => exact hb

/-- Only `PutTab` can separate a pane from its tab. -/
theorem RequestEffect.agree (he : RequestEffect c rev r c') (hwf : c.WellFormed) (h : c.Agree)
    (hmove : ∀ tab w t, r = .putTab tab w.revision → c.workspaces[tab.workspaceId.value]? = some w →
      c.tabs[tab.tabId.value]? = some t → t.workspaceId ≠ tab.workspaceId →
      ∀ (k : Uuid) (p : LogicalPaneRecord), c.panes[k]? = some p → p.tabId ≠ tab.tabId) : c'.Agree := by
  cases he with
  | @putTab tab w found differs =>
    intro k p hp t ht
    rcases TreeMap.of_insert ht with ⟨htab, rfl⟩ | ht
    · -- a pane of the tab that is written: the old record says where the pane is
      obtain ⟨_, _, _, ⟨old, hold⟩, _⟩ := hwf.panes k p hp
      rw [← h k p hp old hold]
      by_contra hne
      rw [← htab] at hold
      exact hmove tab w old rfl found hold (Ne.symm hne) k p hp (LogicalTabId.eq_mk.mpr htab.symm)
    · exact h k p hp t ht
  | removeTab =>
    intro k p hp t ht
    exact h k p hp t (TreeMap.of_erase ht)
  | @putPane pane w t found inTab sameWorkspace _ _ =>
    refine All.insert h fun t' ht' => ?_
    have htt : t' = t := Option.some.inj (ht'.symm.trans inTab)
    rw [htt]
    exact sameWorkspace
  | removePane _ => exact All.erase h
  | assignExecution found _ =>
    have hold := h _ _ found
    exact All.insert h hold
  | setPaneAvailability found _ =>
    have hold := h _ _ found
    exact All.insert h hold
  | _ => exact h

end

section
variable {env : Env} {s s' : ControlState} {op : Op} {c' : Catalogue}

theorem Effect.wellFormed (he : Effect s op c') (hs : s.catalogue.WellFormed) : c'.WellFormed := by
  cases he with
  | same => exact hs
  | bump _ next => exact hs.bump next
  | refresh next => exact (hs.bump next).putMember rfl
  | request _ _ next effect => exact effect.wellFormed hs next

theorem Effect.agree (he : Effect s op c') (hs : s.catalogue.WellFormed) (ha : s.catalogue.Agree)
    (hmove : ¬ MovesOccupiedTab s op) : c'.Agree := by
  cases he with
  | same | bump | refresh => exact ha
  | request fresh request _ effect =>
    exact effect.agree hs ha fun tab w t hreq hw ht hne k p hp htab =>
      hmove ⟨_, tab, w, t, rfl, fresh, request.trans hreq, hw, ht, hne, k, p, hp, htab⟩

/-- One call keeps the references, unless it moves a tab that has panes. -/
theorem step_referential (h : step env s op = some s') (hs : s.Referential)
    (hmove : ¬ MovesOccupiedTab s op) : s'.Referential where
  records := (step_effect h).wellFormed hs.records
  agree := (step_effect h).agree hs.records hs.agree hmove
  dedup := step_dedup_all h hs.dedup (fun _ _ _ _ _ _ _ => rfl) fun _ _ _ _ _ _ _ hk => hk
  featureDedup := step_featureDedup_all h hs.featureDedup fun _ _ _ _ _ _ _ => rfl

theorem new_referential (clusterId : String) : (ControlState.new clusterId).Referential :=
  ⟨⟨All.empty, All.empty, All.empty, All.empty⟩, All.empty, All.empty, All.empty⟩

/-- **Referential integrity** holds in every state reached without moving a
tab that has panes to another workspace. -/
theorem referential_of_runs (h : ReachableWith env (fun s op => ¬ MovesOccupiedTab s op) s) :
    s.Referential := by
  obtain ⟨clusterId, hrun⟩ := h
  exact hrun.invariant (fun _ _ _ hs hok hstep => step_referential hstep hs hok)
    (new_referential clusterId)

end

/-! ## Concrete runs -/

namespace Sample

/-- The pane of `onePane` sits in a workspace that exists. -/
theorem onePane_referential : onePaneState.Referential := by
  refine @referential_of_runs env _ ⟨"c", ?_⟩
  refine (((Run.refl _).tail (i := .command (command 1 (create 1))) ?_ rfl).tail
    (i := .command (command 2 (.putTab (tab 1 1) 1))) ?_ rfl).tail
    (i := .command (command 3 (.putPane (pane 1 none) 2))) ?_ rfl
  · rintro ⟨_, _, _, _, hc, _, hreq, _⟩; cases hc; cases hreq
  · -- the tab is new
    rintro ⟨_, _, _, _, hc, _, hreq, _, ht, _⟩
    cases hc
    obtain ⟨rfl, _⟩ := ControlCommandRequest.putTab.inj hreq
    cases ht
  · rintro ⟨_, _, _, _, hc, _, hreq, _⟩; cases hc; cases hreq

/-- A tab with a pane is moved to another workspace: the pane keeps the old one. -/
theorem moved_tab_leaves_pane : ∃ s, Reachable env s ∧ ¬ s.Referential := by
  refine ⟨after (.new "c") (ops (onePane ++ [create 2, .putTab (tab 1 2) 4])),
    reachable_after (by decide +kernel), ?_⟩
  intro h
  exact absurd (h.agree 1 _ rfl _ rfl) (by decide)

end Sample
end Bmux.Control
