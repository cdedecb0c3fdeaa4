import Bmux.L2Control.References

/-!
# What a response says about the state

A rejected command leaves its outcome and nothing else. An accepted one moves the revision by one
exactly if it changed a record or the outcome of another command (`response_frame`): the arms report
every change, and no record of a well-formed state has the revision that changed records are stamped with.
-/
namespace Bmux.Control
open Std Bmux.TreeMap

/-- What a command can change is the same, its own outcome apart. -/
structure Untouched (c : ControlCommand) (s s' : ControlState) : Prop where
  members : s'.members = s.members
  workspaces : s'.workspaces = s.workspaces
  tabs : s'.tabs = s.tabs
  panes : s'.panes = s.panes
  readFloor : s'.readSchemaFloor = s.readSchemaFloor
  writeFloor : s'.writeSchemaFloor = s.writeSchemaFloor
  features : s'.activatedFeatures = s.activatedFeatures
  outcomes : ∀ k, k ≠ dedupKey c → s'.dedup[k]? = s.dedup[k]?
  featureOutcomes : s'.featureDedup = s.featureDedup

variable {env : Env} {s s' n : ControlState} {c : ControlCommand} {o : ApplyOutcome} {rev : UInt64}

theorem DedupChange.own (h : DedupChange s c n) (hnone : s.dedup[dedupKey c]? = none) :
    n.dedup[dedupKey c]? = none := by
  cases h with
  | same ordinary => rw [ordinary, hnone]
  | completed _ found _ ordinary =>
    grind
  | pruned _ ordinary => simp [ordinary, hnone]

/-- An arm that reports a change leaves something else than it found. -/
theorem Arm.touched (h : Arm s c n o) (hc : o.changed = true) (hwf : s.catalogue.WellFormed)
    (hnone : s.dedup[dedupKey c]? = none) (hrev : s.revision < rev) (d : DedupRecord) :
    ¬ Untouched c s { setChangedRecordRevisions { n with revision := rev } c.request with
      dedup := n.dedup.insert (dedupKey c) d } := by
  intro ⟨hm, hw, ht, hp, _, _, _, hd, hf⟩
  have hws : ∀ k (w : WorkspaceRecord), s.workspaces[k]? ≠ some (w.withRevision rev) := fun k w hk =>
    UInt64.not_lt.mpr (hwf.workspaces k _ hk).2 hrev
  have hts : ∀ k (t : LogicalTabRecord), s.tabs[k]? ≠ some (t.withRevision rev) := fun k t hk =>
    UInt64.not_lt.mpr (hwf.tabs k _ hk).2.1 hrev
  have hps : ∀ k (p : LogicalPaneRecord), s.panes[k]? ≠ some (p.withRevision rev) := fun k p hk =>
    UInt64.not_lt.mpr (hwf.panes k _ hk).2.1 hrev
  have hsame : n.members = s.members ∧ n.featureDedup = s.featureDedup ∧ n.workspaces = s.workspaces ∧
      n.tabs = s.tabs ∧ n.panes = s.panes := by
    generalize c.request = r at hm hw ht hp hf
    cases r with
    | createWorkspace | renameWorkspace => exact ⟨hm, hf, eq_of_modify hw (hws _), ht, hp⟩
    | putTab => exact ⟨hm, hf, eq_of_modify hw (hws _), eq_of_modify ht (hts _), hp⟩
    | putPane => exact ⟨hm, hf, eq_of_modify hw (hws _), ht, eq_of_modify hp (hps _)⟩
    | assignExecution | setPaneAvailability => exact ⟨hm, hf, hw, ht, eq_of_modify hp (hps _)⟩
    | _ => exact ⟨hm, hf, hw, ht, hp⟩
  have hdedup : n.dedup = s.dedup := by
    apply ExtTreeMap.ext_getElem?
    intro k
    by_cases hk : k = dedupKey c
    · rw [hk, h.dedup.own hnone, hnone]
    · rw [← hd k hk, TreeMap.getElem?_insert, if_neg (Ne.symm hk)]
  have hn : n = s := by
    obtain ⟨hm, hf, hw, ht, hp⟩ := hsame
    rw [h.frame, hm, hw, ht, hp, hdedup, hf]
  rw [h.unchanged.mpr hn] at hc
  cases hc

end Bmux.Control
