import Bmux.L2Control.Restore

/-!
# What the state machine writes stays within the codec's limits

The codec's writer asserts a limit on every string, list and byte field. A
state is only ever built from validated commands, so its records keep the
limits (`Effect.valid`). The responses it records carry texts of their own:
literals, identities and the errors of outside checks. `ErrorsFit` follows
them through every arm (`commandOutcome_errors`, `featureCheck_errors`).
-/
namespace Bmux.Control
open Std Canonical Wire
open TreeMap (All)

/-! ## Records stay within the codec's limits -/

theorem validatePane_iff {p : LogicalPaneRecord} : validatePane p = .ok () ↔
    validateOptionalString p.name = .ok () ∧ validateOptionalString p.availabilityReason = .ok () ∧
    validateOptionalString p.placement.explicitNodeId = .ok () ∧
    validateLabels p.placement.requiredLabels = .ok () ∧ validateLabels p.placement.preferredLabels = .ok () ∧
    ∀ assignment ∈ p.execution, validateAssignment assignment = .ok () := by
  unfold validatePane
  cases p.execution <;> simp

section
variable {c c' : Catalogue} {rev : UInt64} {r : ControlCommandRequest}

/-- A validated request writes records within the limits. -/
theorem RequestEffect.valid (he : RequestEffect c rev r c') (h : c.Valid) (hr : validateRequest r = .ok ()) :
    c'.Valid := by
  cases he with
  | upsertMember _ sameCluster =>
    exact ⟨h.members.insert ⟨hr, sameCluster⟩, h.workspaces, h.tabs, h.panes⟩
  | setMemberState found _ =>
    have hold := h.members _ _ found
    exact ⟨h.members.insert hold, h.workspaces, h.tabs, h.panes⟩
  | createWorkspace | renameWorkspace => exact ⟨h.members, h.workspaces.insert hr, h.tabs, h.panes⟩
  | putTab found _ =>
    have hold := h.workspaces _ _ found
    exact ⟨h.members, h.workspaces.insert hold, h.tabs.insert hr, h.panes⟩
  | removeTab _ _ _ => exact ⟨h.members, h.workspaces, h.tabs.erase, h.panes⟩
  | putPane found _ _ _ _ =>
    have hold := h.workspaces _ _ found
    exact ⟨h.members, h.workspaces.insert hold, h.tabs, h.panes.insert hr⟩
  | removePane _ => exact ⟨h.members, h.workspaces, h.tabs, h.panes.erase⟩
  | assignExecution found _ =>
    obtain ⟨hname, _, hnode, hreq, hpref, _⟩ := validatePane_iff.mp (h.panes _ _ found)
    refine ⟨h.members, h.workspaces, h.tabs, h.panes.insert (validatePane_iff.mpr ?_)⟩
    refine ⟨hname, rfl, hnode, hreq, hpref, ?_⟩
    rintro _ ⟨⟩
    exact (both_ok.mp hr).1
  | setPaneAvailability found _ =>
    obtain ⟨hname, _, hnode, hreq, hpref, hexec⟩ := validatePane_iff.mp (h.panes _ _ found)
    refine ⟨h.members, h.workspaces, h.tabs, h.panes.insert (validatePane_iff.mpr ?_)⟩
    exact ⟨hname, (both_ok.mp hr).2, hnode, hreq, hpref, hexec⟩
  | completeWorkflow | pruneDedup => exact { h with }

end

section
variable {s : ControlState} {op : Op} {c' : Catalogue}

theorem Effect.valid (he : Effect s op c') (hs : s.catalogue.Valid) : c'.Valid := by
  cases he with
  | same => exact hs
  | bump => exact { hs with }
  | refresh _ _ _ _ _ _ sameCluster valid =>
    exact ⟨hs.members.insert ⟨valid, sameCluster⟩, hs.workspaces, hs.tabs, hs.panes⟩
  | request _ _ _ effect valid => exact effect.valid hs valid

theorem Effect.later (he : Effect s op c') : c'.clusterId = s.clusterId ∧ s.revision ≤ c'.revision := by
  cases he with
  | same => exact ⟨rfl, UInt64.le_refl _⟩
  | bump _ next => exact ⟨rfl, UInt64.le_of_lt (lt_of_checkedSucc next)⟩
  | refresh next => exact ⟨rfl, UInt64.le_of_lt (lt_of_checkedSucc next)⟩
  | request _ _ next effect =>
    have hlt := UInt64.le_of_lt (lt_of_checkedSucc next)
    cases effect <;> exact ⟨rfl, hlt⟩

end

/-! ## Errors fit a string field -/

/-- What the surroundings guarantee about the texts they hand out: the errors
of credential and endpoint checks and the form of a public key are short. -/
structure Env.TextsFit (env : Env) : Prop where
  credential : ∀ m t e, env.verifyMembershipCredential m t = .error e → (utf8 e).length + 32 ≤ MAX_STRING_BYTES
  endpoint : ∀ v e, env.validateAdvertisedEndpoint v = .error e → (utf8 e).length + 32 ≤ MAX_STRING_BYTES
  publicKey : ∀ k, (utf8 (env.displayPublicKey k)).length ≤ MAX_STRING_BYTES

def ErrorsFit {α : Type} (x : Except ControlCommandError α) : Prop := ∀ e, x = .error e → e.WithinLimits

namespace ErrorsFit
variable {α β : Type} {x : Except ControlCommandError α} {f : α → Except ControlCommandError β}
  {e : ControlCommandError}

theorem ok (a : α) : ErrorsFit (.ok a : Except ControlCommandError α) := by
  intro e h; cases h

theorem error (h : e.WithinLimits) : ErrorsFit (.error e : Except ControlCommandError α) := by
  intro e' h'; cases h'; exact h

theorem bind (hx : ErrorsFit x) (hf : ∀ {a}, ErrorsFit (f a)) : ErrorsFit (x >>= f) := by
  cases x with
  | error e' => exact error (hx e' rfl)
  | ok a => exact hf

theorem require {p : Prop} [Decidable p] (h : e.WithinLimits) : ErrorsFit (require p e) := by
  unfold Control.require
  split
  · exact ok ()
  · exact error h

theorem orError {v : Option α} (h : e.WithinLimits) : ErrorsFit (orError v e) := by
  unfold Control.orError
  split
  · exact ok _
  · exact error h

end ErrorsFit

theorem uuidString_fits (id : Uuid) : (utf8 (uuidString id)).length ≤ MAX_STRING_BYTES := by
  refine (utf8_ofList_le _).trans ?_
  simp [MAX_STRING_BYTES]

theorem invalidTransition_fits {reason : String} (h : (utf8 reason).length ≤ MAX_STRING_BYTES) :
    (invalidTransition reason).WithinLimits := h

theorem ErrorsFit.transition {p : Prop} [Decidable p] {reason : String} (h : (utf8 reason).length ≤ MAX_STRING_BYTES) :
    ErrorsFit (Control.require p (invalidTransition reason)) := .require (invalidTransition_fits h)

section
variable {env : Env} {s : ControlState}

theorem workspace_errors (id : WorkspaceId) : ErrorsFit (workspace s id) := .orError (uuidString_fits _)

theorem checkCredential_errors (henv : env.TextsFit) (m : ClusterMember) (t : UInt64) :
    ErrorsFit (checkCredential env m t) := by
  unfold checkCredential
  split
  · exact .ok ()
  · rename_i e he
    have hlen := henv.credential m t e he
    have hlabel : (utf8 "member credential is invalid: ").length = 30 := by decide
    refine .error (invalidTransition_fits ?_)
    rw [utf8_append_length]
    omega

theorem checkEndpoint_errors (henv : env.TextsFit) (m : ClusterMember) : ErrorsFit (checkEndpoint env s m) := by
  unfold checkEndpoint
  split
  · rename_i endpoint _
    split
    · rename_i e he
      have hlen := henv.endpoint endpoint e he
      have hlabel : (utf8 "member endpoint is invalid: ").length = 28 := by decide
      refine .error (invalidTransition_fits ?_)
      rw [utf8_append_length]
      omega
    · exact .transition (by decide)
  · exact .transition (by decide)

theorem checkExisting_errors (m : ClusterMember) : ErrorsFit (checkExisting s m) := by
  unfold checkExisting
  split
  · exact .ok ()
  · refine .bind (.transition (by decide)) ?_
    refine .bind (.transition (by decide)) ?_
    refine .bind (.transition (by decide)) ?_
    refine .bind (.transition (by decide)) ?_
    exact .transition (by decide)

theorem upsertMember_errors (henv : env.TextsFit) (m : ClusterMember) (now : UInt64) :
    ErrorsFit (upsertMember env s m now) := by
  refine .bind (.transition (by decide)) ?_
  refine .bind (checkCredential_errors henv m now) ?_
  refine .bind (checkEndpoint_errors henv m) ?_
  refine .bind (checkExisting_errors m) ?_
  exact .bind (.transition (by decide)) (.ok _)

/-- Every error that a command is answered with fits a string field. -/
theorem commandOutcome_errors (henv : env.TextsFit) {c : ControlCommand}
    (hc : validateCommand c = .ok ()) : ErrorsFit (commandOutcome env s c) := by
  have hr := (both_ok.mp hc).2
  unfold commandOutcome
  split
  · unfold applyRequest
    split
    · exact upsertMember_errors henv _ _
    · rename_i hreq
      rw [hreq] at hr
      refine .bind (.orError (validateString_ok.mp (both_ok.mp hr).1)) ?_
      exact .bind (.transition (by decide)) <| .bind (.transition (by decide)) (.ok _)
    -- workspaces
    · exact .bind (.require (uuidString_fits _)) (.ok _)
    · exact .bind (workspace_errors _) <| .bind (.require trivial) (.ok _)
    -- tabs
    · exact .bind (workspace_errors _) <| .bind (.require trivial) (.ok _)
    · refine .bind (.orError (uuidString_fits _)) <| .bind (workspace_errors _) ?_
      exact .bind (.require trivial) <| .bind (.transition (by decide)) (.ok _)
    -- panes
    · have hrefs (pane : LogicalPaneRecord) : ErrorsFit (requirePaneReferences s pane) :=
        .bind (workspace_errors _) <| .bind (.orError (uuidString_fits _)) <| .require (uuidString_fits _)
      refine .bind (hrefs _) <| .bind (workspace_errors _) ?_
      exact .bind (.require trivial) <| .bind (.require trivial) (.ok _)
    · refine .bind (.orError (uuidString_fits _)) <| .bind (.require trivial) ?_
      intro _
      split
      · exact .bind (.require trivial) (.ok _)
      · exact .ok _
    · refine .bind (.transition (by decide)) <| .bind (.orError (uuidString_fits _)) ?_
      exact .bind (.require trivial) <| .bind (.require trivial) <| .bind (.require trivial) (.ok _)
    · refine .bind (.orError (uuidString_fits _)) <| .bind (.require trivial) ?_
      exact .bind (.require trivial) (.ok _)
    -- workflows
    · refine .bind (.orError (uuidString_fits _)) ?_
      intro record
      split <;> exact .ok _
    · exact .ok _
  · exact .error trivial

theorem featureCheck_errors (c : FeatureActivationCommand) (m : Option StoredMembership) :
    ErrorsFit (featureCheck env s c m) := by
  have hsupport : ErrorsFit (requireMemberSupport env s c m) :=
    .bind (.transition (by decide)) <| .transition (by decide)
  have hvalidate : ErrorsFit (validateFeatureActivation env s c m) := by
    refine .bind (.require trivial) <| .bind (.transition (by decide)) ?_
    split
    · exact hsupport
    · exact .ok _
  refine .bind hvalidate ?_
  unfold requireCommittedMembers
  split
  · exact .bind (.orError (invalidTransition_fits (by decide))) <|
      .transition (by decide)
  · exact .ok _

end

end Bmux.Control
