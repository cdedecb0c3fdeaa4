import Bmux.L2Control.References

/-!
# The lifecycle of members

A member is active, then revoked, then left. `SetMemberState` checks the
transition; `UpsertMember` writes the whole record and only refuses to make
an inactive member active, so a member that left can come back as revoked
(`left_member_revoked`). Otherwise states only move forward
(`membership_lifecycle`), no two active members share an endpoint and every
active voter has one.
-/
namespace Bmux.Control
open Std Canonical ClusterMemberState
open TreeMap (All)

def ClusterMemberState.rank : ClusterMemberState → Nat
  | .active => 0
  | .revoked => 1
  | .left => 2

/-- Active members have their own endpoints, and active voters have one. -/
structure Catalogue.Endpoints (c : Catalogue) : Prop where
  unique : ∀ (j k : String) (m n : ClusterMember) (e : String), c.members[j]? = some m →
    c.members[k]? = some n → m.state = .active → n.state = .active → m.endpoint = some e →
    n.endpoint = some e → j = k
  voters : All (fun _ m => m.state = .active → m.capabilities.consensusRole = .voter →
    m.endpoint.isSome = true) c.members

/-- An `UpsertMember` that will be accepted and turns a member that left into
a revoked one. -/
def RevokesLeft (s : ControlState) (op : Op) : Prop :=
  ∃ c member m, op = .command c ∧ Fresh s c ∧ c.request = .upsertMember member ∧
    UpsertGuard s.members member ∧ member.state = .revoked ∧
    s.members[member.nodeId]? = some m ∧ m.state = .left

/-! ## Steps -/

theorem rank_le_of_valid {a b : ClusterMemberState} (h : validMemberTransition a b = true) :
    a.rank ≤ b.rank := by
  cases a <;> cases b <;> simp_all [validMemberTransition, rank]

theorem active_of_valid {a : ClusterMemberState} (h : validMemberTransition a .active = true) :
    a = .active := by
  cases a <;> simp_all [validMemberTransition]

section
variable {c : Catalogue}

/-- A member record may be written if it is inactive, or if its endpoint is
free and, for a voter, present. -/
theorem Catalogue.Endpoints.put (h : c.Endpoints) {k : String} {m : ClusterMember}
    (hfree : m.state = .active → ∀ e, m.endpoint = some e → ∀ (j : String) (n : ClusterMember),
      c.members[j]? = some n → j ≠ k → n.state = .active → n.endpoint ≠ some e)
    (hvoter : m.state = .active → m.capabilities.consensusRole = .voter → m.endpoint.isSome = true) :
    { c with members := c.members.insert k m }.Endpoints where
  unique := by
    intro i j a b e ha hb hact hact' he he'
    rw [TreeMap.getElem?_insert] at ha hb
    split at ha <;> split at hb
    · rename_i hi hj; rw [← hi, ← hj]
    · rename_i hi hj
      cases ha
      exact absurd he' (hfree hact e he j b hb (Ne.symm hj) hact')
    · rename_i hi hj
      cases hb
      exact absurd he (hfree hact' e he' i a ha (Ne.symm hi) hact)
    · exact h.unique i j a b e ha hb hact hact' he he'
  voters := h.voters.insert hvoter

theorem Catalogue.Endpoints.replace (h : c.Endpoints) {k : String} {m n : ClusterMember}
    (hm : c.members[k]? = some m) (hact : n.state = .active → m.state = .active)
    (hend : m.endpoint = n.endpoint) (hrole : m.capabilities = n.capabilities) :
    { c with members := c.members.insert k n }.Endpoints := by
  refine h.put ?_ ?_
  · intro hn e he j a ha hjk haact haend
    exact hjk (h.unique j k a m e ha hm haact (hact hn) haend (hend.trans he))
  · intro hn hv
    rw [← hend]
    exact h.voters k m hm (hact hn) (by rw [hrole]; exact hv)

end

section
variable {env : Env} {s t : ControlState} {op : Op} {c' : Catalogue} {k : String} {m : ClusterMember}

/-- Every effect keeps the endpoints of active members apart. -/
theorem Effect.endpoints (he : Effect s op c') (hwf : s.catalogue.WellFormed)
    (hs : s.catalogue.Endpoints) : c'.Endpoints := by
  cases he with
  | same => exact hs
  | bump => exact ⟨hs.unique, hs.voters⟩
  | refresh next found active stays sameEndpoint sameRole =>
    have hr := hs.replace found (fun _ => active) sameEndpoint sameRole
    exact ⟨hr.unique, hr.voters⟩
  | request fresh request next effect =>
    cases effect with
    | @upsertMember member guard =>
      have hput := hs.put (k := member.nodeId) (m := member) ?_ ?_
      · exact ⟨hput.unique, hput.voters⟩
      · intro _ e hend j n hn hjk hact
        refine guard.endpointFree e hend j n hn ?_ hact
        rw [hwf.members j n hn]
        exact hjk
      · intro hact hvoter
        cases hend : member.endpoint with
        | none => exact absurd hvoter (guard.voterEndpoint hend hact)
        | some e => rfl
    | @setMemberState nodeId serial state m found valid =>
      have hr := hs.replace (n := { m with state }) found (fun hact => ?_) rfl rfl
      · exact ⟨hr.unique, hr.voters⟩
      · cases hact
        exact active_of_valid valid
    | _ => exact ⟨hs.unique, hs.voters⟩

/-- A member stays, and its state moves forward only, but for `RevokesLeft`. -/
theorem Effect.member (he : Effect s op c') (hm : s.members[k]? = some m) (hleft : ¬ RevokesLeft s op) :
    ∃ m', c'.members[k]? = some m' ∧ m.state.rank ≤ m'.state.rank := by
  have hput : ∀ (id : String) (n : ClusterMember), (id = k → m.state.rank ≤ n.state.rank) →
      ∃ m', (s.members.insert id n)[k]? = some m' ∧ m.state.rank ≤ m'.state.rank := by
    intro id n hn
    rw [TreeMap.getElem?_insert]
    split
    · rename_i hid; exact ⟨n, rfl, hn hid⟩
    · exact ⟨m, hm, le_rfl⟩
  cases he with
  | same | bump => exact ⟨m, hm, le_rfl⟩
  | refresh next found active stays =>
    refine hput _ _ fun hid => ?_
    rw [hid, hm] at found
    cases found
    simp [active, stays]
  | @request c _ _ _ fresh hreq next effect =>
    cases effect with
    | @upsertMember member guard =>
      refine hput _ _ fun hid => ?_
      rw [← hid] at hm
      by_contra hback
      -- only `Left → Revoked` passes the checks
      have hno := guard.notReactivated m hm
      cases hms : m.state with
      | active => simp [hms, rank] at hback
      | revoked => cases hst : member.state <;> simp_all [rank]
      | left =>
        cases hst : member.state with
        | active => exact hno (by simp [hms]) hst
        | revoked => exact hleft ⟨c, member, m, rfl, fresh, hreq, guard, hst, hm, hms⟩
        | left => simp [hms, hst] at hback
    | @setMemberState nodeId serial state m' found valid =>
      refine hput _ _ fun hid => ?_
      have hmm : m' = m := by
        rw [hid] at found
        exact Option.some.inj (found.symm.trans hm)
      subst hmm
      exact rank_le_of_valid valid
    | _ => exact ⟨m, hm, le_rfl⟩

theorem endpoints_of_reachable {ok : ControlState → Op → Prop} (h : ReachableWith env ok s) :
    s.catalogue.Endpoints := by
  obtain ⟨clusterId, hrun⟩ := h
  have hinv := hrun.invariant (I := fun s => s.catalogue.WellFormed ∧ s.catalogue.Endpoints)
    (fun _ _ _ ⟨hwf, hs⟩ _ hstep => ⟨(step_effect hstep).wellFormed hwf, (step_effect hstep).endpoints hwf hs⟩)
    ⟨(new_referential clusterId).records, ?_⟩
  · exact hinv.2
  · refine ⟨?_, All.empty⟩
    intro j k m n e hj
    simp [ControlState.new, ControlState.catalogue] at hj

/-- **Membership lifecycle.** In every state reached without revoking a
member that left, active endpoints are unique and active voters have one; and
along every such run onwards each member's state only moves forward. -/
theorem membership_lifecycle (h : ReachableWith env (fun s op => ¬ RevokesLeft s op) s)
    (hrun : Run (step env) (fun s op => ¬ RevokesLeft s op) s t) :
    (s.catalogue.Endpoints ∧ t.catalogue.Endpoints) ∧
    ∀ (k : String) (m : ClusterMember), s.members[k]? = some m →
      ∃ m', t.members[k]? = some m' ∧ m.state.rank ≤ m'.state.rank := by
  obtain ⟨clusterId, hstart⟩ := h
  refine ⟨⟨endpoints_of_reachable ⟨clusterId, hstart⟩,
    endpoints_of_reachable ⟨clusterId, hstart.trans hrun⟩⟩, ?_⟩
  intro k m hm
  exact hrun.invariant (I := fun t => ∃ m', t.members[k]? = some m' ∧ m.state.rank ≤ m'.state.rank)
    (fun u op u' ⟨m', hm', hle⟩ hok hstep => by
      obtain ⟨m'', hm'', hle'⟩ := (step_effect hstep).member hm' hok
      exact ⟨m'', hm'', Nat.le_trans hle hle'⟩) ⟨m, hm, le_rfl⟩

end

/-! ## Concrete runs -/

namespace Sample

/-- A member joins and leaves. -/
theorem join_then_leave : ∃ m', (after (.new "c") (ops [.upsertMember (member "n" .active 0),
    .setMemberState "n" "" .left])).members["n"]? = some m' ∧
    active.rank ≤ m'.state.rank := by
  have h1 : Run (step env) (fun s op => ¬ RevokesLeft s op) (.new "c")
      (after (.new "c") (ops [.upsertMember (member "n" .active 0)])) := by
    refine (Run.refl _).tail (i := .command (command 1 (.upsertMember (member "n" .active 0)))) ?_ rfl
    rintro ⟨_, _, _, hc, _, hreq, _, hst, _⟩
    cases hc; cases hreq; cases hst
  have h2 : Run (step env) (fun s op => ¬ RevokesLeft s op)
      (after (.new "c") (ops [.upsertMember (member "n" .active 0)]))
      (after (.new "c") (ops [.upsertMember (member "n" .active 0), .setMemberState "n" "" .left])) := by
    refine (Run.refl _).tail (i := .command (command 2 (.setMemberState "n" "" .left))) ?_ rfl
    rintro ⟨_, _, _, hc, _, hreq, _⟩
    cases hc; cases hreq
  exact (membership_lifecycle ⟨"c", h1⟩ h2).2 "n" (member "n" .active 0) rfl

/-- A member that left comes back as revoked. -/
theorem left_member_revoked : ∃ s s' m m', Reachable env s ∧
    step env s (.command (command 3 (.upsertMember (member "n" .revoked 1)))) = some s' ∧
    s.members["n"]? = some m ∧ m.state = .left ∧ s'.members["n"]? = some m' ∧ m'.state = .revoked := by
  refine ⟨after (.new "c") (ops [.upsertMember (member "n" .active 0), .setMemberState "n" "" .left]),
    _, _, _, ?_, rfl, rfl, rfl, rfl, rfl⟩
  exact reachable_after (by decide +kernel)

end Sample
end Bmux.Control
