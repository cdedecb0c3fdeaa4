import Bmux.L2Control.Durability

/-!
# The state machine on disk (`plugins/cluster-plugin/src/consensus_storage.rs`)

A batch of log entries is applied to a copy of the control state. The copy is committed, and
then takes the place of the state. A node that stops, before a commit or behind one, comes back
with what `openControl` makes of the row (`committed_recovered`).

The position in the log (`last_applied`) and the membership row are left out: which entries a
node is handed again after a restart is not part of the model.
-/
namespace Bmux.Control
open Canonical Wire

/-- The control row of the database, and the state in memory while the node is up. `committed`
lists the calls of the batches committed so far; the node does not keep them. -/
structure Node where
  row : Option Bytes := none
  memory : Option ControlState := none
  committed : List Op := []

inductive NodeEvent where
  | commit (batch : List Op)
  | stop
  | restart

section
variable (env : Env) (clusterId : String)

/-- mirrors plugins/cluster-plugin/src/consensus_storage.rs:475-525, with the row that is left; `none` is an error -/
def openControl : Option Bytes → Option (ControlState × Option Bytes)
  | none => some (.new clusterId, none)
  | some bytes => do
    let s ← (decodeSnapshot env bytes).toOption
    let canonical ← (encodeSnapshot env s).toOption
    if s.clusterId ≠ clusterId then none else some (s, some canonical)

variable (n : Node)

/-- mirrors plugins/cluster-plugin/src/consensus_storage.rs:748-781; `none` is an error, which leaves the node as
it is -/
def Node.step : NodeEvent → Option Node
  | .commit batch => do
    let s ← n.memory
    let next ← batch.foldlM (Control.step env) s
    let bytes ← (encodeSnapshot env next).toOption
    return ⟨some bytes, some next, n.committed ++ batch⟩
  | .stop => some { n with memory := none }
  | .restart => do
    let opened ← openControl env clusterId n.row
    return { n with row := opened.2, memory := some opened.1 }

/-- The batch leads to a state that a snapshot can hold. -/
def Node.Safe : NodeEvent → Prop
  | .commit batch => ∀ s ∈ n.memory, ∀ next ∈ batch.foldlM (Control.step env) s,
    Run (Control.step env) (SnapshotSafe env) s next ∧ NestedFits env next
  | _ => True

/-- Opening the row gives the state that the calls listed lead to, and leaves the row as it is. A
node that is up is in that state. -/
def Node.Recovers (s : ControlState) : Prop :=
  n.committed.foldlM (Control.step env) (.new clusterId) = some s ∧
    openControl env clusterId n.row = some (s, n.row) ∧ ∀ t ∈ n.memory, t = s

end

/-- **Crash recovery.** Whatever batches were committed, and wherever the node stopped and came back,
the row holds the state that they lead to. -/
theorem committed_recovered {env : Env} {clusterId : String} (henv : env.TextsFit)
    (hcluster : (utf8 clusterId).length ≤ MAX_STRING_BYTES) {n : Node}
    (hrun : Run (Node.step env clusterId) (Node.Safe env) {} n) : ∃ s, n.Recovers env clusterId s := by
  have hheld := hrun.invariant
    (I := fun n => ∃ s, n.Recovers env clusterId s ∧ Durable env s ∧ s.clusterId = clusterId) ?_
    ⟨_, ⟨rfl, rfl, nofun⟩, durable_new hcluster, rfl⟩
  · exact hheld.imp fun _ => And.left
  rintro n event n' ⟨s, ⟨hcommitted, hopen, hmemory⟩, hs⟩ hsafe hstep
  cases event with
  | commit batch =>
    simp only [Node.step, bind, Option.bind_eq_some_iff, pure, Option.some.injEq] at hstep
    obtain ⟨t, ht, next, hnext, bytes, hbytes, rfl⟩ := hstep
    obtain ⟨hcalls, hfits⟩ := hsafe t ht next hnext
    obtain rfl := hmemory t ht
    have hheld : Durable env next ∧ next.clusterId = clusterId :=
      hcalls.invariant (I := fun s => Durable env s ∧ s.clusterId = clusterId)
        (fun _ _ _ hs hsafe h => ⟨step_durable henv h hs.1 hsafe, (step_effect h).later.1.trans hs.2⟩) hs
    have hencode : encodeSnapshot env next = .ok bytes := by
      cases h : encodeSnapshot env next <;> simp_all [Except.toOption]
    have hdecode := (restores hheld.1 hfits).2 bytes hencode
    refine ⟨next, ⟨?_, ?_, ?_⟩, hheld⟩
    · simp [hcommitted, hnext]
    · simp [openControl, hdecode, hencode, Except.toOption, hheld.2]
    · simp
  | stop =>
    cases hstep
    exact ⟨s, ⟨hcommitted, hopen, nofun⟩, hs⟩
  | restart =>
    simp only [Node.step, hopen] at hstep
    cases hstep
    exact ⟨s, ⟨hcommitted, hopen, fun t ht => (Option.some.inj ht).symm⟩, hs⟩

namespace Sample

def created : ControlState := after (.new "c") (ops [create 1])

theorem created_recovered : ∃ s, Node.Recovers env "c" ⟨some (stored created), some created, ops [create 1]⟩ s := by
  have hbytes : encodeSnapshot env created = .ok (stored created) := encode_stored (by decide +kernel)
  have hnext : (ops [create 1]).foldlM (step env) (.new "c") = some created := rfl
  have hup : Run (Node.step env "c") (Node.Safe env) {} { memory := some (.new "c") } :=
    (Run.refl _).tail (i := .restart) trivial rfl
  refine committed_recovered textsFit (by decide) (hup.tail (i := .commit (ops [create 1])) ?_ ?_)
  · intro s hs next h
    cases hs
    cases hnext.symm.trans h
    refine ⟨(Run.refl _).tail (i := .command (command 1 (create 1))) (safe_command rfl (by decide +kernel) ?_) rfl, ?_⟩
    · rintro ⟨_, _, _, _, hop, _, hreq, _⟩
      cases hop
      cases hreq
    · exact fun h => h.elim nofun (absurd rfl)
  · simp only [Node.step, bind, Option.bind, hnext, hbytes, Except.toOption]
    rfl

end Sample

end Bmux.Control
