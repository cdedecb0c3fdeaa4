import Bmux.L2Control.Dedup

/-!
# Membership published by derived commands (`plugins/cluster-plugin/src/consensus_membership.rs`)

A publication upserts each member record under a command id that is a digest of some fields of
the record, so that a retry finds its own outcome. The state machine compares whole requests
under an id, and answers a request it knows without another look at the members.

* `publish_simulates`: a run of upserts under unused ids, and the run of derived commands beside
  it, whose states differ in their deduplication records only.
* `publication_upserts`: so both leave the same members exactly if the derived ids differ and each is
  unused or was used for the record that is current now.
-/
namespace Bmux.Control
open Std Wire List
open Canonical (Uuid Digest utf8)

def ClusterMemberState.debug : ClusterMemberState → String
  | .active => "Active"
  | .revoked => "Revoked"
  | .left => "Left"

section
variable (env : Env) (principalId : String) (member : ClusterMember)

/-- mirrors plugins/cluster-plugin/src/consensus_membership.rs:420-431; the id is the first half of the digest -/
def membershipCommandId : Uuid :=
  (env.sha256 (utf8 "bmux.cluster.membership-command.v1\x00" ++ utf8 member.clusterId ++ utf8 member.nodeId ++
    utf8 member.credentialSerial ++ utf8 member.state.debug)).extractLsb' 128 128

def upsertCommand (id : Uuid) (member : ClusterMember) : ControlCommand :=
  ⟨CONTROL_SCHEMA_VERSION, principalId, ⟨id⟩, member.updatedAtUnixMs, .upsertMember member⟩

def membershipCommand : ControlCommand :=
  upsertCommand principalId (membershipCommandId env member) member

def ControlResponse.isAccepted (r : ControlResponse) : Bool :=
  match r.result with
  | .accepted _ => true
  | .rejected _ => false

/-- Commands one behind another, up to one that is rejected,
plugins/cluster-plugin/src/consensus_membership.rs:408-416 -/
def publish (env : Env) (s : ControlState) : List ControlCommand → Option ControlState
  | [] => some s
  | c :: commands =>
    match apply env s c with
    | some (next, response) => if response.isAccepted then publish env next commands else none
    | none => none

def publishMembers (s : ControlState) (principalId : String) (members : List ClusterMember) : Option ControlState :=
  publish env s ((members.mergeSort fun a b =>
    (compare a.nodeId b.nodeId).isLE).map (membershipCommand env principalId))

variable {env} {s s' t : ControlState} {principal : String} {m : ClusterMember} {r : ControlResponse}
  {d : ExtTreeMap DedupKey DedupRecord compare}

theorem publish_cons {c : ControlCommand} {commands : List ControlCommand} : publish env s (c :: commands) = some t ↔
    ∃ next r, apply env s c = some (next, r) ∧ r.isAccepted = true ∧ publish env next commands = some t := by
  rw [publish]
  cases apply env s c with
  | none => simp
  | some p =>
    obtain ⟨next, r⟩ := p
    cases hr : r.isAccepted <;> simp [hr]

theorem upsertMember_dedup (issued : UInt64) :
    upsertMember env { s with dedup := d } m issued = (upsertMember env s m issued).map fun p =>
      ({ p.1 with dedup := d }, p.2) := by
  have hendpoint : checkEndpoint env { s with dedup := d } m = checkEndpoint env s m := rfl
  have hexisting : checkExisting { s with dedup := d } m = checkExisting s m := rfl
  have hfloor : checkWriteFloor { s with dedup := d } m = checkWriteFloor s m := rfl
  unfold upsertMember
  rw [hendpoint, hexisting, hfloor]
  cases require (m.clusterId = s.clusterId) (invalidTransition "member belongs to a different cluster") <;>
    cases checkCredential env m issued <;> cases checkEndpoint env s m <;> cases checkExisting s m <;>
      cases checkWriteFloor s m <;> rfl

/-- An upsert under an unused id that is accepted would be under any other one, whatever else is
recorded. -/
theorem apply_upsert {id : Uuid} (hnone : s.dedup[(⟨principal, id⟩ : DedupKey)]? = none)
    (h : apply env s (upsertCommand principal id m) = some (s', r)) (hr : r.isAccepted = true) :
    ∃ next record, s' = { next with dedup := s.dedup.insert ⟨principal, id⟩ record } ∧
      next.members = s.members.insert m.nodeId m ∧ (s.members[m.nodeId]? = some m → next = s) ∧
      ∀ (d : ExtTreeMap DedupKey DedupRecord compare) (id' : Uuid), d[(⟨principal, id'⟩ : DedupKey)]? = none →
        ∃ record' r', apply env { s with dedup := d } (upsertCommand principal id' m) =
          some ({ next with dedup := d.insert ⟨principal, id'⟩ record' }, r') ∧ r'.isAccepted = true := by
  obtain ⟨fp, hfp, ⟨e, he, _⟩ | ⟨_, next, hran, rfl⟩⟩ := apply_cases h
  · cases hnone.symm.trans he
  · have hany {n o} (ho : commandOutcome env s (upsertCommand principal id m) =
      .ok (n, o)) (d : ExtTreeMap DedupKey DedupRecord compare)
        (id' : Uuid) (hnone' : d[(⟨principal, id'⟩ : DedupKey)]? = none) :
        apply env { s with dedup := d } (upsertCommand principal id' m) =
          (settle { s with dedup := d } (upsertCommand principal id' m) (.ok ({ n with dedup := d }, o))).map
            fun x => recordOutcome x.1 (upsertCommand principal id' m) fp x.2.1 x.2.2 := by
      have hfp' : requestFingerprint (ε := Unit) env.sha256 (upsertCommand principal id' m) = .ok fp := hfp
      have hkey : ({ s with dedup := d } : ControlState).dedup[dedupKey (upsertCommand principal id' m)]? = none :=
        hnone'
      have hup : upsertMember env s m m.updatedAtUnixMs = .ok (n, o) := ho
      have hout : commandOutcome env { s with dedup := d } (upsertCommand principal id' m) =
        .ok ({ n with dedup := d }, o) :=
        (upsertMember_dedup m.updatedAtUnixMs).trans (by rw [hup]; rfl)
      simp [apply, hfp', hkey, hout]
    cases hran with
    | rejected => cases hr
    | unchanged ok changed =>
      obtain ⟨-, -, hs, -⟩ := upsertMember_ok (commandOutcome_ok.mp ok).2
      refine ⟨_, _, rfl, congrArg (·.members) hs, fun _ => rfl, fun d id' hnone' => ?_⟩
      rw [hany ok d id' hnone', settle, changed]
      exact ⟨_, _, rfl, rfl⟩
    | changed ok _ changed next stamped =>
      obtain ⟨-, -, rfl, rfl⟩ := upsertMember_ok (commandOutcome_ok.mp ok).2
      cases stamped
      refine ⟨_, _, rfl, rfl, fun hm => ?_, fun d id' hnone' => ?_⟩
      · simp [ApplyOutcome.complete, hm] at changed
      · rw [hany ok d id' hnone', settle, changed, next]
        exact ⟨_, _, rfl, rfl⟩

/-- What was recorded under the id of a record is its own upsert, which was accepted and is
current. -/
def Repeats (env : Env) (members : ExtTreeMap String ClusterMember compare)
    (d : ExtTreeMap DedupKey DedupRecord compare)
    (principal : String) (m : ClusterMember) : Prop :=
  ∀ e, d[(⟨principal, membershipCommandId env m⟩ : DedupKey)]? = some e →
    requestFingerprint (ε := Unit) env.sha256 (membershipCommand env principal m) = .ok e.fingerprint ∧
      e.response.isAccepted = true ∧ members[m.nodeId]? = some m

/-- Upserts under unused ids, and the derived commands from a state that differs in its
deduplication records. -/
theorem publish_simulates {direct : List (Uuid × ClusterMember)}
    (hfresh : ∀ p ∈ direct, s.dedup[(⟨principal, p.1⟩ : DedupKey)]? = none) (hids : (direct.map Prod.fst).Nodup)
    (hnodes : (direct.map (·.2.nodeId)).Nodup) (hderived : (direct.map (membershipCommandId env ·.2)).Nodup)
    (hrepeats : ∀ p ∈ direct, Repeats env s.members d principal p.2)
    (h : publish env s (direct.map fun p => upsertCommand principal p.1 p.2) = some t) :
    ∃ d', publish env { s with dedup := d } (direct.map (membershipCommand env principal ·.2)) =
      some { t with dedup := d' } := by
  induction direct generalizing s d with
  | nil =>
    cases h
    exact ⟨d, rfl⟩
  | cons p direct ih =>
    obtain ⟨next, r, happly, hr, hrest⟩ := publish_cons.mp h
    obtain ⟨hid, hids⟩ := nodup_cons.mp hids
    obtain ⟨hnode, hnodes⟩ := nodup_cons.mp hnodes
    obtain ⟨hdid, hderived⟩ := nodup_cons.mp hderived
    obtain ⟨n, record, rfl, hmembers, hcurrent, hany⟩ := apply_upsert (hfresh p mem_cons_self) happly hr
    -- the upserts that follow find what they found before
    have hfresh' : ∀ q ∈ direct, (s.dedup.insert ⟨principal, p.1⟩ record)[(⟨principal, q.1⟩ : DedupKey)]? = none := by
      intro q hq
      rw [TreeMap.getElem?_insert, if_neg]
      · exact hfresh q (mem_cons_of_mem _ hq)
      · exact fun heq => hid (mem_map.mpr ⟨q, hq, (DedupKey.mk.inj heq).2.symm⟩)
    have hkept : ∀ q ∈ direct, n.members[q.2.nodeId]? = s.members[q.2.nodeId]? := by
      intro q hq
      rw [hmembers, TreeMap.getElem?_insert, if_neg]
      exact fun heq => hnode (mem_map.mpr ⟨q, hq, heq.symm⟩)
    cases hd : d[(⟨principal, membershipCommandId env p.2⟩ : DedupKey)]? with
    | none =>
      obtain ⟨record', r', happly', hr'⟩ := hany d (membershipCommandId env p.2) hd
      have hrepeats' : ∀ q ∈ direct, Repeats env n.members (d.insert ⟨principal,
        membershipCommandId env p.2⟩ record') principal q.2 := by
        intro q hq e he
        rw [TreeMap.getElem?_insert, if_neg] at he
        · rw [hkept q hq]
          exact hrepeats q (mem_cons_of_mem _ hq) e he
        · exact fun heq => hdid (mem_map.mpr ⟨q, hq, (DedupKey.mk.inj heq).2.symm⟩)
      obtain ⟨d', hd'⟩ := ih (s := { n with dedup := s.dedup.insert ⟨principal, p.1⟩ record })
        hfresh' hids hnodes hderived hrepeats' hrest
      exact ⟨d', publish_cons.mpr ⟨_, r', happly', hr', hd'⟩⟩
    | some e =>
      obtain ⟨hfp, haccepted, hm⟩ := hrepeats p mem_cons_self e hd
      cases hcurrent hm
      have hrepeats' : ∀ q ∈ direct, Repeats env s.members d principal q.2 :=
        fun q hq => hrepeats q (mem_cons_of_mem _ hq)
      obtain ⟨d', hd'⟩ := ih (s := { s with dedup := s.dedup.insert ⟨principal, p.1⟩ record }) hfresh' hids hnodes
        hderived hrepeats' hrest
      have hreplay := apply_of_record (s := { s with dedup := d }) hfp hd
      rw [if_pos rfl] at hreplay
      exact ⟨d', publish_cons.mpr ⟨_, _, hreplay, haccepted, hd'⟩⟩

theorem requestFingerprint_eq_ok {c : ControlCommand} {fp : Digest} :
    requestFingerprint (ε := Unit) env.sha256 c = .ok fp ↔
    ∃ b, fingerprintInput (ε := Unit) c = .ok b ∧ env.sha256 b = fp := by
  rw [requestFingerprint]
  cases fingerprintInput (ε := Unit) c <;> simp [Except.map]

/-- An accepted upsert was recorded before, or is stored and recorded now. -/
theorem upsert_accepted {id : Uuid} (h : apply env s (upsertCommand principal id m) = some (s', r))
    (hr : r.isAccepted = true) : ∃ e, s'.dedup[(⟨principal, id⟩ : DedupKey)]? = some e ∧
      requestFingerprint (ε := Unit) env.sha256 (upsertCommand principal id m) = .ok e.fingerprint ∧
      (s.dedup[(⟨principal, id⟩ : DedupKey)]? = some e ∧ e.response.isAccepted = true ∧ s' = s ∨
        s.dedup[(⟨principal, id⟩ : DedupKey)]? = none ∧ s'.dedup = s.dedup.insert ⟨principal, id⟩ e ∧
          s'.members = s.members.insert m.nodeId m) := by
  obtain ⟨fp, hfp, ⟨e, he, rfl, rfl⟩ | ⟨hnone, -⟩⟩ := apply_cases h
  · split at hr
    · next heq => exact ⟨e, he, heq ▸ hfp, .inl ⟨he, hr, rfl⟩⟩
    · cases hr
  · obtain ⟨fp', e, hfp', he, hrecord⟩ := recorded_of_apply h
    obtain ⟨next, record, rfl, hmembers, -⟩ := apply_upsert hnone h hr
    have hrecorded : record = e := by
      have hget : (s.dedup.insert (⟨principal, id⟩ : DedupKey) record)[(⟨principal, id⟩ : DedupKey)]? = some e := he
      rw [TreeMap.getElem?_insert, if_pos rfl] at hget
      exact Option.some.inj hget
    have hconflict : r.result ≠ .rejected .commandIdConflict := by
      intro hresult
      simp [ControlResponse.isAccepted, hresult] at hr
    exact ⟨e, he, (hrecord hconflict).1 ▸ hfp', .inr ⟨hnone, hrecorded ▸ rfl, hmembers⟩⟩

/-- The members of other nodes stay. -/
theorem publish_members {l : List (Uuid × ClusterMember)} {n : String} (hn : n ∉ l.map (·.2.nodeId))
    (h : publish env s (l.map fun p => upsertCommand principal p.1 p.2) = some t) :
    t.members[n]? = s.members[n]? := by
  induction l generalizing s with
  | nil =>
    cases h
    rfl
  | cons p l ih =>
    obtain ⟨next, r, happly, hr, hrest⟩ := publish_cons.mp h
    obtain ⟨hp, hn⟩ : ¬n = p.2.nodeId ∧ n ∉ l.map (·.2.nodeId) := by simpa using hn
    rw [ih hn hrest]
    obtain ⟨e, -, -, ⟨-, -, rfl⟩ | ⟨-, -, hmembers⟩⟩ := upsert_accepted happly hr
    · rfl
    · rw [hmembers, TreeMap.getElem?_insert, if_neg (Ne.symm hp)]

/-- Under unused ids, every record is stored. -/
theorem publish_stores {l : List (Uuid × ClusterMember)}
    (hfresh : ∀ p ∈ l, s.dedup[(⟨principal, p.1⟩ : DedupKey)]? = none)
    (hids : (l.map Prod.fst).Nodup) (hnodes : (l.map (·.2.nodeId)).Nodup)
    (h : publish env s (l.map fun p => upsertCommand principal p.1 p.2) = some t) :
    ∀ p ∈ l, t.members[p.2.nodeId]? = some p.2 := by
  induction l generalizing s with
  | nil => nofun
  | cons p l ih =>
    obtain ⟨next, r, happly, hr, hrest⟩ := publish_cons.mp h
    obtain ⟨hid, hids⟩ := nodup_cons.mp hids
    obtain ⟨hnode, hnodes⟩ := nodup_cons.mp hnodes
    obtain ⟨e, -, -, ⟨he, -⟩ | ⟨-, hdedup, hmembers⟩⟩ := upsert_accepted happly hr
    · cases (hfresh p mem_cons_self).symm.trans he
    · rintro q (_ | ⟨_, hq⟩)
      · simp [publish_members hnode hrest, hmembers]
      · refine ih (fun q hq => ?_) hids hnodes hrest q hq
        rw [hdedup, TreeMap.getElem?_insert, if_neg]
        · exact hfresh q (mem_cons_of_mem _ hq)
        · exact fun heq => hid (mem_map.mpr ⟨q, hq, (DedupKey.mk.inj heq).2.symm⟩)

/-- Derived commands that are all accepted have ids of their own, and what was recorded under such an id before is
the upsert of its record, which then leaves the members of its node alone. -/
theorem publish_derived {l : List ClusterMember} (hnodes : (l.map ClusterMember.nodeId).Nodup)
    (hdigest : ∀ m ∈ l, ∀ m' ∈ l, ∀ fp, requestFingerprint (ε := Unit) env.sha256
    (membershipCommand env principal m) = .ok fp →
      requestFingerprint (ε := Unit) env.sha256 (membershipCommand env principal m') = .ok fp → m = m')
    (h : publish env s (l.map (membershipCommand env principal)) = some t) :
    (l.map (membershipCommandId env)).Nodup ∧
      ∀ m ∈ l, ∀ e, s.dedup[(⟨principal, membershipCommandId env m⟩ : DedupKey)]? = some e →
        requestFingerprint (ε := Unit) env.sha256 (membershipCommand env principal m) = .ok e.fingerprint ∧
          e.response.isAccepted = true ∧ t.members[m.nodeId]? = s.members[m.nodeId]? := by
  induction l generalizing s with
  | nil => exact ⟨nodup_nil, nofun⟩
  | cons m l ih =>
    obtain ⟨next, r, happly, hr, hrest⟩ := publish_cons.mp h
    obtain ⟨hnode, hnodes⟩ := nodup_cons.mp hnodes
    obtain ⟨hderived, hrepeats⟩ := ih hnodes
      (fun m hm m' hm' => hdigest m (mem_cons_of_mem _ hm) m' (mem_cons_of_mem _ hm')) hrest
    obtain ⟨e, he, hfp, hstep⟩ := upsert_accepted happly hr
    have hother : ∀ q ∈ l, next.members[q.nodeId]? = s.members[q.nodeId]? := by
      intro q hq
      obtain ⟨-, -, rfl⟩ | ⟨-, -, hmembers⟩ := hstep
      · rfl
      · rw [hmembers, TreeMap.getElem?_insert, if_neg]
        exact fun heq => hnode (mem_map.mpr ⟨q, hq, heq.symm⟩)
    have hkept : ∀ q ∈ l, ∀ e', s.dedup[(⟨principal, membershipCommandId env q⟩ : DedupKey)]? = some e' →
        next.dedup[(⟨principal, membershipCommandId env q⟩ : DedupKey)]? = some e' := by
      intro q hq e' he'
      obtain ⟨-, -, rfl⟩ | ⟨hnone, hdedup, -⟩ := hstep
      · exact he'
      · rw [hdedup, TreeMap.getElem?_insert, if_neg, he']
        intro heq
        rw [heq] at hnone
        cases hnone.symm.trans he'
    refine ⟨nodup_cons.mpr ⟨fun hmem => ?_, hderived⟩, ?_⟩
    · -- the record of the first command is what the second one finds
      obtain ⟨q, hq, hid⟩ := mem_map.mp hmem
      obtain ⟨hfp', -⟩ := hrepeats q hq e (by rw [hid]; exact he)
      obtain rfl := hdigest m mem_cons_self q (mem_cons_of_mem _ hq) _ hfp hfp'
      exact hnode (mem_map_of_mem hq)
    · rintro q (_ | ⟨_, hq⟩) e' he'
      · obtain ⟨hrecord, haccepted, rfl⟩ | ⟨hnone, -⟩ := hstep
        · cases hrecord.symm.trans he'
          have hnode' : m.nodeId ∉ (l.map fun m => (membershipCommandId env m, m)).map (·.2.nodeId) := by
            simpa using hnode
          exact ⟨hfp, haccepted, publish_members hnode' (by rw [map_map]; exact hrest)⟩
        · cases hnone.symm.trans he'
      · rw [← hother q hq]
        exact hrepeats q hq e' (hkept q hq e' he')

/-- **Membership publication.** Records that upserts under unused ids would take, each once per node, are published
with the same members exactly if the ids derived from them differ, and each is unused or was used for a record that is
current. The digest is to distinguish the requests. -/
theorem publication_upserts {members : List ClusterMember} {direct : List (Uuid × ClusterMember)}
    (horder : direct.map Prod.snd = members.mergeSort fun a b => (compare a.nodeId b.nodeId).isLE)
    (hfresh : ∀ p ∈ direct, s.dedup[(⟨principal, p.1⟩ : DedupKey)]? = none) (hids : (direct.map Prod.fst).Nodup)
    (hnodes : (members.map ClusterMember.nodeId).Nodup)
    (hdirect : publish env s (direct.map fun p => upsertCommand principal p.1 p.2) = some t)
    (hdigest : Set.InjOn env.sha256
      {b | ∃ m ∈ members, fingerprintInput (ε := Unit) (membershipCommand env principal m) = .ok b}) :
    (∃ t', publishMembers env s principal members = some t' ∧ t'.members = t.members) ↔
      (members.map (membershipCommandId env)).Nodup ∧ ∀ m ∈ members, Repeats env s.members s.dedup principal m := by
  have hperm : (direct.map Prod.snd).Perm members := horder ▸ mergeSort_perm ..
  have hnodup {α : Type} {f : ClusterMember → α} : (direct.map fun p => f p.2).Nodup ↔ (members.map f).Nodup := by
    rw [← (hperm.map f).nodup_iff, map_map]
    rfl
  rw [publishMembers, ← horder, map_map]
  constructor
  · rintro ⟨t', hpublished, hmembers⟩
    rw [← map_map] at hpublished
    have hdistinct : ∀ m ∈ direct.map Prod.snd, ∀ m' ∈ direct.map Prod.snd, ∀ fp,
        requestFingerprint (ε := Unit) env.sha256 (membershipCommand env principal m) = .ok fp →
        requestFingerprint (ε := Unit) env.sha256 (membershipCommand env principal m') = .ok fp → m = m' := by
      intro m hm m' hm' fp hfp hfp'
      obtain ⟨b, hb, rfl⟩ := requestFingerprint_eq_ok.mp hfp
      obtain ⟨b', hb', heq⟩ := requestFingerprint_eq_ok.mp hfp'
      obtain rfl := hdigest ⟨m', hperm.mem_iff.mp hm', hb'⟩ ⟨m, hperm.mem_iff.mp hm, hb⟩ heq
      exact ControlCommandRequest.upsertMember.inj (fingerprintInput_inj hb hb')
    obtain ⟨hderived, hrepeats⟩ := publish_derived ((hperm.map _).nodup_iff.mpr hnodes) hdistinct hpublished
    refine ⟨(hperm.map _).nodup_iff.mp hderived, fun m hm e he => ?_⟩
    obtain ⟨hfp, haccepted, hkept⟩ := hrepeats m (hperm.mem_iff.mpr hm) e he
    obtain ⟨p, hp, rfl⟩ := mem_map.mp (hperm.mem_iff.mpr hm)
    refine ⟨hfp, haccepted, ?_⟩
    rw [← hkept, hmembers]
    exact publish_stores hfresh hids (hnodup.mpr hnodes) hdirect p hp
  · rintro ⟨hderived, hrepeats⟩
    obtain ⟨d, hd⟩ := publish_simulates hfresh hids (hnodup.mpr hnodes) (hnodup.mpr hderived)
      (fun p hp => hrepeats p.2 (hperm.mem_iff.mp (mem_map_of_mem hp))) hdirect
    exact ⟨{ t with dedup := d }, hd, rfl⟩

end

namespace Sample

def joined : ClusterMember := member "n" .active 1

def published : ControlState := after (.new "c") [.command (membershipCommand env "p" joined)]

/-- Publishing the same record again. -/
theorem retry_upserts : ∃ t t', publish env published [upsertCommand "p" 7 joined] = some t ∧
    publishMembers env published "p" [joined] = some t' ∧ t'.members = t.members := by
  obtain ⟨t, ht⟩ := Option.isSome_iff_exists.mp
    (by decide +kernel : (publish env published [upsertCommand "p" 7 joined]).isSome = true)
  have hrecord : (published.dedup[(⟨"p", membershipCommandId env joined⟩ : DedupKey)]?.all fun e =>
      decide (requestFingerprint (ε := Unit) env.sha256 (membershipCommand env "p" joined) = .ok e.fingerprint ∧
        e.response.isAccepted = true ∧ published.members["n"]? = some joined)) = true := by decide +kernel
  have hrepeats : ∀ m ∈ [joined], Repeats env published.members published.dedup "p" m := by
    intro m hm e he
    cases mem_singleton.mp hm
    rw [he] at hrecord
    exact of_decide_eq_true hrecord
  have horder : ([(7, joined)] : List (Uuid × ClusterMember)).map Prod.snd = [joined].mergeSort fun a b =>
    (compare a.nodeId b.nodeId).isLE :=
    (mergeSort_singleton _).symm
  have hdigest : Set.InjOn env.sha256
      {b | ∃ m ∈ [joined], fingerprintInput (ε := Unit) (membershipCommand env "p" m) = .ok b} := by
    rintro b ⟨m, hm, hb⟩ b' ⟨m', hm', hb'⟩ -
    cases mem_singleton.mp hm
    cases mem_singleton.mp hm'
    exact Except.ok.inj (hb.symm.trans hb')
  have hiff := publication_upserts horder (by decide +kernel) (nodup_singleton _) (nodup_singleton _) ht hdigest
  obtain ⟨t', ht', hmembers⟩ := hiff.mpr ⟨nodup_singleton _, hrepeats⟩
  exact ⟨t, t', ht, ht', hmembers⟩

/-- The record is updated a millisecond later: an upsert under a new id is accepted, and the
derived command is not. -/
theorem update_not_published : Reachable env published ∧ published.dedup[(⟨"p", 7⟩ : DedupKey)]? = none ∧
    (publish env published [upsertCommand "p" 7 (member "n" .active 2)]).isSome = true ∧
      publishMembers env published "p" [member "n" .active 2] = none :=
  ⟨reachable_after (by decide +kernel), by decide +kernel, by decide +kernel, by decide +kernel⟩

end Sample
end Bmux.Control
