import Bmux.L2Control.Snapshot
import Bmux.L2Control.Effects

/-!
# Publication batches in a snapshot

The decoder of a snapshot does not trust the publication history: it decodes
every batch again and replays the bookkeeping of `apply_publication` over it
(`tallyEntry`). This module shows that a batch that was accepted once is
decoded to itself, and that appending an accepted batch keeps the history
replayable.

* `publication_decode`: what `encode` writes, `decode` gives back.
* `HistoryInv`: the replay succeeds, and its tally says how often each node
  has reported and which identities are used.
* `HistoryInv.append`: an accepted publication keeps it.
-/
namespace Bmux.Control
open Std Canonical Wire List Writer Tally ControlState PublicationCommand

/-! ## One report -/

theorem reportFields_lawful : LawfulOn
    (fun r : CapabilityReport => r.features.length ≤ 128 ∧ r.signature = [])
    encodeReportFields decodeReportFields :=
  LawfulAs.toOn (.arg (magic_lawful CAPABILITY_DOMAIN) <| .arg u16_lawful <|
    .arg string_lawful <| .arg string_lawful <| .arg string_lawful <|
    .arg u64_lawful <| .arg string_lawful <| .arg u64_lawful <|
    .arg u64_lawful <| .arg uuid_lawful <| .arg u32_lawful <|
    .arg u32_lawful <| .arg (list_lawful "report features" 128 (by decide) string_lawful)
    .done) (fun x => by cases x; simp) rfl

variable {r : CapabilityReport} {p b : Bytes}

section
variable (h : signingPayload r = .ok p)
include h

theorem signingPayload_ok : r.WellFormed ∧ encodeReportFields r = .ok p := by
  unfold signingPayload at h
  split at h
  · rename_i hwf; exact ⟨hwf, h⟩
  · cases h

theorem decodeReportPayload_ok : decodeReportPayload p = .ok { r with signature := [] } := by
  obtain ⟨hwf, hp⟩ := signingPayload_ok h
  have hfeatures : r.features.length ≤ 128 := by tauto
  have hread := reportFields_lawful.roundtrip (a := { r with signature := [] }) [] ⟨hfeatures, rfl⟩ hp
  rw [append_nil] at hread
  exact whole_ok.mpr hread

theorem signingPayload_length : p.length ≤ 18413 := by
  obtain ⟨hwf, hp⟩ := signingPayload_ok h
  obtain ⟨_, _, _, _, _, hc, _, hn, _, hs, _, hl, hcount, hf, _⟩ := hwf
  have hsc := size_string_le (ε := String) r.clusterId
  have hsn := size_string_le (ε := String) r.nodeId
  have hss := size_string_le (ε := String) r.credentialSerial
  have hsl := size_string_le (ε := String) r.membershipLeaderId
  have hsf : size (list string r.features : Put String) ≤ 4 + r.features.length * 132 := by
    refine size_list_le fun f hmem => ?_
    have hfeature := size_string_le (ε := String) f
    have hbound := (hf f hmem).2
    omega
  have hdomain : CAPABILITY_DOMAIN.length = 39 := rfl
  have hlen := length_of_seq hp
  simp only [map_cons, map_nil, sum_cons, sum_nil, size_raw, size_u16,
    size_u32, size_uuid, size_u64, hdomain] at hlen
  omega

end

/-! ## One batch -/

variable {ids : List Uuid} {rs : List CapabilityReport}

theorem encodeReports_cons
    (h : encodeReports ids (r :: rs) = .ok b) : r.commandId.value ∉ ids ∧ ∃ p b₁ b₂ b₃,
      signingPayload r = .ok p ∧ (bytes p : Put String) = .ok b₁ ∧ r.signature.length = 64 ∧
      (bytes r.signature : Put String) = .ok b₂ ∧
      encodeReports (r.commandId.value :: ids) rs = .ok b₃ ∧ b = b₁ ++ (b₂ ++ b₃) := by
  unfold encodeReports at h
  split at h
  · cases h
  · rename_i hid
    split at h
    · cases h
    · rename_i hsig
      obtain ⟨b₁, c₁, h₁, h', rfl⟩ := seq_cons_ok.mp h
      obtain ⟨b₂, c₂, h₂, h'', rfl⟩ := seq_cons_ok.mp h'
      rw [seq_single] at h''
      obtain ⟨p, hp, h₁⟩ := bind_eq_ok.mp h₁
      exact ⟨hid, p, b₁, b₂, c₂, hp, h₁, by simpa using hsig, h₂, h'', rfl⟩

section
variable (h : encodeReports ids rs = .ok b)
include h

theorem encodeReports_ids : (rs.map (·.commandId.value)).Nodup ∧
      ∀ r ∈ rs, r.commandId.value ∉ ids := by
  induction rs generalizing ids b with
  | nil => simp
  | cons r rs ih =>
    obtain ⟨hid, _, _, _, _, _, _, _, _, hrest, _⟩ := encodeReports_cons h
    obtain ⟨hnodup, hfree⟩ := ih hrest
    constructor
    · refine nodup_cons.mpr ⟨fun hmem => ?_, hnodup⟩
      obtain ⟨r', hr', heq⟩ := mem_map.mp hmem
      exact hfree r' hr' (by rw [heq]; exact mem_cons_self)
    · intro r' hr'
      rcases mem_cons.mp hr' with rfl | hr'
      · exact hid
      · exact fun hmem => hfree r' hr' (mem_cons_of_mem _ hmem)

theorem encodeReports_run (rest : Bytes) :
    (repeatGet decodeReport rs.length).run (b ++ rest) = .ok (rs, rest) := by
  induction rs generalizing ids b with
  | nil => cases h; rfl
  | cons r rs ih =>
    obtain ⟨_, p, b₁, b₂, b₃, hp, h₁, _, h₂, h₃, rfl⟩ := encodeReports_cons h
    have hpayload := bytes_lawful.roundtrip (b₂ ++ (b₃ ++ rest)) trivial h₁
    have hsignature := bytes_lawful.roundtrip (b₃ ++ rest) trivial h₂
    have hdecode := run_lift_ok (decodeReportPayload_ok hp) (b₂ ++ (b₃ ++ rest))
    have hreport : decodeReport.run (b₁ ++ (b₂ ++ (b₃ ++ rest))) = .ok (r, b₃ ++ rest) := by
      unfold decodeReport
      rw [run_bind_ok hpayload, run_bind_ok hdecode, run_bind_ok hsignature, run_pure]
    simp only [length_cons, repeatGet, append_assoc]
    rw [run_bind_ok hreport, run_bind_ok (ih h₃), run_pure]

theorem encodeReports_length : b.length ≤ rs.length * 18485 := by
  induction rs generalizing ids b with
  | nil => cases h; simp
  | cons r rs ih =>
    obtain ⟨_, p, b₁, b₂, b₃, hp, h₁, hsig, h₂, h₃, rfl⟩ := encodeReports_cons h
    have hp' := signingPayload_length hp
    have hl₁ := size_bytes_le (ε := String) p
    have hl₂ := size_bytes_le (ε := String) r.signature
    have hl₃ := ih h₃
    rw [h₁] at hl₁
    rw [h₂] at hl₂
    simp only [size_ok] at hl₁ hl₂
    simp only [length_append, length_cons]
    omega

end

variable {c : PublicationCommand}

theorem publication_encode_ok (h : c.encode = .ok b) :
    c.reports ≠ [] ∧ c.reports.length ≤ 128 ∧ (c.reports.map CapabilityReport.nodeId).IsChain (· < ·) ∧
    ∃ d, encodeReports [] c.reports = .ok d ∧
      seq [raw PUBLICATION_MAGIC, u16 1, u64 c.verifiedAtUnixMs,
        u16 (UInt16.ofNat c.reports.length), (.ok d : Put String)] = .ok b := by
  unfold encode at h
  split at h
  · cases h
  · rename_i hcheck
    simp only [not_or, not_not, Nat.not_lt] at hcheck
    refine ⟨hcheck.1, hcheck.2.1, hcheck.2.2, ?_⟩
    cases hd : encodeReports [] c.reports with
    | ok d => rw [hd] at h; exact ⟨d, rfl, h⟩
    | error e => rw [hd] at h; cases h

theorem publication_length (h : c.encode = .ok b) : b.length ≤ 3 * 1024 * 1024 := by
  obtain ⟨_, hcount, _, d, hd, hb⟩ := publication_encode_ok h
  have hlen := length_of_seq hb
  have hdlen := encodeReports_length hd
  simp only [map_cons, map_nil, sum_cons, sum_nil, size_raw, size_u16,
    size_u64, size_ok, PUBLICATION_MAGIC, length_cons, length_nil] at hlen
  omega

theorem reportCount_recovers {n : Nat} (hpos : n ≠ 0) (hle : n ≤ 128) :
    Recovers (u16 (UInt16.ofNat n) : Put String) decodeReportCount (UInt16.ofNat n) := by
  have hval : (UInt16.ofNat n).toNat = n := UInt16.toNat_ofNat_of_lt' (by simp [UInt16.size]; omega)
  have hcheck : UInt16.ofNat n ≠ 0 ∧ UInt16.ofNat n ≤ 128 := by
    constructor
    · intro hzero
      rw [hzero] at hval
      exact hpos hval.symm
    · rw [UInt16.le_iff_toNat_le, hval]
      exact hle
  refine ⟨fun b rest hb => ?_, (writes_u16 _).noPanic⟩
  unfold decodeReportCount
  rw [run_bind_ok (u16_lawful.roundtrip rest trivial hb), if_pos hcheck, run_pure]

/-- What `encode` writes, `decode` gives back. -/
theorem publication_decode (h : c.encode = .ok b) : decode b = .ok c := by
  obtain ⟨hne, hcount, _, d, hd, hb⟩ := publication_encode_ok h
  have hval : (UInt16.ofNat c.reports.length).toNat = c.reports.length :=
    UInt16.toNat_ofNat_of_lt' (by simp [UInt16.size]; omega)
  have hreports : Recovers (.ok d : Put String) (repeatGet decodeReport c.reports.length) c.reports := by
    refine ⟨fun b' rest hb' => ?_, by simp⟩
    cases hb'
    exact encodeReports_run hd rest
  have hfields : Recovers (seq [raw PUBLICATION_MAGIC, u16 1, u64 c.verifiedAtUnixMs,
      u16 (UInt16.ofNat c.reports.length), (.ok d : Put String)]) decodePublicationFields c := by
    refine .bind ((magic_lawful PUBLICATION_MAGIC).recovers (a := ()) trivial (writes_raw _)) ?_
    refine .bind ((schema_lawful (· == 1)).recovers rfl (writes_u16 _)) ?_
    refine .bind (u64_lawful.recovers trivial (writes_u64 _)) ?_
    refine .bind (reportCount_recovers (by simpa using hne) hcount) ?_
    rw [hval]
    exact .bind hreports .pure
  have hread := hfields.reads b [] hb
  rw [append_nil] at hread
  unfold decode
  rw [if_neg (by have := publication_length h; omega), whole_ok.mpr hread]
  simp only [h]
  rfl

/-! ## What an accepted publication was checked for -/

section
variable {env : Env} {members : ExtTreeMap String ClusterMember compare} {m : StoredMembership}
  {clusterId : String} {now : UInt64}

variable {u : Unit}

theorem verifyReport_cluster {r : CapabilityReport} {member : ClusterMember}
    (h : verifyReport env r member m clusterId now = .ok u) : r.clusterId = clusterId := by
  simp only [verifyReport, bind_eq_ok] at h
  obtain ⟨_, _, h⟩ := h
  split at h
  · cases h
  · split at h
    · cases h
    · simp only [bind_eq_ok, orFail_ok, ensure_ok, exists_const] at h
      exact h.1.2.1

variable {rs : List CapabilityReport}

theorem verifyReports_cluster {seen : List String}
    (h : verifyReports env members m clusterId now seen rs = .ok u) : ∀ r ∈ rs, r.clusterId = clusterId := by
  induction rs generalizing seen with
  | nil => simp
  | cons r rs ih =>
    simp only [verifyReports, bind_eq_ok] at h
    obtain ⟨_, _, h⟩ := h
    split at h
    · cases h
    · simp only [bind_eq_ok] at h
      obtain ⟨_, hr, _, _, hrest⟩ := h
      exact forall_mem_cons.mpr ⟨verifyReport_cluster hr, ih hrest⟩

theorem verifyBridge_cluster
    (h : verifyBridge env rs members m clusterId now = .ok u) : ∀ r ∈ rs, r.clusterId = clusterId := by
  simp only [verifyBridge, bind_eq_ok] at h
  obtain ⟨_, _, _, _, h⟩ := h
  exact verifyReports_cluster h

end

variable {history : List (PublicationCommand × UInt64)}

/-- A batch that matches nothing in the history shares no identity with it. -/
theorem matchHistory_none (h : matchHistory rs history = none) :
    ∀ e ∈ history, ∀ old ∈ e.1.reports, ∀ new ∈ rs, old.commandId ≠ new.commandId := by
  induction history with
  | nil => simp
  | cons e history ih =>
    unfold matchHistory at h
    split at h
    · cases h
    · split at h
      · cases h
      · rename_i hfree
        refine forall_mem_cons.mpr ⟨fun old hold new hnew heq => ?_, ih h⟩
        exact hfree ⟨old, hold, new, hnew, heq⟩

section
variable (history : List (PublicationCommand × UInt64))

def reportCount (nodeId : String) : Nat :=
  history.countP fun entry => entry.1.reports.any fun report => report.nodeId = nodeId

/-- The latest report of a node carries the number of the reports before it. -/
def Consecutive (nodeId : String) : Prop :=
  match latestReport history nodeId with
  | some report => report.expectedReportRevision.toNat + 1 = reportCount history nodeId
  | none => reportCount history nodeId = 0

theorem latestReport_append (c : PublicationCommand)
    (revision : UInt64) (nodeId : String) : latestReport (history ++ [(c, revision)]) nodeId =
      (c.reports.find? fun report => report.nodeId = nodeId).or (latestReport history nodeId) := by
  unfold latestReport
  rw [reverse_append, reverse_singleton, singleton_append, findSome?_cons]
  cases c.reports.find? fun report => decide (report.nodeId = nodeId) <;> rfl

theorem reportCount_append (c : PublicationCommand)
    (revision : UInt64) (nodeId : String) : reportCount (history ++ [(c, revision)]) nodeId =
      reportCount history nodeId + if c.reports.any (fun report => report.nodeId = nodeId) then 1 else 0 := by
  simp [reportCount]

end

theorem checkReportRevision_ok
    (hc : Consecutive history r.nodeId) (h : checkReportRevision history r = .ok ()) :
    r.expectedReportRevision.toNat = reportCount history r.nodeId := by
  unfold checkReportRevision at h
  unfold Consecutive at hc
  cases hl : latestReport history r.nodeId with
  | none =>
    rw [hl] at h hc
    simp only [ensure_ok] at h hc
    rw [h, hc]
    rfl
  | some old =>
    rw [hl] at h hc
    simp only at h hc
    cases hs : checkedSucc old.expectedReportRevision with
    | none => rw [hs] at h; cases h
    | some expected =>
      rw [hs] at h
      simp only [ensure_ok] at h
      rw [h, checkedSucc_toNat hs, hc]

theorem consecutive_append {revision : UInt64} (hc : ∀ nodeId, Consecutive history nodeId)
    (hr : ∀ r ∈ c.reports, r.expectedReportRevision.toNat = reportCount history r.nodeId) (nodeId : String) :
    Consecutive (history ++ [(c, revision)]) nodeId := by
  unfold Consecutive
  rw [latestReport_append, reportCount_append]
  cases hf : c.reports.find? fun report => report.nodeId = nodeId with
  | some r =>
    have hnode : r.nodeId = nodeId := by simpa using find?_some hf
    have hmem := mem_of_find?_eq_some hf
    have hany : c.reports.any (fun report => report.nodeId = nodeId) = true :=
      any_eq_true.mpr ⟨r, hmem, by simpa using hnode⟩
    rw [hany, ← hnode, ← hr r hmem]
    rfl
  | none =>
    have hany : c.reports.any (fun report => report.nodeId = nodeId) = false := by
      rw [any_eq_false]
      exact find?_eq_none.mp hf
    rw [hany]
    exact hc nodeId

/-! ## Replaying the history -/

def Tally.next (t : Tally) (nodeId : String) : UInt64 := t.revisions[nodeId]?.getD 0

def Tally.record (t : Tally) (r : CapabilityReport) : Tally :=
  { t with
    ids := t.ids.insert r.commandId.value
    revisions := t.revisions.insert r.nodeId (t.next r.nodeId + 1) }

variable {t : Tally}

theorem Tally.mem_record_ids {id : Uuid} :
    id ∈ (t.record r).ids ↔ r.commandId.value = id ∨ id ∈ t.ids := by
  simp [record]

theorem Tally.next_record (nodeId : String) :
    (t.record r).next nodeId = if r.nodeId = nodeId then t.next r.nodeId + 1 else t.next nodeId := by
  simp only [next, record, TreeMap.getElem?_insert]
  split <;> rfl

/-- The reports of a batch the replay has to take. -/
structure Tally.Takes (t : Tally) (clusterId : String) (rs : List CapabilityReport) : Prop where
  cluster : ∀ r ∈ rs, r.clusterId = clusterId
  expected : ∀ r ∈ rs, r.expectedReportRevision = t.next r.nodeId
  bounded : ∀ r ∈ rs, r.expectedReportRevision.toNat + 1 < 2 ^ 64
  unused : ∀ r ∈ rs, r.commandId.value ∉ t.ids
  ids : (rs.map (·.commandId.value)).Nodup
  nodes : (rs.map CapabilityReport.nodeId).Nodup

section
variable {t : Tally} {clusterId : String} {r : CapabilityReport} {rs : List CapabilityReport}

section
variable (h : t.Takes clusterId (r :: rs))
include h

theorem Tally.Takes.next_toNat : (t.next r.nodeId + 1).toNat = (t.next r.nodeId).toNat + 1 := by
  have hlt := h.bounded r mem_cons_self
  rw [h.expected r mem_cons_self] at hlt
  exact checkedSucc_toNat (checkedSucc_eq.mpr ⟨hlt, rfl⟩)

theorem tallyReport_ok : tallyReport clusterId t r = .ok (t.record r) := by
  have hexp : r.expectedReportRevision = t.revisions[r.nodeId]?.getD 0 := h.expected r mem_cons_self
  have hlt := h.bounded r mem_cons_self
  rw [hexp] at hlt
  have hcheck : ¬ (r.clusterId ≠ clusterId ∨ r.expectedReportRevision ≠ t.revisions[r.nodeId]?.getD 0 ∨
      r.commandId.value ∈ t.ids) := by
    simp only [not_or, not_not]
    exact ⟨h.cluster r mem_cons_self, hexp, h.unused r mem_cons_self⟩
  unfold tallyReport
  rw [if_neg hcheck, checkedSucc_eq.mpr ⟨hlt, rfl⟩]
  rfl

theorem Tally.Takes.tail : (t.record r).Takes clusterId rs := by
  obtain ⟨hidr, hids⟩ := nodup_cons.mp h.ids
  obtain ⟨hnoder, hnodes⟩ := nodup_cons.mp h.nodes
  refine ⟨fun x hx => h.cluster x (mem_cons_of_mem _ hx), fun x hx => ?_,
    fun x hx => h.bounded x (mem_cons_of_mem _ hx), fun x hx hmem => ?_, hids, hnodes⟩
  · have hne : ¬ r.nodeId = x.nodeId := fun heq => hnoder (heq ▸ mem_map_of_mem hx)
    rw [next_record, if_neg hne]
    exact h.expected x (mem_cons_of_mem _ hx)
  · rcases mem_record_ids.mp hmem with heq | hmem
    · exact hidr (mem_map.mpr ⟨x, hx, heq.symm⟩)
    · exact h.unused x (mem_cons_of_mem _ hx) hmem

end

end

structure Tally.After (t : Tally) (rs : List CapabilityReport) (t' : Tally) : Prop where
  last : t'.lastRevision = t.lastRevision
  ids : ∀ id, id ∈ t'.ids ↔ id ∈ t.ids ∨ ∃ r ∈ rs, r.commandId.value = id
  next : ∀ nodeId, (t'.next nodeId).toNat =
    (t.next nodeId).toNat + if rs.any (fun r => r.nodeId = nodeId) then 1 else 0

theorem tallyReports_ok {clusterId : String}
    (h : t.Takes clusterId rs) : ∃ t', rs.foldlM (tallyReport clusterId) t = .ok t' ∧ t.After rs t' := by
  induction rs generalizing t with
  | nil => exact ⟨t, rfl, rfl, by simp, by simp⟩
  | cons r rs ih =>
    obtain ⟨t', ht', hafter⟩ := ih h.tail
    refine ⟨t', ?_, hafter.last, fun id => ?_, fun nodeId => ?_⟩
    · rw [foldlM_cons, tallyReport_ok h]
      exact ht'
    · rw [hafter.ids, mem_record_ids, exists_mem_cons_iff]
      tauto
    · rw [hafter.next, next_record]
      by_cases hnode : r.nodeId = nodeId
      · -- no other report of the batch is from this node
        have hrest : rs.any (fun x => decide (x.nodeId = nodeId)) = false := by
          refine any_eq_false.mpr fun x hx heq => (nodup_cons.mp h.nodes).1 ?_
          exact mem_map.mpr ⟨x, hx, (of_decide_eq_true heq).trans hnode.symm⟩
        rw [if_pos hnode, hrest, h.next_toNat, ← hnode]
        simp
      · simp [hnode]

/-! ## The history of a state -/

structure Tally.Of (t : Tally) (s : ControlState) : Prop where
  last : t.lastRevision ≤ s.revision
  ids : ∀ id, id ∈ t.ids ↔ ∃ e ∈ s.publicationHistory, ∃ r ∈ e.1.reports, r.commandId.value = id
  next : ∀ nodeId, (t.next nodeId).toNat = reportCount s.publicationHistory nodeId

/-- The history can be encoded and replayed. -/
structure HistoryInv (s : ControlState) : Prop where
  bounded : s.publicationHistory.length ≤ 64
  encodes : ∀ entry ∈ s.publicationHistory, Writes entry.1.encode
  replays : ∃ t, s.publicationHistory.foldlM (tallyEntry s) .start = .ok t ∧ t.Of s
  consecutive : ∀ nodeId, Consecutive s.publicationHistory nodeId

@[simp] theorem checkState_ok {p : Prop} [Decidable p] {reason : String} {u : Unit} :
    checkState p reason = .ok u ↔ p := by
  unfold checkState; split <;> simp [*]

section
variable {env : Env} {s s' : ControlState}

variable {t : Tally}

/-- A later revision of the same cluster replays what an earlier one did. -/
theorem tallyEntry_mono {t' : Tally} {e : PublicationCommand × UInt64}
    (hc : s'.clusterId = s.clusterId) (hr : s.revision ≤ s'.revision) (h : tallyEntry s t e = .ok t') :
    tallyEntry s' t e = .ok t' := by
  obtain ⟨_, hcheck, hrest⟩ := bind_eq_ok.mp h
  rw [checkState_ok, not_or] at hcheck
  refine bind_eq_ok.mpr ⟨(), checkState_ok.mpr (not_or.mpr ⟨hcheck.1, ?_⟩), ?_⟩
  · exact UInt64.not_lt.mpr (UInt64.le_trans (UInt64.not_lt.mp hcheck.2) hr)
  · rw [hc]; exact hrest

theorem replay_mono {l : List (PublicationCommand × UInt64)} {t' : Tally}
    (hc : s'.clusterId = s.clusterId) (hr : s.revision ≤ s'.revision)
    (h : l.foldlM (tallyEntry s) t = .ok t') : l.foldlM (tallyEntry s') t = .ok t' := by
  induction l generalizing t with
  | nil => exact h
  | cons e l ih =>
    rw [foldlM_cons, bind_eq_ok] at h ⊢
    obtain ⟨t₁, h₁, h₂⟩ := h
    exact ⟨t₁, tallyEntry_mono hc hr h₁, ih h₂⟩

theorem HistoryInv.later (h : HistoryInv s) (hh : s'.publicationHistory = s.publicationHistory)
    (hc : s'.clusterId = s.clusterId) (hr : s.revision ≤ s'.revision) : HistoryInv s' := by
  obtain ⟨t, ht, hof⟩ := h.replays
  refine ⟨hh ▸ h.bounded, hh ▸ h.encodes, ⟨t, ?_, UInt64.le_trans hof.last hr, hh ▸ hof.ids, hh ▸ hof.next⟩,
    hh ▸ h.consecutive⟩
  rw [hh]
  exact replay_mono hc hr ht

theorem historyInv_new (clusterId : String) : HistoryInv (.new clusterId) :=
  ⟨zero_le, by simp [new], ⟨.start, rfl, UInt64.le_refl _, by
    simp [Tally.start, new], fun _ => by rfl⟩,
    fun _ => by simp [Consecutive, latestReport, reportCount, new]⟩

/-- What `apply_publication` checks of a batch is what the replay asks of it. -/
theorem takes_of_accepted {c : PublicationCommand} {m : StoredMembership} (h : HistoryInv s)
    (hof : t.Of s) (hw : Writes c.encode) (hmatch : matchHistory c.reports s.publicationHistory = none)
    (hbridge : verifyBridge env c.reports s.members m s.clusterId c.verifiedAtUnixMs = .ok ())
    (hrevs : c.reports.forM (checkReportRevision s.publicationHistory) = .ok ()) :
    t.Takes s.clusterId c.reports := by
  obtain ⟨b, hb⟩ := hw
  obtain ⟨_, _, hnodes, d, hd, _⟩ := publication_encode_ok hb
  have hcount : ∀ r ∈ c.reports, r.expectedReportRevision.toNat = reportCount s.publicationHistory r.nodeId :=
    fun r hr => checkReportRevision_ok (h.consecutive r.nodeId) (forM_eq_ok.mp hrevs r hr)
  refine ⟨verifyBridge_cluster hbridge, fun r hr => ?_, fun r hr => ?_, fun r hr hmem => ?_,
    (encodeReports_ids hd).1, ?_⟩
  · exact UInt64.toNat_inj.mp ((hcount r hr).trans (hof.next r.nodeId).symm)
  · have hle : reportCount s.publicationHistory r.nodeId ≤ s.publicationHistory.length := countP_le_length
    have hbound := h.bounded
    rw [hcount r hr]
    omega
  · obtain ⟨e, he, old, hold, heq⟩ := (hof.ids _).mp hmem
    exact matchHistory_none hmatch e he old hold r hr (congrArg CommandId.mk heq)
  · exact (isChain_iff_pairwise.mp hnodes).imp fun hlt => hlt.ne

/-- An accepted batch is appended, and the history can still be replayed. -/
theorem HistoryInv.append {c : PublicationCommand} {m : StoredMembership} {rev : UInt64} (h : HistoryInv s)
    (hw : Writes c.encode) (hmatch : matchHistory c.reports s.publicationHistory = none)
    (hlen : s.publicationHistory.length < 64)
    (hbridge : verifyBridge env c.reports s.members m s.clusterId c.verifiedAtUnixMs = .ok ())
    (hrevs : c.reports.forM (checkReportRevision s.publicationHistory) = .ok ())
    (hrev : checkedSucc s.revision = some rev) :
    HistoryInv { s with publicationHistory := s.publicationHistory ++ [(c, rev)], revision := rev } := by
  obtain ⟨t, ht, hof⟩ := h.replays
  obtain ⟨t', ht', hafter⟩ := tallyReports_ok (takes_of_accepted h hof hw hmatch hbridge hrevs)
  have hlt := lt_of_checkedSucc hrev
  refine ⟨?_, ?_, ⟨{ t' with lastRevision := rev }, ?_, UInt64.le_refl _, fun id => ?_, fun nodeId => ?_⟩, ?_⟩
  · simp only [length_append, length_singleton]
    omega
  · exact forall_mem_append.mpr ⟨h.encodes, forall_mem_singleton.mpr hw⟩
  · -- the old entries replay as before, the new one is later than all of them
    rw [foldlM_append, bind_eq_ok]
    refine ⟨t, replay_mono (s := s) rfl (UInt64.le_of_lt hlt) ht, ?_⟩
    have hnew : ¬ (rev ≤ t.lastRevision ∨ rev > rev) :=
      not_or.mpr ⟨UInt64.not_le.mpr (UInt64.lt_of_le_of_lt hof.last hlt), UInt64.lt_irrefl rev⟩
    rw [foldlM_cons, bind_eq_ok]
    refine ⟨{ t' with lastRevision := rev }, bind_eq_ok.mpr ⟨(), checkState_ok.mpr hnew, ?_⟩, rfl⟩
    exact bind_eq_ok.mpr ⟨t', ht', rfl⟩
  · have hids := (hafter.ids id).trans (or_congr_left (hof.ids id))
    simp only [mem_append, mem_singleton, or_and_right, exists_or, exists_eq_left]
    exact hids
  · rw [reportCount_append, ← hof.next]
    exact hafter.next nodeId
  · exact consecutive_append h.consecutive fun r hr =>
      checkReportRevision_ok (h.consecutive r.nodeId) (forM_eq_ok.mp hrevs r hr)

end

end Bmux.Control
