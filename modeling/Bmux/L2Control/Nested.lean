import Bmux.L2Control.Restore

/-!
# Restoring nested snapshots

A state with refresh outcomes or publications is written as a wrapper around
the snapshot of the rest. The wrapped bytes go into a byte field, so they must
stay under `MAX_BYTES`: the writer asserts it. `NestedFits` is that bound, in
terms of the sizes of the state's records.

* `plain_restores`, `unpublished_restores`: the two inner layers.
* `restores`: a durable state that fits is written without a panic and read
  back whole.
-/
namespace Bmux.Control
open Std Canonical Wire List Writer UInt16
open TreeMap (All)

section
variable {put : Put StateCodecError} {b : Bytes}

theorem limitBytes_ok : limitBytes put = .ok b ↔ put = .ok b ∧ b.length ≤ MAX_SNAPSHOT_BYTES := by
  unfold limitBytes
  cases put with
  | error fault => simp [Except.bind]
  | ok c =>
    simp only [Except.bind, Except.ok.injEq]
    split
    · simp only [reduceCtorEq, false_iff, not_and]
      rintro rfl
      omega
    · simp only [Except.ok.injEq, iff_self_and]
      rintro rfl
      omega

theorem limitBytes_noPanic (h : put ≠ .error .panicked) : limitBytes put ≠ .error .panicked := by
  unfold limitBytes
  cases put with
  | error fault => simpa [Except.bind] using h
  | ok c => simp only [Except.bind]; split <;> simp

theorem wholeState_ok {α : Type} {get : Get StateCodecError α} {a : α} (h : get.run b = .ok (a, [])) :
    wholeState get b = .ok a := by
  unfold wholeState
  rw [h]
  rfl

theorem wholeState_recovers {α : Type} {get : Get StateCodecError α} {a : α} (h : Recovers put get a)
    (hb : put = .ok b) : wholeState get b = .ok a := by
  have hread := h.reads b [] hb
  rw [append_nil] at hread
  exact wholeState_ok hread

end

/-! ## The layers are told apart by their magic -/

theorem not_prefix_of_ne {m magic rest : Bytes} (hlen : magic.length = m.length) (hne : magic ≠ m) :
    ¬ magic <+: m ++ rest := by
  intro hp
  have hpre := prefix_of_prefix_length_le hp (prefix_append m rest) (Nat.le_of_eq hlen)
  exact hne (hpre.eq_of_length hlen)

section
variable {magic rest : Bytes} {fields : Get StateCodecError ControlState}
  {inner : Bytes → Outcome StateCodecError ControlState} {s : ControlState}

theorem decodeWrapped_magic (hm : magic.length = 8) (hlen : (magic ++ rest).length ≤ MAX_SNAPSHOT_BYTES)
    (h : wholeState fields rest = .ok s) : decodeWrapped magic fields inner (magic ++ rest) = .ok s := by
  unfold decodeWrapped
  rw [if_neg (by omega), if_pos (prefix_append magic rest), drop_left' hm]
  exact h

theorem decodeWrapped_inner {b : Bytes} (hlen : b.length ≤ MAX_SNAPSHOT_BYTES) (hp : ¬ magic <+: b)
    (h : inner b = .ok s) : decodeWrapped magic fields inner b = .ok s := by
  unfold decodeWrapped
  rw [if_neg (by omega), if_neg hp]
  exact h

end

theorem encodeHeader_magic {s : ControlState} {b : Bytes} (h : encodeHeader s = .ok b) :
    ∃ m rest, b = m ++ rest ∧
      (m = BOOTSTRAP_SNAPSHOT_MAGIC ∨ m = SNAPSHOT_MAGIC ∨ m = PREVIOUS_SNAPSHOT_MAGIC) := by
  unfold encodeHeader at h
  split at h
  · obtain ⟨_, _, hcheck, h', rfl⟩ := seq_cons_ok.mp h
    obtain ⟨_, rest, hraw, _, rfl⟩ := seq_cons_ok.mp h'
    rw [(checkPut_ok hcheck).2]
    cases hraw
    exact ⟨_, rest, rfl, .inl rfl⟩
  · split at h
    · obtain ⟨_, rest, hraw, _, rfl⟩ := seq_cons_ok.mp h
      cases hraw
      exact ⟨_, rest, rfl, .inr (.inl rfl)⟩
    · obtain ⟨_, rest, hraw, _, rfl⟩ := seq_cons_ok.mp h
      cases hraw
      exact ⟨_, rest, rfl, .inr (.inr rfl)⟩

section
variable {env : Env} {s : ControlState} {b : Bytes}

theorem plain_not_wrapper (h : encodeFields env s = .ok b) :
    ¬ REFRESH_SNAPSHOT_MAGIC <+: b ∧ ¬ PUBLICATION_SNAPSHOT_MAGIC <+: b := by
  obtain ⟨_, _, hcheck, h', rfl⟩ := seq_cons_ok.mp h
  obtain ⟨head, tail, hhead, _, rfl⟩ := seq_cons_ok.mp h'
  obtain ⟨m, rest, rfl, hm⟩ := encodeHeader_magic hhead
  rw [(checkPut_ok hcheck).2, nil_append, append_assoc]
  rcases hm with rfl | rfl | rfl <;>
    exact ⟨not_prefix_of_ne rfl (by decide), not_prefix_of_ne rfl (by decide)⟩

theorem refreshEntry_recovers {id : Uuid} {o : Digest × UInt64}
    (h : ¬ (id = 0 ∨ o.2 = 0 ∨ o.2 > s.revision)) :
    Recovers (encodeRefreshEntry s.revision (id, o)) (decodeRefreshEntry s.revision) (id, o) := by
  refine checkPut_recovers (.bind (uuid_recovers _) (.bind (digest_recovers _) (.bind (u64_recovers _) ?_)))
  exact .step (run_checkGet h) .pure

theorem decodePublication_ok {c : PublicationCommand} (h : c.encode = .ok b) : decodePublication b = .ok c := by
  unfold decodePublication
  rw [publication_decode h]

/-- The replay follows the history batch by batch. -/
theorem readHistory_recovers {l : List (PublicationCommand × UInt64)} {t t' : Tally}
    (hw : ∀ e ∈ l, Writes e.1.encode) (ht : l.foldlM (tallyEntry s) t = .ok t') :
    Recovers (seq (l.map encodePublication)) (readHistory s l.length t) l := by
  induction l generalizing t with
  | nil => exact .pure
  | cons e l ih =>
    obtain ⟨c, rev⟩ := e
    rw [foldlM_cons, bind_eq_ok] at ht
    obtain ⟨t₁, h₁, h₂⟩ := ht
    obtain ⟨bytes, hbytes⟩ := hw (c, rev) mem_cons_self
    have hlen : bytes.length ≤ MAX_BYTES := by
      have hbound := publication_length hbytes
      unfold MAX_BYTES
      omega
    have htally : (tallyEntry s t (c, rev)).mapError Fault.error = .ok t₁ := by rw [h₁]; rfl
    have hrest := ih (fun e he => hw e (mem_cons_of_mem _ he)) h₂
    have hput : encodePublication (c, rev) = seq [Writer.bytes bytes, Writer.u64 rev] := by
      unfold encodePublication
      rw [hbytes]
    rw [map_cons, hput]
    refine .flatten (.bind (lift_recovers bytes_lawful trivial ((writes_bytes _).mpr hlen)) ?_)
    refine .step (run_lift_ok (decodePublication_ok hbytes)) (.bind (u64_recovers rev) ?_)
    refine .step (run_lift_ok htally) ?_
    have hcons := Recovers.bind (f := fun rest => pure ((c, rev) :: rest)) hrest .pure
    rw [seq_single] at hcons
    exact hcons

/-! ## The plain layer -/

variable (h : Durable env s)
include h

theorem plain_noPanic : encodeBaseSnapshot env s ≠ .error .panicked :=
  limitBytes_noPanic (fields_recover h).noPanic

theorem plain_restores (hb : encodeBaseSnapshot env s = .ok b) :
    decodePlain env b = .ok { s with publicationHistory := [], refreshOutcomes := ∅ } := by
  obtain ⟨hfields, hlen⟩ := limitBytes_ok.mp hb
  have hsame : validateReferences { s with publicationHistory := [], refreshOutcomes := ∅ } =
      validateReferences s := rfl
  have hrefs : (validateReferences { s with publicationHistory := [], refreshOutcomes := ∅ }).mapError
      Fault.error = .ok () := by
    rw [hsame, validateReferences_ok h]
    rfl
  unfold decodePlain
  rw [if_neg (by omega)]
  exact bind_eq_ok.mpr ⟨_, wholeState_recovers (fields_recover h) hfields, bind_eq_ok.mpr ⟨(), hrefs, rfl⟩⟩

/-! ## Refresh outcomes -/

def BaseFits (env : Env) (s : ControlState) : Prop :=
  s.refreshOutcomes.isEmpty = false → ∀ b, encodeBaseSnapshot env s = .ok b → b.length ≤ MAX_BYTES

variable (hfit : BaseFits env s)
include hfit

theorem refreshFields_recover (hne : s.refreshOutcomes.isEmpty = false) :
    Recovers (seq [(encodeBaseSnapshot env { s with refreshOutcomes := ∅ }).bind bytes,
      writeMap (encodeRefreshEntry s.revision) s.refreshOutcomes]) (decodeRefreshFields env)
      { s with publicationHistory := [] } := by
  have hbase : encodeBaseSnapshot env { s with refreshOutcomes := ∅ } = encodeBaseSnapshot env s := rfl
  have hmap : Recovers (writeMap (encodeRefreshEntry s.revision) s.refreshOutcomes)
      (readMap (decodeRefreshEntry s.revision)) s.refreshOutcomes :=
    readMap_recovers fun id o ho => refreshEntry_recovers (h.refreshes.outcomes id o ho)
  rw [hbase]
  refine nested_recovers (plain_noPanic h) (hfit hne) hmap.last.noPanic fun base hb => ?_
  have hprefix := plain_not_wrapper (limitBytes_ok.mp hb).1
  refine .step (run_checkGet (not_or.mpr hprefix)) (.step (run_lift_ok (plain_restores h hb)) ?_)
  refine .bind hmap (.step (run_checkGet ?_) .pure)
  have hsize := h.refreshes.bounded
  rw [hne]
  simp only [Bool.false_eq_true, false_or]
  omega

theorem unpublished_noPanic : encodeUnpublished env s ≠ .error .panicked := by
  unfold encodeUnpublished
  split
  · exact plain_noPanic h
  · rename_i hne
    have hfalse := Bool.eq_false_of_not_eq_true hne
    have hfields := refreshFields_recover h hfit hfalse
    unfold encodeRefreshSnapshot
    rw [if_neg (Nat.not_lt.mpr h.refreshes.bounded)]
    exact limitBytes_noPanic (seq_cons_noPanic (writes_raw _).noPanic hfields.noPanic)

theorem unpublished_restores (hb : encodeUnpublished env s = .ok b) :
    decodeUnpublished env b = .ok { s with publicationHistory := [] } ∧
      ¬ PUBLICATION_SNAPSHOT_MAGIC <+: b ∧ b.length ≤ MAX_SNAPSHOT_BYTES := by
  unfold encodeUnpublished at hb
  split at hb
  · rename_i hempty
    obtain ⟨hfields, hlen⟩ := limitBytes_ok.mp hb
    obtain ⟨hrefresh, hpublication⟩ := plain_not_wrapper hfields
    have hplain := plain_restores h hb
    rw [← ExtTreeMap.isEmpty_iff.mp hempty] at hplain
    exact ⟨decodeWrapped_inner hlen hrefresh hplain, hpublication, hlen⟩
  · rename_i hne
    have hfalse := Bool.eq_false_of_not_eq_true hne
    unfold encodeRefreshSnapshot at hb
    rw [if_neg (Nat.not_lt.mpr h.refreshes.bounded), limitBytes_ok] at hb
    obtain ⟨hseq, hlen⟩ := hb
    obtain ⟨_, rest, hraw, hrest, rfl⟩ := seq_cons_ok.mp hseq
    cases hraw
    have hfields := refreshFields_recover h hfit hfalse
    refine ⟨decodeWrapped_magic rfl hlen (wholeState_recovers hfields hrest), ?_, hlen⟩
    exact not_prefix_of_ne rfl (by decide)

/-! ## The publication history -/

/-- The outermost layer: the wrapped snapshot and the publication history. -/
theorem publicationFields_recover (hne : s.publicationHistory ≠ [])
    (hfits : ∀ b, encodeUnpublished env s = .ok b → b.length ≤ MAX_BYTES) :
    Recovers (seq [(encodeUnpublished env { s with publicationHistory := [] }).bind bytes,
      u16 (ofNat s.publicationHistory.length),
      seq (s.publicationHistory.map encodePublication)]) (decodePublicationSnapshot env) s := by
  have hsame : encodeUnpublished env { s with publicationHistory := [] } = encodeUnpublished env s := rfl
  have hbound := h.history.bounded
  have hpos : s.publicationHistory.length ≠ 0 := by simpa using hne
  have hval : (ofNat s.publicationHistory.length).toNat = s.publicationHistory.length :=
    UInt16.toNat_ofNat_of_lt' (by simp [UInt16.size]; omega)
  have hcount : ¬ (ofNat s.publicationHistory.length = 0 ∨
      ofNat s.publicationHistory.length > 64) := by
    rw [not_or]
    constructor
    · intro hzero
      rw [hzero] at hval
      exact hpos hval.symm
    · rw [UInt16.not_lt, UInt16.le_iff_toNat_le, hval]
      exact hbound
  obtain ⟨t, ht, _⟩ := h.history.replays
  have hhistory : Recovers (seq (s.publicationHistory.map encodePublication))
      (readHistory { s with publicationHistory := [] } s.publicationHistory.length .start)
      s.publicationHistory := readHistory_recovers h.history.encodes ht
  have htail : Recovers (seq [u16 (ofNat s.publicationHistory.length),
      seq (s.publicationHistory.map encodePublication)] : Put StateCodecError) (do
        let count ← lift Reader.u16
        checkGet (¬ (count = 0 ∨ count > 64)) (.limitExceeded "publication history")
        let publicationHistory ← readHistory { s with publicationHistory := [] } count.toNat .start
        return { s with publicationHistory }) s := by
    refine .bind (u16_recovers _) (.step (run_checkGet hcount) ?_)
    rw [hval]
    exact .bind hhistory .pure
  rw [hsame]
  refine nested_recovers (unpublished_noPanic h hfit) hfits htail.noPanic fun base hb => ?_
  obtain ⟨hdecode, hprefix, _⟩ := unpublished_restores h hfit hb
  exact .step (run_checkGet hprefix) (.step (run_lift_ok hdecode) htail)

end

/-! ## Sizes -/

def entryBytes {κ β : Type} [Ord κ] [TransOrd κ] (put : κ × β → Put StateCodecError)
    (m : ExtTreeMap κ β compare) : Nat := (m.toList.map fun entry => size (put entry)).sum

/-- The bytes of the records of a state, without counts and headers. -/
def ControlState.recordBytes (env : Env) (s : ControlState) : Nat :=
  size (string s.clusterId : Put StateCodecError) + size (encodeFloors s) +
    entryBytes encodeMemberEntry s.members + entryBytes encodeWorkspaceEntry s.workspaces +
    entryBytes encodeTabEntry s.tabs + entryBytes encodePaneEntry s.panes +
    entryBytes encodeDedupEntry s.dedup + size (encodeFeatureTable s) + size (encodeBootstrap env s)

/-- The records fit the byte field of a wrapper, if the state needs one. An
outcome takes 56 bytes; the counts and headers of both layers take 58. -/
def NestedFits (env : Env) (s : ControlState) : Prop :=
  s.refreshOutcomes.isEmpty = false ∨ s.publicationHistory ≠ [] →
    s.recordBytes env + 56 * s.refreshOutcomes.size + 58 ≤ MAX_BYTES

theorem size_writeCount_le (n : Nat) : size (writeCount n) ≤ 4 := by
  unfold writeCount
  split
  · exact zero_le
  · exact le_rfl

theorem size_writeMap_le {κ β : Type} [Ord κ] [TransOrd κ] (put : κ × β → Put StateCodecError)
    (m : ExtTreeMap κ β compare) : size (writeMap put m) ≤ 4 + entryBytes put m := by
  have hcount := size_writeCount_le m.size
  have hentries := size_seq_le (m.toList.map put)
  rw [map_map] at hentries
  refine (size_seq_le _).trans ?_
  exact add_le_add hcount hentries

@[simp] theorem size_checkPut (p : Prop) [Decidable p] (e : StateCodecError) : size (checkPut p e) = 0 := by
  unfold checkPut
  split <;> rfl

theorem size_encodeHeader_le (s : ControlState) : size (encodeHeader s) ≤ 10 := by
  unfold encodeHeader
  split
  · refine (size_seq_le _).trans ?_
    simp [BOOTSTRAP_SNAPSHOT_MAGIC]
  · split
    · refine (size_seq_le _).trans ?_
      simp [SNAPSHOT_MAGIC]
    · refine (size_seq_le _).trans ?_
      simp [PREVIOUS_SNAPSHOT_MAGIC]

section
variable {env : Env} {s : ControlState} {b : Bytes}

theorem plain_length (h : encodeBaseSnapshot env s = .ok b) : b.length ≤ s.recordBytes env + 42 := by
  obtain ⟨hfields, _⟩ := limitBytes_ok.mp h
  have hlen := length_of_seq hfields
  have hheader := size_encodeHeader_le s
  have hmembers := size_writeMap_le encodeMemberEntry s.members
  have hworkspaces := size_writeMap_le encodeWorkspaceEntry s.workspaces
  have htabs := size_writeMap_le encodeTabEntry s.tabs
  have hpanes := size_writeMap_le encodePaneEntry s.panes
  have hdedup := size_writeMap_le encodeDedupEntry s.dedup
  simp only [map_cons, map_nil, sum_cons, sum_nil, size_checkPut, size_u16,
    size_u64] at hlen
  unfold ControlState.recordBytes
  omega

theorem entryBytes_refresh_le (revision : UInt64) (m : ExtTreeMap Uuid (Digest × UInt64) compare) :
    entryBytes (encodeRefreshEntry revision) m ≤ 56 * m.size := by
  have hentry : ∀ n ∈ m.toList.map (fun entry => size (encodeRefreshEntry revision entry)), n ≤ 56 := by
    intro n hn
    obtain ⟨entry, _, rfl⟩ := mem_map.mp hn
    exact (size_seq_le _).trans (by simp)
  have hsum := sum_le_card_nsmul _ 56 hentry
  rw [length_map, ExtTreeMap.length_toList, smul_eq_mul] at hsum
  unfold entryBytes
  omega

theorem unpublished_length (h : encodeUnpublished env s = .ok b) :
    b.length ≤ s.recordBytes env + 56 * s.refreshOutcomes.size + 58 := by
  unfold encodeUnpublished at h
  split at h
  · have hplain := plain_length h
    omega
  · unfold encodeRefreshSnapshot at h
    split at h
    · cases h
    · obtain ⟨hseq, _⟩ := limitBytes_ok.mp h
      have hlen := length_of_seq hseq
      have hmap := size_writeMap_le (encodeRefreshEntry s.revision) s.refreshOutcomes
      have hentries := entryBytes_refresh_le s.revision s.refreshOutcomes
      have hbase : size ((encodeBaseSnapshot env { s with refreshOutcomes := ∅ }).bind bytes) ≤
          s.recordBytes env + 46 := by
        cases hp : encodeBaseSnapshot env { s with refreshOutcomes := ∅ } with
        | error fault => exact zero_le
        | ok base =>
          have hplain : base.length ≤ s.recordBytes env + 42 := plain_length hp
          have hfield := size_bytes_le (ε := StateCodecError) base
          exact hfield.trans (by omega)
      simp only [map_cons, map_nil, sum_cons, sum_nil, size_raw,
        REFRESH_SNAPSHOT_MAGIC, length_cons, length_nil] at hlen
      omega

/-- A durable state whose wrapped records fit is written without a panic and
read back whole. -/
theorem restores (h : Durable env s) (hfit : NestedFits env s) : encodeSnapshot env s ≠ .error .panicked ∧
    ∀ b, encodeSnapshot env s = .ok b → decodeSnapshot env b = .ok s := by
  have hbase : BaseFits env s := by
    intro hne b hb
    have hbound := hfit (.inl hne)
    have hlen := plain_length hb
    omega
  unfold encodeSnapshot
  by_cases hhistory : s.publicationHistory = []
  · rw [if_neg (not_not.mpr hhistory)]
    refine ⟨unpublished_noPanic h hbase, fun b hb => ?_⟩
    obtain ⟨hdecode, hprefix, hlen⟩ := unpublished_restores h hbase hb
    rw [← hhistory] at hdecode
    exact decodeWrapped_inner hlen hprefix hdecode
  · have hunpublished : ∀ b, encodeUnpublished env s = .ok b → b.length ≤ MAX_BYTES := by
      intro b hb
      have hbound := hfit (.inr hhistory)
      have hlen := unpublished_length hb
      omega
    have hfields := publicationFields_recover h hbase hhistory hunpublished
    rw [if_pos hhistory, if_neg (Nat.not_lt.mpr h.history.bounded)]
    refine ⟨limitBytes_noPanic (seq_cons_noPanic (writes_raw _).noPanic hfields.noPanic),
      fun b hb => ?_⟩
    obtain ⟨hseq, hlen⟩ := limitBytes_ok.mp hb
    obtain ⟨_, rest, hraw, hrest, rfl⟩ := seq_cons_ok.mp hseq
    cases hraw
    exact decodeWrapped_magic rfl hlen (wholeState_recovers hfields hrest)

end

end Bmux.Control
