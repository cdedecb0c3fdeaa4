import Bmux.L2Control.Publications
import Bmux.L2Control.References

/-!
# Restoring a snapshot

`Durable env s` collects what the decoder checks and the writer asserts: the
records refer to each other, every field is within its limit, every recorded
command and response can be decoded, the publication history replays. Each
part of a snapshot of such a state is written without a panic and read back.
`Nested` puts the parts together.
-/
namespace Bmux.Control
open Std Canonical Wire List Writer Recovers ExtTreeMap
open TreeMap (All)

/-! ## Counts and maps -/

variable {e : StateCodecError} {p : Prop}

theorem run_checkGet [Decidable p] (h : p) (inp : Bytes) :
    (checkGet p e).run inp = .ok ((), inp) := by
  rw [checkGet, if_pos h]
  rfl

theorem checkPut_ok [Decidable p] {b : Bytes} (h : checkPut p e = .ok b) : p ∧ b = [] := by
  unfold checkPut at h
  split at h
  · rename_i hp; cases h; exact ⟨hp, rfl⟩
  · cases h

theorem checkPut_noPanic [Decidable p] : checkPut p e ≠ .error .panicked := by
  unfold checkPut; split <;> simp

section
variable {α β : Type} {P : α → Prop} {put : α → Put StateCodecError} {get : Get CodecError α} {a : α}
  {ps : List (Put StateCodecError)} {v : β}

theorem lift_recovers (h : LawfulOn P put get) (ha : P a) (hw : Writes (put a)) :
    Recovers (put a) (lift get) a := (h.recovers ha hw).mapError

theorem checkPut_recovers {p : Prop} [Decidable p] {e : StateCodecError} {get : Get StateCodecError β}
    (h : Recovers (seq ps) get v) : Recovers (seq (checkPut p e :: ps)) get v :=
  .skip checkPut_noPanic (fun _ hb => (checkPut_ok hb).2) h

/-- Bytes that were encoded on their own and wrapped in a byte field. -/
theorem encoded_recovers {p : Put StateCodecError} {b : Bytes} (hb : p = .ok b) (hlen : b.length ≤ MAX_BYTES) :
    Recovers (p.bind bytes) (lift Reader.bytes) b := by
  rw [hb]
  exact lift_recovers bytes_lawful trivial ((writes_bytes b).mpr hlen)

theorem nested_recovers {p : Put StateCodecError} {f : Bytes → Get StateCodecError β}
    (hp : p ≠ .error .panicked) (hlen : ∀ b, p = .ok b → b.length ≤ MAX_BYTES)
    (hps : seq ps ≠ .error .panicked) (h : ∀ b, p = .ok b → Recovers (seq ps) (f b) v) :
    Recovers (seq (p.bind bytes :: ps)) (lift Reader.bytes >>= f) v := by
  cases p with
  | error fault =>
    refine ⟨fun b rest hb => ?_, seq_cons_noPanic (by simpa [Except.bind] using hp) hps⟩
    obtain ⟨_, _, h1, _⟩ := seq_cons_ok.mp hb
    cases h1
  | ok b =>
    exact .bind (encoded_recovers rfl (hlen b rfl)) (h b rfl)

end

theorem string_recovers {s : String} (h : (utf8 s).length ≤ MAX_STRING_BYTES) :
    Recovers (string s : Put StateCodecError) (lift Reader.string) s :=
  lift_recovers string_lawful trivial ((writes_string s).mpr h)

theorem u16_recovers (n : UInt16) : Recovers (u16 n : Put StateCodecError) (lift Reader.u16) n :=
  lift_recovers u16_lawful trivial (writes_u16 n)

theorem u64_recovers (n : UInt64) : Recovers (u64 n : Put StateCodecError) (lift Reader.u64) n :=
  lift_recovers u64_lawful trivial (writes_u64 n)

theorem uuid_recovers (id : Uuid) : Recovers (uuid id : Put StateCodecError) (lift Reader.uuid) id :=
  lift_recovers uuid_lawful trivial (writes_uuid id)

theorem digest_recovers (d : Digest) :
    Recovers (digest d : Put StateCodecError) (lift Reader.digest) d :=
  lift_recovers digest_lawful trivial (writes_digest d)

theorem writeCount_noPanic (n : Nat) : writeCount n ≠ .error .panicked := by
  unfold writeCount
  split
  · simp
  · exact (writes_u32 _).noPanic

theorem readCount_recovers (n : Nat) : Recovers (writeCount n) readCount n := by
  refine ⟨fun b rest hb => ?_, writeCount_noPanic n⟩
  unfold writeCount at hb
  split at hb
  · cases hb
  · rename_i hn
    have hval : (UInt32.ofNat n).toNat = n := by
      unfold MAX_SNAPSHOT_ITEMS at hn
      exact UInt32.toNat_ofNat_of_lt' (by simp [UInt32.size]; omega)
    have hread := (lift_recovers u32_lawful trivial (writes_u32 (UInt32.ofNat n))).reads b rest hb
    unfold readCount
    rw [run_bind_ok hread, run_bind_ok (run_checkGet (by rw [hval]; exact hn) rest), hval, run_pure]

section
variable {κ β : Type} [Ord κ] [TransOrd κ] [LawfulEqOrd κ] [DecidableEq κ]
  {put : κ × β → Put StateCodecError} {get : Get StateCodecError (κ × β)}

omit [LawfulEqOrd κ] [DecidableEq κ] in
theorem readEntries_recovers (l : List (κ × β)) (m : ExtTreeMap κ β compare)
    (hget : ∀ e ∈ l, Recovers (put e) get e) (hd : l.Pairwise fun a b => ¬ compare a.1 b.1 = .eq)
    (hm : ∀ e ∈ l, e.1 ∉ m) :
    Recovers (seq (l.map put)) (readEntries get l.length m) (m.insertMany l) := by
  induction l generalizing m with
  | nil => exact pure
  | cons e l ih =>
    obtain ⟨hhead, htail⟩ := pairwise_cons.mp hd
    rw [insertMany_cons]
    refine bind (hget _ mem_cons_self) ?_
    refine Recovers.step (run_checkGet (hm _ mem_cons_self)) ?_
    refine ih _ (fun e he => hget e (mem_cons_of_mem _ he)) htail fun e he => ?_
    rw [mem_insert]
    exact not_or.mpr ⟨hhead e he, hm e (mem_cons_of_mem _ he)⟩

theorem readMap_recovers {m : ExtTreeMap κ β compare}
    (h : ∀ (k : κ) (v : β), m[k]? = some v → Recovers (put (k, v)) get (k, v)) :
    Recovers (writeMap put m) (readMap get) m := by
  refine bind (readCount_recovers m.size) (last ?_)
  have hl : Recovers (seq (m.toList.map put)) (readEntries get m.toList.length ∅)
      ((∅ : ExtTreeMap κ β compare).insertMany m.toList) := readEntries_recovers m.toList ∅
    (fun e he => h e.1 e.2 (mem_toList_iff_getElem?_eq_some.mp he))
    distinct_keys_toList (by simp)
  rw [length_toList, TreeMap.insertMany_toList] at hl
  exact hl

end

theorem readFeatures_recovers (l : List String) (t : ExtTreeSet String compare)
    (hne : ∀ f ∈ l, f ≠ "" ∧ (utf8 f).length ≤ MAX_STRING_BYTES) (hd : l.Pairwise fun a b => ¬ compare a b = .eq)
    (ht : ∀ f ∈ l, f ∉ t) :
    Recovers (seq (l.map string) : Put StateCodecError) (readFeatures l.length t) (t.insertMany l) := by
  induction l generalizing t with
  | nil => exact pure
  | cons f l ih =>
    obtain ⟨hhead, htail⟩ := pairwise_cons.mp hd
    rw [ExtTreeSet.insertMany_cons]
    refine bind (string_recovers (hne f mem_cons_self).2) ?_
    refine Recovers.step (run_checkGet ?_) ?_
    · exact not_or.mpr ⟨(hne f mem_cons_self).1, ht f mem_cons_self⟩
    · refine ih _ (fun g hg => hne g (mem_cons_of_mem _ hg)) htail fun g hg => ?_
      rw [ExtTreeSet.mem_insert]
      exact not_or.mpr ⟨hhead g hg, ht g (mem_cons_of_mem _ hg)⟩

/-! ## Entries -/

theorem decodeEntry_recovers {κ β : Type} [DecidableEq κ] {key : Get CodecError κ} {value : Get CodecError β}
    {id : β → κ} {reason : String} [Decidable p]
    {putKey putValue : Put StateCodecError} {k : κ} {v : β} (hk : Recovers putKey (lift key) k)
    (hv : Recovers putValue (lift value) v) (hid : k = id v) :
    Recovers (seq [checkPut p e, putKey, putValue]) (decodeEntry key value id reason) (k, v) := by
  refine checkPut_recovers (bind hk (bind hv ?_))
  exact Recovers.step (run_checkGet hid) Recovers.pure

theorem memberEntry_recovers {k : String} {m : ClusterMember} (hid : m.nodeId = k)
    (hv : validateMember m = .ok ()) : Recovers (encodeMemberEntry (k, m)) decodeMemberEntry (k, m) := by
  obtain ⟨hlists, hw⟩ := (validateMember_ok (ε := StateCodecError)).mp hv
  have hnode : (utf8 k).length ≤ MAX_STRING_BYTES := by
    have hwrites := (writes_seq _).mp hw (string m.nodeId) (by simp)
    rw [writes_string, hid] at hwrites
    exact hwrites
  exact decodeEntry_recovers (string_recovers hnode) (lift_recovers member_lawful hlists hw) hid.symm

theorem workspaceEntry_recovers {k : Uuid} {w : WorkspaceRecord} (hid : w.workspaceId.value = k)
    (hv : validateOptionalString w.name = .ok ()) :
    Recovers (encodeWorkspaceEntry (k, w)) decodeWorkspaceEntry (k, w) := by
  have hw : Writes (encodeWorkspace w : Put StateCodecError) := by
    simpa [encodeWorkspace] using hv
  exact decodeEntry_recovers (uuid_recovers k) (lift_recovers workspace_lawful trivial hw) hid.symm

theorem tabEntry_recovers {k : Uuid} {t : LogicalTabRecord} (hid : t.tabId.value = k)
    (hv : validateTab t = .ok ()) : Recovers (encodeTabEntry (k, t)) decodeTabEntry (k, t) :=
  decodeEntry_recovers (uuid_recovers k) (lift_recovers tab_lawful trivial (validateTab_ok.mp hv)) hid.symm

theorem paneEntry_recovers {k : Uuid} {p : LogicalPaneRecord} (hid : p.paneId.value = k)
    (hv : validatePane p = .ok ()) : Recovers (encodePaneEntry (k, p)) decodePaneEntry (k, p) := by
  obtain ⟨hlists, hw⟩ := (validatePane_ok (ε := StateCodecError)).mp hv
  exact decodeEntry_recovers (uuid_recovers k) (lift_recovers pane_lawful hlists hw) hid.symm

def ControlResponse.Storable (r : ControlResponse) (id : CommandId) : Prop :=
  r.commandId = id ∧ r.schemaVersion = CONTROL_SCHEMA_VERSION ∧ r.WithinLimits

/-- An outcome that survives a snapshot: the command can be decoded and fits a
byte field. -/
structure DedupRecord.Durable (k : DedupKey) (r : DedupRecord) : Prop where
  key : dedupKey r.command = k
  schema : r.command.schemaVersion = CONTROL_SCHEMA_VERSION
  valid : validateCommand r.command = .ok ()
  fits : size (encodeControlCommand r.command : Put StateCodecError) ≤ MAX_BYTES
  response : r.response.Storable r.command.commandId

structure FeatureDedupRecord.Durable (k : DedupKey) (r : FeatureDedupRecord) : Prop where
  key : featureKey r.command = k
  valid : validateFeature r.command = .ok ()
  response : r.response.Storable r.command.commandId

theorem ControlResponse.Storable.recovers {r : ControlResponse} {id : CommandId} (h : r.Storable id) :
    Recovers (encodeStateResponse r : Put StateCodecError) (lift decodeStateResponse) r :=
  lift_recovers stateResponse_lawful (by rw [h.2.1]; rfl) (writes_stateResponse.mpr h.2.2)

theorem run_decoded {α : Type} {x : Outcome CodecError α} {a : α} (h : x = .ok a) (inp : Bytes) :
    (lift (StateT.lift x)).run inp = .ok (a, inp) := run_mapError_ok (run_lift_ok h inp)

theorem dedupEntry_recovers {k : DedupKey} {r : DedupRecord} (h : r.Durable k) :
    Recovers (encodeDedupEntry (k, r)) decodeDedupEntry (k, r) := by
  obtain ⟨rfl, hschema, hvalid, hfits, hresp⟩ := h
  obtain ⟨b, hb, hdec⟩ := (command_canonical (ε := StateCodecError)).roundtrip r.command ⟨hschema, hvalid⟩
  have hprincipal := validateString_ok.mp (both_ok.mp hvalid).1
  have hlen : b.length ≤ MAX_BYTES := by rw [hb] at hfits; exact hfits
  refine .bind (string_recovers hprincipal) (.bind (uuid_recovers _) (.bind (digest_recovers _) ?_))
  refine .bind (u64_recovers _) (.bind (encoded_recovers hb hlen) ?_)
  refine .step (run_decoded hdec) (.bind hresp.recovers ?_)
  refine .step (run_checkGet ⟨rfl, rfl⟩) (.step (run_checkGet ?_) .pure)
  rw [hresp.1]
  rfl

theorem featureFields_length {c : FeatureActivationCommand} {b : Bytes} (h : validateFeature c = .ok ())
    (hb : (encodeFeatureFields c : Put StateCodecError) = .ok b) : b.length ≤ MAX_BYTES := by
  obtain ⟨hp, hf⟩ := both_ok.mp h
  rw [validateString_ok] at hp hf
  have hsp := size_string_le (ε := StateCodecError) c.principalId
  have hsf := size_string_le (ε := StateCodecError) c.feature
  have hlen := length_of_seq hb
  simp only [map_cons, map_nil, sum_cons, sum_nil, size_raw, size_u16,
    size_uuid, size_u64, FEATURE_COMMAND_MAGIC, length_cons, length_nil] at hlen
  unfold MAX_STRING_BYTES at hp hf
  unfold MAX_BYTES
  omega

theorem featureDedupEntry_recovers {k : DedupKey} {r : FeatureDedupRecord} (h : r.Durable k) :
    Recovers (encodeFeatureDedupEntry (k, r)) decodeFeatureDedupEntry (k, r) := by
  obtain ⟨rfl, hvalid, hresp⟩ := h
  obtain ⟨b, hb, hdec⟩ := (feature_canonical (ε := StateCodecError)).roundtrip r.command hvalid
  have hprincipal := validateString_ok.mp (both_ok.mp hvalid).1
  have hlen : b.length ≤ MAX_BYTES := featureFields_length hvalid (expectValid_ok.mp hb).2
  refine .bind (string_recovers hprincipal) (.bind (uuid_recovers _) (.bind (digest_recovers _) ?_))
  refine .bind (u64_recovers _) (.bind (encoded_recovers hb hlen) ?_)
  refine .step (run_decoded hdec) (.bind hresp.recovers ?_)
  refine .step (run_checkGet ⟨rfl, rfl, ?_⟩) .pure
  rw [hresp.1]
  rfl

/-! ## States that survive a snapshot -/

structure Catalogue.Valid (c : Catalogue) : Prop where
  members : All (fun _ m => validateMember m = .ok () ∧ m.clusterId = c.clusterId) c.members
  workspaces : All (fun _ w => validateOptionalString w.name = .ok ()) c.workspaces
  tabs : All (fun _ t => validateTab t = .ok ()) c.tabs
  panes : All (fun _ p => validatePane p = .ok ()) c.panes

structure ControlState.FloorsFit (s : ControlState) : Prop where
  low : CONTROL_SCHEMA_VERSION ≤ s.readSchemaFloor
  ordered : s.readSchemaFloor ≤ s.writeSchemaFloor
  raised : s.activatedFeatures.isEmpty = false → s.writeSchemaFloor ≠ CONTROL_SCHEMA_VERSION
  features : ∀ f ∈ s.activatedFeatures, f ≠ "" ∧ (utf8 f).length ≤ MAX_STRING_BYTES

structure PrincipalBootstrapRecord.Durable (env : Env) (s : ControlState) (r : PrincipalBootstrapRecord) :
    Prop where
  valid : validateBootstrapRecord env r s.revision = .ok ()
  key : (utf8 r.publicKey).length ≤ MAX_STRING_BYTES
  floors : ¬ (s.readSchemaFloor < 3 ∨ s.writeSchemaFloor < 3)

structure ControlState.RefreshesFit (s : ControlState) : Prop where
  bounded : s.refreshOutcomes.size ≤ 1024
  outcomes : All (fun id o => ¬ (id = 0 ∨ o.2 = 0 ∨ o.2 > s.revision)) s.refreshOutcomes

/-- A state whose every field survives a snapshot. -/
structure Durable (env : Env) (s : ControlState) : Prop where
  schema : s.schemaVersion = CONTROL_SCHEMA_VERSION
  cluster : (utf8 s.clusterId).length ≤ MAX_STRING_BYTES
  floors : s.FloorsFit
  records : s.catalogue.WellFormed
  agree : s.catalogue.Agree
  valid : s.catalogue.Valid
  dedup : All DedupRecord.Durable s.dedup
  featureDedup : All FeatureDedupRecord.Durable s.featureDedup
  kept : s.advanced = true ∨ s.featureDedup = ∅
  bootstrap : ∀ r, s.principalBootstrap = some r → r.Durable env s
  refreshes : s.RefreshesFit
  history : HistoryInv s

/-! ## The plain snapshot -/

section
variable {env : Env} {s : ControlState}

theorem advanced_of_floors (h : ¬ (s.readSchemaFloor < 3 ∨ s.writeSchemaFloor < 3)) : s.advanced = true := by
  have hne : s.readSchemaFloor ≠ CONTROL_SCHEMA_VERSION := by
    intro heq
    rw [heq] at h
    exact h (.inl (by decide))
  simp [ControlState.advanced, hne]

theorem not_advanced (h : s.advanced = false) : s.readSchemaFloor = CONTROL_SCHEMA_VERSION ∧
    s.writeSchemaFloor = CONTROL_SCHEMA_VERSION ∧ s.activatedFeatures = ∅ := by
  simpa [ControlState.advanced, and_assoc] using h

theorem magic_recovers {m : Bytes} (h : m.length = 8) :
    Recovers (raw m : Put StateCodecError) (lift (Reader.take 8)) m := by
  refine ⟨fun b rest hb => ?_, by simp [raw]⟩
  cases hb
  have hrun := run_take_append CodecError.truncated m rest
  rw [h] at hrun
  exact run_mapError_ok hrun

variable {β κ : Type} {ps : List (Put StateCodecError)}

theorem decodeHeader_recovers {magic : Bytes} {format schema : UInt16}
    {f : UInt16 × Bool × Bool → Get StateCodecError β} {v : β}
    (hmagic : magic = SNAPSHOT_MAGIC ∧ format = SNAPSHOT_FORMAT_VERSION ∨
      magic = BOOTSTRAP_SNAPSHOT_MAGIC ∧ format = 4 ∨
      magic = PREVIOUS_SNAPSHOT_MAGIC ∧ format = PREVIOUS_SNAPSHOT_FORMAT_VERSION)
    (h : Recovers (seq ps) (f (schema, decide (magic ≠ PREVIOUS_SNAPSHOT_MAGIC),
      decide (magic = BOOTSTRAP_SNAPSHOT_MAGIC))) v) :
    Recovers (seq (raw magic :: u16 format :: u16 CONTROL_CODEC_VERSION ::
      u16 schema :: ps)) (decodeHeader >>= f) v := by
  have hhead : Recovers (seq [raw magic, u16 format, u16 CONTROL_CODEC_VERSION,
      u16 schema] : Put StateCodecError) decodeHeader (schema, decide (magic ≠ PREVIOUS_SNAPSHOT_MAGIC),
      decide (magic = BOOTSTRAP_SNAPSHOT_MAGIC)) := by
    rcases hmagic with ⟨rfl, rfl⟩ | ⟨rfl, rfl⟩ | ⟨rfl, rfl⟩ <;>
      exact .bind (magic_recovers rfl) (.bind (u16_recovers _) (.step (run_checkGet (by decide))
        (.bind (u16_recovers _) (.step (run_checkGet rfl) (.bind (u16_recovers schema) .pure)))))
  have happ := bind hhead h
  rw [seq_cons_seq] at happ
  exact happ

theorem header_recovers {f : UInt16 × Bool × Bool → Get StateCodecError β} {v : β}
    (hboot : s.principalBootstrap.isSome = true → s.advanced = true)
    (h : Recovers (seq ps) (f (s.schemaVersion, s.advanced, s.principalBootstrap.isSome)) v) :
    Recovers (seq (encodeHeader s :: u16 CONTROL_CODEC_VERSION :: u16 s.schemaVersion :: ps))
      (decodeHeader >>= f) v := by
  unfold encodeHeader
  split
  · rename_i hsome
    rw [hboot hsome, hsome] at h
    refine .flatten (checkPut_recovers ?_)
    exact decodeHeader_recovers (.inr (.inl ⟨rfl, rfl⟩)) h
  · rename_i hnone
    rw [Bool.eq_false_of_not_eq_true hnone] at h
    split
    · rename_i hadv
      rw [hadv] at h
      exact .flatten (decodeHeader_recovers (.inl ⟨rfl, rfl⟩) h)
    · rename_i hadv
      rw [Bool.eq_false_of_not_eq_true hadv] at h
      exact .flatten (decodeHeader_recovers (.inr (.inr ⟨rfl, rfl⟩)) h)

theorem floors_recover (h : s.FloorsFit) : Recovers (encodeFloors s) (decodeFloors s.advanced)
    (s.readSchemaFloor, s.writeSchemaFloor, s.activatedFeatures) := by
  unfold encodeFloors
  split
  · rename_i hadv
    rw [hadv]
    have hread : Recovers (seq (s.activatedFeatures.toList.map string) : Put StateCodecError)
        (readFeatures s.activatedFeatures.toList.length ∅)
        ((∅ : ExtTreeSet String compare).insertMany s.activatedFeatures.toList) :=
      readFeatures_recovers _ ∅ (fun f hf => h.features f (ExtTreeSet.mem_toList.mp hf))
        ExtTreeSet.distinct_toList (by simp)
    rw [ExtTreeSet.length_toList, TreeMap.set_insertMany_toList] at hread
    refine .bind (u16_recovers _) (.bind (u16_recovers _) (.bind (readCount_recovers _) ?_))
    exact .bind hread .pure
  · rename_i hadv
    have hfalse := Bool.eq_false_of_not_eq_true hadv
    obtain ⟨hr, hw, hf⟩ := not_advanced hfalse
    rw [hfalse, hr, hw, hf]
    exact .pure

theorem featureTable_recovers (h : All FeatureDedupRecord.Durable s.featureDedup)
    (hkept : s.advanced = true ∨ s.featureDedup = ∅) :
    Recovers (encodeFeatureTable s) (decodeFeatureTable s.advanced) s.featureDedup := by
  unfold encodeFeatureTable
  cases hadv : s.advanced with
  | true => exact readMap_recovers fun k r hr => featureDedupEntry_recovers (h k r hr)
  | false =>
    rcases hkept with htrue | hempty
    · rw [hadv] at htrue; cases htrue
    · rw [hempty]; exact .pure

theorem bootstrapRecord_recovers {r : PrincipalBootstrapRecord} (h : r.Durable env s) :
    Recovers (encodeBootstrapRecord env r s.revision)
      (decodeBootstrapRecord env s.revision s.readSchemaFloor s.writeSchemaFloor) r := by
  have hcheck : (validateBootstrapRecord env r s.revision).mapError Fault.error = .ok () := by
    rw [h.valid]
    rfl
  unfold encodeBootstrapRecord
  rw [h.valid]
  refine .step (run_checkGet h.floors) (.bind (uuid_recovers _) (.bind (string_recovers h.key) ?_))
  exact .bind (uuid_recovers _) (.bind (digest_recovers _) (.bind (u64_recovers _)
    (.step (run_lift_ok hcheck) .pure)))

theorem bootstrap_recovers (h : ∀ r, s.principalBootstrap = some r → r.Durable env s) :
    Recovers (encodeBootstrap env s)
      (decodeBootstrap env s.principalBootstrap.isSome s.revision s.readSchemaFloor s.writeSchemaFloor)
      s.principalBootstrap := by
  unfold encodeBootstrap
  cases hb : s.principalBootstrap with
  | none => exact .pure
  | some r =>
    have hrec := bind (f := fun r => pure (some r)) (bootstrapRecord_recovers (h r hb)) .pure
    rw [seq_single] at hrec
    exact hrec

/-- The plain fields of a durable state are read back; the two wrappers carry
the rest. -/
theorem fields_recover (h : Durable env s) : Recovers (encodeFields env s) (decodeFields env)
    { s with publicationHistory := [], refreshOutcomes := ∅ } := by
  have hboot : s.principalBootstrap.isSome = true → s.advanced = true := by
    intro hsome
    obtain ⟨r, hr⟩ := Option.isSome_iff_exists.mp hsome
    exact advanced_of_floors (h.bootstrap r hr).floors
  refine checkPut_recovers (header_recovers hboot (.step (run_checkGet h.schema) ?_))
  refine .bind (string_recovers h.cluster) (.bind (u64_recovers _) (.bind (floors_recover h.floors) ?_))
  refine .bind (readMap_recovers fun k m hm =>
    memberEntry_recovers (h.records.members k m hm) (h.valid.members k m hm).1) ?_
  refine .bind (readMap_recovers fun k w hw =>
    workspaceEntry_recovers (h.records.workspaces k w hw).1 (h.valid.workspaces k w hw)) ?_
  refine .bind (readMap_recovers fun k t ht =>
    tabEntry_recovers (h.records.tabs k t ht).1 (h.valid.tabs k t ht)) ?_
  refine .bind (readMap_recovers fun k p hp =>
    paneEntry_recovers (h.records.panes k p hp).1 (h.valid.panes k p hp)) ?_
  refine .bind (readMap_recovers fun k r hr => dedupEntry_recovers (h.dedup k r hr)) ?_
  refine .bind (featureTable_recovers h.featureDedup h.kept) ?_
  exact .bind (bootstrap_recovers h.bootstrap) .pure

theorem forM_values_ok [Ord κ] [TransOrd κ] [LawfulEqOrd κ] {m : ExtTreeMap κ β compare}
    {f : β → Except StateCodecError Unit} (h : All (fun _ v => f v = .ok ()) m) :
    (m.toList.forM fun entry => f entry.2) = .ok () := by
  refine forM_eq_ok.mpr fun e he => ?_
  exact h e.1 e.2 (mem_toList_iff_getElem?_eq_some.mp he)

theorem mem_of_some [Ord κ] [TransOrd κ] {m : ExtTreeMap κ β compare} {k : κ}
    (h : ∃ v, m[k]? = some v) : k ∈ m := by
  obtain ⟨v, hv⟩ := h
  exact mem_iff_isSome_getElem?.mpr (by rw [hv]; rfl)

theorem validatePaneReferences_ok (h : Durable env s) {k : Uuid} {p : LogicalPaneRecord}
    (hp : s.panes[k]? = some p) : validatePaneReferences s p = .ok () := by
  obtain ⟨_, _, hw, ⟨t, ht⟩, hgen⟩ := h.records.panes k p hp
  have htab : s.tabs[p.tabId.value]? = some t := ht
  have hws : t.workspaceId = p.workspaceId := h.agree k p hp t ht
  unfold validatePaneReferences
  rw [htab]
  refine bind_eq_ok.mpr ⟨(), checkState_ok.mpr ⟨by rw [hws], mem_of_some hw⟩, ?_⟩
  refine checkState_ok.mpr fun a ha hzero => ?_
  have hpos := hgen a ha
  rw [hzero] at hpos
  exact absurd hpos (by decide)

theorem validateReferences_ok (h : Durable env s) : validateReferences s = .ok () := by
  refine bind_eq_ok.mpr ⟨(), checkState_ok.mpr ?_, ?_⟩
  · have hlow := h.floors.low
    have hord := h.floors.ordered
    rintro (hr | hw | hgt | ⟨hw, hf⟩)
    · exact absurd hlow (UInt16.not_le.mpr hr)
    · exact absurd (UInt16.le_trans hlow hord) (UInt16.not_le.mpr hw)
    · exact absurd hord (UInt16.not_le.mpr hgt)
    · exact h.floors.raised hf hw
  · have htabs : All (fun _ t => checkState (t.workspaceId.value ∈ s.workspaces)
        "tab references missing workspace" = .ok ()) s.tabs :=
      fun k t ht => checkState_ok.mpr (mem_of_some (h.records.tabs k t ht).2.2)
    have hpanes : All (fun _ p => validatePaneReferences s p = .ok ()) s.panes :=
      fun k p hp => validatePaneReferences_ok h hp
    have hmembers : All (fun _ m => checkState (m.clusterId = s.clusterId)
        "member belongs to another cluster" = .ok ()) s.members :=
      fun k m hm => checkState_ok.mpr (h.valid.members k m hm).2
    exact bind_eq_ok.mpr ⟨(), forM_values_ok htabs, bind_eq_ok.mpr ⟨(), forM_values_ok hpanes,
      forM_values_ok hmembers⟩⟩

end

end Bmux.Control
