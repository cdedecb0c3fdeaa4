import Bmux.L1Encoding.Deserializer

/-!
# Decoding under limits

`from_positional_bytes_bounded` runs the same deserializer as
`from_positional_bytes` with limits in its state. `Gated r` says what the
limits do to a reader: the unlimited run appends some lengths to the log; if
they are within the limits, the limited run does the same and has that much
less budget left, and otherwise it fails. In both cases no visitor was given a
size hint beyond the limits. The readers of every type are gated because
gated readers compose.
-/
namespace Bmux.Codec
open Wire Streams Canonical List

/-! ## Lengths and limits -/

def Event.cost : Event → Nat
  | .entries len => len
  | .blob _ | .sizeHint _ => 0

variable (limits : DecodeLimits)

def Event.Admitted : Event → Prop
  | .blob len => len ≤ limits.maxBlobBytes
  | .entries len => len ≤ limits.maxContainerEntries
  | .sizeHint _ => True

variable (budget : Nat) (log : List Event)

def total : Nat := (log.map Event.cost).sum

/-- Every length within its limit, and all container lengths within the budget. -/
structure Within : Prop where
  each : ∀ event ∈ log, event.Admitted limits
  sum : total log ≤ budget

/-- No size hint beyond the limits. -/
def HintsWithin : Prop :=
  ∀ len, .sizeHint len ∈ log → len ≤ limits.maxContainerEntries ∧ len ≤ budget

variable {limits : DecodeLimits} {budget : Nat} {log log' : List Event}

theorem total_append (log log' : List Event) : total (log ++ log') = total log + total log' := by
  simp [total]

theorem within_nil : Within limits budget [] := ⟨fun _ h => (nomatch h), zero_le⟩

theorem within_append :
    Within limits budget (log ++ log') ↔ Within limits budget log ∧ Within limits (budget - total log) log' := by
  constructor
  · intro h
    have hsum := h.sum
    rw [total_append] at hsum
    refine ⟨⟨fun e he => h.each e (mem_append_left _ he), ?_⟩,
      ⟨fun e he => h.each e (mem_append_right _ he), ?_⟩⟩
    · omega
    · omega
  · rintro ⟨h, h'⟩
    have hsum := h.sum
    have hsum' := h'.sum
    refine ⟨forall_mem_append.mpr ⟨h.each, h'.each⟩, ?_⟩
    rw [total_append]
    omega

theorem hintsWithin_nil : HintsWithin limits budget [] := fun _ h => nomatch h

theorem hintsWithin_append {budget' : Nat} (hle : budget' ≤ budget) (h : HintsWithin limits budget log)
    (h' : HintsWithin limits budget' log') : HintsWithin limits budget (log ++ log') := by
  intro len hmem
  rcases mem_append.mp hmem with hmem | hmem
  · exact h len hmem
  · have := h' len hmem
    omega

/-! ## Gated readers -/

/-- The limits let the unlimited run through or stop it, and nothing else. -/
def Gated {α : Type} (r : De α) : Prop :=
  ∀ input flag n log, ∃ result input' flag' added,
    r.exec ⟨input, ⟨flag, none, n, log⟩⟩ = (result, ⟨input', ⟨flag', none, n, log ++ added⟩⟩) ∧
    ∀ limits budget,
      (Within limits budget added →
        r.exec ⟨input, ⟨flag, some limits, budget, log⟩⟩ =
            (result, ⟨input', ⟨flag', some limits, budget - total added, log ++ added⟩⟩) ∧
          HintsWithin limits budget added) ∧
      (¬ Within limits budget added →
        ∃ e added', (r.exec ⟨input, ⟨flag, some limits, budget, log⟩⟩).1 = .error e ∧
          (r.exec ⟨input, ⟨flag, some limits, budget, log⟩⟩).2.context.log = log ++ added' ∧
          HintsWithin limits budget added')

variable {α β : Type}

variable {r : De α}

theorem gated_of_silent (run : Bytes → Except (Fault Error) α × Bytes)
    (h : ∀ input c, r.exec ⟨input, c⟩ = ((run input).1, ⟨(run input).2, c⟩)) : Gated r := by
  intro input flag n log
  refine ⟨(run input).1, (run input).2, flag, [], ?_, fun limits budget => ⟨fun _ => ?_, fun hnot => ?_⟩⟩
  · rw [h, append_nil]
  · rw [h, append_nil]
    exact ⟨rfl, hintsWithin_nil⟩
  · exact absurd within_nil hnot

theorem gated_pure (a : α) : Gated (pure a : De α) := gated_of_silent (fun input => (.ok a, input)) fun _ _ => rfl

theorem gated_throw (e : Fault Error) : Gated (throw e : De α) :=
  gated_of_silent (fun input => (.error e, input)) fun _ _ => rfl

theorem gated_reject (e : Error) : Gated (reject e : De α) := gated_throw _

/-- Gated readers compose: the second one starts with the budget that the first one leaves. -/
theorem Gated.bind {f : α → De β} (hr : Gated r) (hf : ∀ a, Gated (f a)) : Gated (r >>= f) := by
  intro input flag n log
  obtain ⟨result, input₁, flag₁, added₁, hrun₁, hlim₁⟩ := hr input flag n log
  cases result with
  | error e =>
    refine ⟨.error e, input₁, flag₁, added₁, ?_, fun limits budget => ⟨fun hw => ?_, fun hw => ?_⟩⟩
    · rw [exec_bind, hrun₁]
    · obtain ⟨hrun, hhints⟩ := (hlim₁ limits budget).1 hw
      rw [exec_bind, hrun]
      exact ⟨rfl, hhints⟩
    · obtain ⟨e', added', hrun, hlog, hhints⟩ := (hlim₁ limits budget).2 hw
      rw [exec_bind_error hrun]
      exact ⟨e', added', rfl, hlog, hhints⟩
  | ok a =>
    obtain ⟨result, input₂, flag₂, added₂, hrun₂, hlim₂⟩ := hf a input₁ flag₁ n (log ++ added₁)
    rw [append_assoc] at hrun₂
    refine ⟨result, input₂, flag₂, added₁ ++ added₂, ?_, fun limits budget => ⟨fun hw => ?_, fun hw => ?_⟩⟩
    · rw [exec_bind_ok hrun₁, hrun₂]
    · obtain ⟨hw₁, hw₂⟩ := within_append.mp hw
      obtain ⟨hrun, hhints⟩ := (hlim₁ limits budget).1 hw₁
      obtain ⟨hrun', hhints'⟩ := (hlim₂ limits _).1 hw₂
      rw [exec_bind_ok hrun, hrun', append_assoc, total_append, Nat.sub_sub]
      exact ⟨rfl, hintsWithin_append (Nat.sub_le _ _) hhints hhints'⟩
    · -- the first reader may already have been stopped
      by_cases hw₁ : Within limits budget added₁
      · have hw₂ : ¬ Within limits (budget - total added₁) added₂ := fun hw₂ => hw (within_append.mpr ⟨hw₁, hw₂⟩)
        obtain ⟨hrun, hhints⟩ := (hlim₁ limits budget).1 hw₁
        obtain ⟨e, added', hrun', hlog, hhints'⟩ := (hlim₂ limits _).2 hw₂
        rw [exec_bind_ok hrun]
        refine ⟨e, added₁ ++ added', hrun', ?_, hintsWithin_append (Nat.sub_le _ _) hhints hhints'⟩
        rw [hlog, append_assoc]
      · obtain ⟨e, added', hrun, hlog, hhints⟩ := (hlim₁ limits budget).2 hw₁
        rw [exec_bind_error hrun]
        exact ⟨e, added', rfl, hlog, hhints⟩

theorem Gated.map (g : α → β) (hr : Gated r) : Gated (g <$> r) := by
  exact hr.bind fun a => gated_pure (g a)

/-! ## Primitives -/

theorem gated_consume (n : Nat) : Gated (consume n) := by
  refine gated_of_silent (fun input =>
    if h : n ≤ input.length then (.ok ⟨input.take n, length_take_of_le h⟩, input.drop n)
    else (.error (.error .unexpectedEof), input)) fun input c => ?_
  rw [consume, Streams.consume, exec_of]
  by_cases h : n ≤ input.length
  · simp only [h, dif_pos]
  · simp [h]

theorem gated_readU8 : Gated readU8 := (gated_consume 1).bind fun _ => gated_pure _

theorem gated_readVarint (decode : Bytes → Option (α × Nat)) : Gated (readVarint decode) := by
  refine gated_of_silent (fun input => (decode input).elim (.error (.error .unexpectedEof), input)
    fun read => (.ok read.1, input.drop read.2)) fun input c => ?_
  rw [readVarint, exec_of]
  cases decode input with
  | none | some => rfl

section Checks
variable (input : Bytes) (flag : Bool) (log : List Event) {len : Nat}

theorem exec_record (event : Event) (lim : Option DecodeLimits) (n : Nat) :
    (record event).exec ⟨input, ⟨flag, lim, n, log⟩⟩ = (.ok (), ⟨input, ⟨flag, lim, n, log ++ [event]⟩⟩) := rfl

theorem exec_admitBlob : (admitBlob len).exec ⟨input, ⟨flag, some limits, budget, log⟩⟩ =
    if len > limits.maxBlobBytes then
      (.error (.error (.message "blob byte budget exceeded")), ⟨input, ⟨flag, some limits, budget, log⟩⟩)
    else (.ok (), ⟨input, ⟨flag, some limits, budget, log⟩⟩) := rfl

theorem exec_admitEntries : (admitEntries len).exec ⟨input, ⟨flag, some limits, budget, log⟩⟩ =
    if len > limits.maxContainerEntries ∨ len > budget then
      (.error (.error (.message "container entry budget exceeded")), ⟨input, ⟨flag, some limits, budget, log⟩⟩)
    else (.ok (), ⟨input, ⟨flag, some limits, budget - len, log⟩⟩) := rfl

end Checks

/-- A blob length: it is logged, and checked before the bytes are taken. -/
theorem gated_admitBlob (len : Nat) : Gated (record (.blob len) >>= fun _ => admitBlob len) := by
  intro input flag n log
  refine ⟨.ok (), input, flag, [.blob len], rfl, fun limits budget => ⟨fun hw => ?_, fun hw => ?_⟩⟩
  · have hle : len ≤ limits.maxBlobBytes := hw.each _ (mem_singleton.mpr rfl)
    refine ⟨?_, fun _ hmem => by simp at hmem⟩
    rw [exec_bind_ok (exec_record input flag log _ _ _), exec_admitBlob, if_neg (not_lt.mpr hle)]
    rfl
  · have hgt : len > limits.maxBlobBytes := by
      by_contra hle
      refine hw ⟨fun e he => ?_, zero_le⟩
      rw [mem_singleton.mp he]
      exact not_lt.mp hle
    rw [exec_bind_ok (exec_record input flag log _ _ _), exec_admitBlob, if_pos hgt]
    exact ⟨_, [.blob len], rfl, rfl, fun _ hmem => by simp at hmem⟩

theorem gated_readBytes : Gated readBytes := by
  refine (gated_readVarint _).bind fun len => ?_
  have hadmit := gated_admitBlob len.toNat
  have hrest : Gated ((record (.blob len.toNat) >>= fun _ => admitBlob len.toNat) >>= fun _ => do
      let bytes ← consume len.toNat
      pure (⟨bytes.val, by rw [bytes.property]; exact len.toNat_lt⟩ : Buffer)) :=
    hadmit.bind fun _ => (gated_consume _).bind fun _ => gated_pure _
  exact hrest

theorem gated_readStr : Gated readStr := by
  refine gated_readBytes.bind fun bytes => ?_
  split
  · exact gated_pure _
  · exact gated_reject _

/-- A container length: it is logged, checked, taken from the budget, and only then
handed to the visitor as a size hint. -/
theorem gated_announce (len : Nat) :
    Gated (record (.entries len) >>= fun _ => admitEntries len >>= fun _ => record (.sizeHint len)) := by
  intro input flag n log
  refine ⟨.ok (), input, flag, [.entries len, .sizeHint len], ?_, fun limits budget => ⟨fun hw => ?_, fun hw => ?_⟩⟩
  · change (Except.ok (), _) = _
    simp
  · have hle : len ≤ limits.maxContainerEntries := hw.each _ mem_cons_self
    have hsum : len ≤ budget := hw.sum
    refine ⟨?_, fun m hmem => ?_⟩
    · rw [exec_bind_ok (exec_record input flag log _ _ _), exec_bind, exec_admitEntries, if_neg (by omega)]
      dsimp only
      rw [exec_record, append_assoc]
      rfl
    · simp only [mem_cons, Event.sizeHint.injEq, reduceCtorEq, not_mem_nil, false_or, or_false] at hmem
      omega
  · have hviolated : len > limits.maxContainerEntries ∨ len > budget := by
      by_contra hle
      rw [not_or, not_lt, not_lt] at hle
      refine hw ⟨fun e he => ?_, hle.2⟩
      simp only [mem_cons, not_mem_nil, or_false] at he
      rcases he with rfl | rfl
      · exact hle.1
      · trivial
    rw [exec_bind_ok (exec_record input flag log _ _ _), exec_bind, exec_admitEntries, if_pos hviolated]
    exact ⟨_, [.entries len], rfl, rfl, fun _ hmem => by simp at hmem⟩

/-! ## The positional readers -/

theorem gated_counted {f : UInt64 → De α} (hf : ∀ len, Gated (f len)) :
    Gated (readVarintUsize >>= fun len => record (.sizeHint len.toNat) >>= fun _ => f len) := by
  have hread : Gated (readVarint Varint.decodeUsize >>= fun len =>
      (record (.entries len.toNat) >>= fun _ => admitEntries len.toNat >>= fun _ => record (.sizeHint len.toNat)) >>=
        fun _ => f len) :=
    (gated_readVarint _).bind fun len => (gated_announce len.toNat).bind fun _ => hf len
  simp only [readVarintUsize, bind_assoc, pure_bind] at hread ⊢
  exact hread

theorem gated_repeatRead (hr : Gated r) : ∀ n, Gated (repeatRead r n)
  | 0 => gated_pure _
  | n + 1 => hr.bind fun _ => (gated_repeatRead hr n).bind fun _ => gated_pure _

theorem Gated.withTagged (hr : Gated r) {enter : Cursor Flags → Bool}
    (henter : ∀ input flag lim lim' n n' log,
      enter ⟨input, ⟨flag, lim, n, log⟩⟩ = enter ⟨input, ⟨flag, lim', n', log⟩⟩) : Gated (withTagged enter r) := by
  intro input flag n log
  obtain ⟨result, input', flag', added, hrun, hlim⟩ := hr input (enter ⟨input, ⟨flag, none, n, log⟩⟩) n log
  have hexec : ∀ lim k, (Codec.withTagged enter r).exec ⟨input, ⟨flag, lim, k, log⟩⟩ =
      ((r.exec ⟨input, ⟨enter ⟨input, ⟨flag, none, n, log⟩⟩, lim, k, log⟩⟩).1,
        ⟨(r.exec ⟨input, ⟨enter ⟨input, ⟨flag, none, n, log⟩⟩, lim, k, log⟩⟩).2.input,
          { (r.exec ⟨input, ⟨enter ⟨input, ⟨flag, none, n, log⟩⟩, lim, k, log⟩⟩).2.context with
            taggedIdentifier := flag }⟩) := by
    intro lim k
    rw [henter input flag none lim n k log]
    rfl
  refine ⟨result, input', flag, added, ?_, fun limits budget => ⟨fun hw => ?_, fun hw => ?_⟩⟩
  · rw [hexec, hrun]
  · obtain ⟨hrun', hhints⟩ := (hlim limits budget).1 hw
    rw [hexec, hrun']
    exact ⟨rfl, hhints⟩
  · obtain ⟨e, added', hrun', hlog, hhints⟩ := (hlim limits budget).2 hw
    rw [hexec]
    exact ⟨e, added', hrun', hlog, hhints⟩

theorem gated_expectTag (tag : TypeTag) : Gated (expectTag .positional tag) := gated_pure ()

theorem Gated.tagged (h : Gated r) {tag : TypeTag} : Gated (expectTag .positional tag >>= fun _ => r) :=
  (gated_expectTag tag).bind fun _ => h

mutual
/-- By recursion over the type. -/
theorem gated_deserialize : (t : Ty) → Gated (deserialize .positional t)
  | .bool => .tagged <| gated_readU8.bind fun byte => by
    split
    · exact gated_pure _
    · exact gated_pure _
    · exact gated_reject _
  | .i8 => .tagged <| (gated_readVarint _).bind fun v => by
    split
    · exact gated_pure _
    · exact gated_reject _
  | .i16 | .i32 | .i64 => (gated_readVarint _).tagged
  | .u8 => gated_readU8.tagged
  | .u16 | .u32 | .u64 => (gated_readVarint _).tagged
  | .f32 => .tagged <| (gated_consume 4).bind fun _ => gated_pure _
  | .f64 => .tagged <| (gated_consume 8).bind fun _ => gated_pure _
  | .char => .tagged <| (gated_readVarint _).bind fun v => by
    split
    · exact gated_pure _
    · exact gated_reject _
  | .str => gated_readStr.tagged
  | .bytes => gated_readBytes.tagged
  | .option t => gated_readU8.bind fun byte => by
    split
    · exact gated_pure _
    · exact (gated_deserialize t).map some
    · exact gated_reject _
  | .unit | .unitStruct => gated_expectTag _
  | .newtypeStruct t => gated_deserialize t
  | .seq t => .tagged <|
    gated_counted fun len => (gated_repeatRead (gated_deserialize t) _).bind fun _ => gated_pure _
  | .tuple ts | .tupleStruct ts => .tagged <| (gated_pure _).bind fun n => gated_visitElements ts n 0
  | .map k v => .tagged <| gated_counted fun len => by
    have hentry : Gated (nextEntry (deserialize .positional k) (deserialize .positional v)) :=
      ((gated_deserialize k).withTagged fun _ _ _ _ _ _ _ => rfl).bind fun _ =>
        ((gated_deserialize v).withTagged fun _ _ _ _ _ _ _ => rfl).bind fun _ => gated_pure _
    exact (gated_repeatRead hentry _).bind fun _ => gated_pure _
  | .struct fields => .tagged <| gated_visitFields fields fields.length 0
  | .enum variants => .tagged <| by
    refine Gated.withTagged ?_ fun _ _ _ _ _ _ _ => rfl
    exact ((gated_readVarint _).map _).bind fun variant => gated_visitVariant variants variant 0

theorem gated_visitElements : (ts : Tys) → (remaining index : Nat) →
    Gated (visitElements .positional ts remaining index)
  | .nil, _, _ => gated_pure ()
  | .cons _ _, 0, _ => gated_reject _
  | .cons t ts, remaining + 1, index => (gated_deserialize t).bind fun _ =>
    (gated_visitElements ts remaining (index + 1)).bind fun _ => gated_pure _

theorem gated_visitFields : (fields : Fields) → (remaining index : Nat) →
    Gated (visitFields .positional fields remaining index)
  | .nil, _, _ => gated_pure ()
  | .cons _ _ _, 0, _ => gated_reject _
  | .cons _ t fields, remaining + 1, index => (gated_deserialize t).bind fun _ =>
    (gated_visitFields fields remaining (index + 1)).bind fun _ => gated_pure _

theorem gated_visitVariant : (variants : Variants) → (variant : Identifier) → (index : Nat) →
    Gated (visitVariant .positional variants variant index)
  | .nil, _, _ => gated_reject _
  | .cons name shape variants, variant, index => by
    rw [visitVariant]
    split
    · exact (gated_visitShape shape).map Sum.inl
    · exact (gated_visitVariant variants variant (index + 1)).map Sum.inr

theorem gated_visitShape : (shape : Shape) → Gated (visitShape .positional shape)
  | .unit => gated_pure ()
  | .newtype t => gated_deserialize t
  | .tuple ts => (gated_pure _).bind fun n => gated_visitElements ts n 0
  | .struct fields => gated_visitFields fields fields.length 0
end

/-! ## The bounded decoder -/

def positionalLog (t : Ty) (bytes : Bytes) : List Event :=
  ((deserialize .positional t).exec ⟨bytes, .new⟩).2.context.log

/-- The bounded decoder accepts exactly what the unbounded one accepts with every
length of that decode within the limits, and it never hands a visitor a size
hint beyond them, whether it succeeds or fails. -/
theorem bounded_decode_iff (t : Ty) (bytes : Bytes) (limits : DecodeLimits) :
    (∀ v, fromPositionalBytesBounded t bytes limits = .ok v ↔
      fromPositionalBytes t bytes = .ok v ∧ bytes.length ≤ limits.maxInputBytes ∧
        Within limits limits.maxTotalEntries (positionalLog t bytes)) ∧
    HintsWithin limits limits.maxTotalEntries (boundedRun t bytes limits).2.context.log := by
  obtain ⟨result, input', flag', added, hrun, hlim⟩ := gated_deserialize t bytes false (2 ^ 64 - 1) []
  have hlog : positionalLog t bytes = added := by
    rw [positionalLog, Flags.new, hrun]
    rfl
  have hfree : fromPositionalBytes t bytes = finish (result, ⟨input', ⟨flag', none, 2 ^ 64 - 1, added⟩⟩) := by
    rw [fromPositionalBytes, fromBytesWithMode, Flags.new, hrun]
    rfl
  obtain ⟨hok, herr⟩ := hlim limits limits.maxTotalEntries
  by_cases hw : Within limits limits.maxTotalEntries added
  · obtain ⟨hbounded, hhints⟩ := hok hw
    have hboundedRun : boundedRun t bytes limits = _ := hbounded
    refine ⟨fun v => ?_, ?_⟩
    · have hsame : finish (boundedRun t bytes limits) = fromPositionalBytes t bytes := by
        rw [hboundedRun, hfree]
        cases result <;> rfl
      rw [fromPositionalBytesBounded, fromBytesBounded, hsame, hlog]
      by_cases hlen : bytes.length > limits.maxInputBytes
      · rw [if_pos hlen]
        refine ⟨fun h => (nomatch h), fun h => absurd h.2.1 (not_le.mpr hlen)⟩
      · rw [if_neg hlen]
        exact ⟨fun h => ⟨h, not_lt.mp hlen, hw⟩, fun h => h.1⟩
    · rw [hboundedRun]
      exact hhints
  · obtain ⟨e, added', hbounded, hadded, hhints⟩ := herr hw
    have hboundedRun : (boundedRun t bytes limits).1 = .error e := hbounded
    refine ⟨fun v => ⟨fun h => ?_, fun h => absurd (hlog ▸ h.2.2) hw⟩, ?_⟩
    · rw [fromPositionalBytesBounded, fromBytesBounded] at h
      split at h
      · cases h
      · rw [show boundedRun t bytes limits = (.error e, (boundedRun t bytes limits).2) from
          Prod.ext hboundedRun rfl] at h
        cases h
    · have hcontext : (boundedRun t bytes limits).2.context.log = [] ++ added' := hadded
      rw [hcontext]
      exact hhints

end Bmux.Codec
