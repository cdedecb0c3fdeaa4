import Bmux.Core.Run

/-!
# The JSON projection of a state channel

`packages/plugin/src/event_bus.rs` keeps a typed value per state channel and, if it was registered
with a projection, a second watch channel with its JSON. `publish_state` writes the typed value, asks
whether anyone is subscribed, encodes and writes the JSON; `subscribe_state_json` encodes, writes the
JSON and only then subscribes. The registry lock is only read by all of them, so the steps of calls
on different threads interleave.

Two orders leave a live subscriber with an old value: a publisher that encoded before another
published and writes after it (`Sample.overtaken`), and a publisher that sees no subscriber while one
is between its encoding and its subscription (`Sample.unnoticed`). `projection_converges` shows that
nothing else does: if no publication starts during another call on the channel, every subscriber has the
encoding of the retained value whenever no call is in progress.

`subscribe_json` refuses state channels, so the JSON broadcast channel of one has no receiver and is
left out, as are the checks for a channel that is not registered or of another type.
-/
namespace Bmux.StateChannel
open List

/-- A live JSON subscriber: the value it was given and the version its receiver had then seen. -/
structure Subscriber (J : Type) where
  given : J
  since : Nat
  deriving DecidableEq, Repr

/-- A call in progress, by what it does next. -/
inductive Call (J : Type) where
  /-- `publish_state`, the typed value is written: count the receivers -/
  | observing
  /-- `publish_state`, someone is subscribed: encode the typed value -/
  | encoding
  /-- `publish_state`: write the JSON -/
  | projecting (payload : J)
  /-- `subscribe_state_json`, encoded: write the JSON -/
  | seeding (payload : J)
  /-- `subscribe_state_json`: subscribe and return -/
  | joining (payload : J)
  deriving DecidableEq, Repr

def Call.publishes {J : Type} : Call J → Bool
  | .observing | .encoding | .projecting _ => true
  | .seeding _ | .joining _ => false

/-- A watch channel wakes its receivers by its version. -/
structure Channel (T J : Type) where
  retained : T
  json : J
  version : Nat
  subscribers : List (Subscriber J)
  calls : List (Call J)
  deriving DecidableEq, Repr

inductive Input (T : Type) where
  | publish (value : T)
  | subscribe
  | advance (call : Nat)
  | drop (subscriber : Nat)
  deriving Repr

section

variable {T J : Type} (encode : T → Option J) (null : J)

def encoded (value : T) : J := (encode value).getD null

def registerStateChannel (initial : T) : Channel T J :=
  { retained := initial, json := null, version := 0, subscribers := [], calls := [] }

variable (c : Channel T J)

def Channel.sendReplace (payload : J) : Channel T J :=
  { c with json := payload, version := c.version + 1 }

/-- The next step of a call.
mirrors packages/plugin/src/event_bus.rs:647-658,757-799,935-986 -/
def Channel.advance (i : Nat) : Call J → Channel T J
  | .observing =>
    if c.subscribers.length > 0 then { c with calls := c.calls.set i .encoding }
    else { c with calls := c.calls.eraseIdx i }
  | .encoding => { c with calls := c.calls.set i (.projecting (encoded encode null c.retained)) }
  | .projecting payload => { c.sendReplace payload with calls := c.calls.eraseIdx i }
  | .seeding payload => { c.sendReplace payload with calls := c.calls.set i (.joining payload) }
  | .joining payload =>
    { c with
      subscribers := c.subscribers ++ [{ given := payload, since := c.version }]
      calls := c.calls.eraseIdx i }

def step : Input T → Option (Channel T J)
  | .publish value => some { c with retained := value, calls := c.calls ++ [.observing] }
  | .subscribe => some { c with calls := c.calls ++ [.seeding (encoded encode null c.retained)] }
  | .advance i => c.calls[i]?.map (c.advance encode null i)
  | .drop i => if i < c.subscribers.length then some { c with subscribers := c.subscribers.eraseIdx i } else none

/-- The last of the value a subscriber was given and the updates it has been woken for. -/
def Subscriber.last (s : Subscriber J) (c : Channel T J) : J := if s.since < c.version then c.json else s.given

/-- Every subscriber's receiver, and what the subscriber has been told, are up to date. -/
def Current : Prop :=
  ∀ s ∈ c.subscribers, c.json = encoded encode null c.retained ∧ s.last c = encoded encode null c.retained

/-- A publication starts during no other call on the channel. -/
def Alone : Input T → Prop
  | .publish _ => c.calls = []
  | _ => True

/-! ## Publications that start alone -/

variable {encode null}

/-- What a call in progress has encoded is the retained value, and a subscription about to join finds it written. -/
def Settled (encode : T → Option J) (null : J) (c : Channel T J) : Call J → Prop
  | .observing | .encoding => True
  | .projecting payload | .seeding payload => payload = encoded encode null c.retained
  | .joining payload => payload = encoded encode null c.retained ∧ c.json = encoded encode null c.retained

/-- Unless a publication is in progress, the subscribers are up to date. -/
structure Orderly (encode : T → Option J) (null : J) (c : Channel T J) : Prop where
  seen : ∀ s ∈ c.subscribers, s.since ≤ c.version
  calls : ∀ k ∈ c.calls, Settled encode null c k
  current : (∃ k ∈ c.calls, k.publishes = true) ∨ Current encode null c

variable {c : Channel T J}

theorem orderly_register (initial : T) : Orderly encode null (registerStateChannel null initial) :=
  ⟨nofun, nofun, .inr nofun⟩

/-- Writing the JSON of the retained value wakes every subscriber. -/
theorem Orderly.sendReplace (h : Orderly encode null c) {calls : List (Call J)}
    (hcalls : ∀ k ∈ calls, k ∈ c.calls ∨ k = .joining (encoded encode null c.retained)) :
    Orderly encode null { c.sendReplace (encoded encode null c.retained) with calls } where
  seen s hs := Nat.le_succ_of_le (h.seen s hs)
  calls k hk := by
    obtain hk | rfl := hcalls k hk
    · have hsettled := h.calls k hk
      cases k with
      | joining payload => exact ⟨hsettled.1, rfl⟩
      | _ => exact hsettled
    · exact ⟨rfl, rfl⟩
  current := by
    refine .inr fun s hs => ⟨rfl, ?_⟩
    have hlt : s.since < c.version + 1 := Nat.lt_succ_of_le (h.seen s hs)
    show (if s.since < c.version + 1 then _ else _) = _
    rw [if_pos hlt]
    rfl

/-- The next part of a call in progress. -/
theorem Orderly.advance (h : Orderly encode null c) {i : Nat} {k : Call J} (hi : c.calls[i]? = some k) :
    Orderly encode null (c.advance encode null i k) := by
  have hk := h.calls k (mem_of_getElem? hi)
  obtain ⟨hlt, -⟩ := List.getElem?_eq_some_iff.mp hi
  have hset {k' : Call J} (hk' : Settled encode null c k') : ∀ q ∈ c.calls.set i k', Settled encode null c q := by
    intro q hq
    obtain hq | rfl := mem_or_eq_of_mem_set hq
    exacts [h.calls q hq, hk']
  have herase : ∀ q ∈ c.calls.eraseIdx i, Settled encode null c q := fun q hq => h.calls q (mem_of_mem_eraseIdx hq)
  cases k with
  | observing =>
    rw [Channel.advance]
    split
    · exact ⟨h.seen, hset trivial, .inl ⟨.encoding, mem_set hlt _, rfl⟩⟩
    · have hempty : c.subscribers = [] := eq_nil_of_length_eq_zero (by omega)
      refine ⟨h.seen, herase, .inr fun s hs => ?_⟩
      simp [hempty] at hs
  | encoding => exact ⟨h.seen, hset rfl, .inl ⟨_, mem_set hlt _, rfl⟩⟩
  | projecting payload =>
    cases hk
    exact h.sendReplace fun q hq => .inl (mem_of_mem_eraseIdx hq)
  | seeding payload =>
    cases hk
    exact h.sendReplace fun q hq => mem_or_eq_of_mem_set hq
  | joining payload =>
    obtain ⟨rfl, hjson⟩ := hk
    refine ⟨forall_mem_append.mpr ⟨h.seen, forall_mem_singleton.mpr le_rfl⟩, herase, ?_⟩
    obtain ⟨q, hq, hpublishes⟩ | hcurrent := h.current
    · -- the publication in progress is another call
      obtain ⟨j, hj⟩ := getElem?_of_mem hq
      refine .inl ⟨q, mem_eraseIdx_iff_getElem?.mpr ⟨j, ?_, hj⟩, hpublishes⟩
      rintro rfl
      cases hi.symm.trans hj
      cases hpublishes
    · exact .inr (forall_mem_append.mpr ⟨hcurrent, forall_mem_singleton.mpr ⟨hjson, if_neg (lt_irrefl _)⟩⟩)

/-- The step lemma of `Orderly`. -/
theorem orderly_step {c' : Channel T J} {i : Input T} (h : Orderly encode null c) (halone : Alone c i)
    (hs : step encode null c i = some c') : Orderly encode null c' := by
  cases i with
  | publish value =>
    cases hs
    have hcalls : c.calls = [] := halone
    exact ⟨h.seen, by simp [hcalls, Settled], .inl ⟨.observing, by simp, rfl⟩⟩
  | subscribe =>
    cases hs
    refine ⟨h.seen, forall_mem_append.mpr ⟨h.calls, forall_mem_singleton.mpr rfl⟩, h.current.imp_left ?_⟩
    exact fun ⟨k, hk, hpublishes⟩ => ⟨k, mem_append_left _ hk, hpublishes⟩
  | advance i =>
    obtain ⟨k, hi, rfl⟩ := Option.map_eq_some_iff.mp hs
    exact h.advance hi
  | drop i =>
    unfold step at hs
    dsimp only at hs
    split_ifs at hs
    cases hs
    exact ⟨fun s hs => h.seen s (mem_of_mem_eraseIdx hs), h.calls,
      h.current.imp_right fun hcurrent s hs => hcurrent s (mem_of_mem_eraseIdx hs)⟩

end

/-- When no call is in progress, every live subscriber has the encoding of the retained value, as its
receiver's value and as the last it was told. -/
theorem projection_converges {T J : Type} (encode : T → Option J) (null : J) (initial : T) (c : Channel T J)
    (h : Run (step encode null) Alone (registerStateChannel null initial) c) (hidle : c.calls = []) :
    Current encode null c := by
  have horderly := h.invariant (I := Orderly encode null) (fun _ _ _ => orderly_step) (orderly_register initial)
  refine horderly.current.resolve_left fun ⟨k, hk, _⟩ => ?_
  rw [hidle] at hk
  cases hk

namespace Sample

def start : Channel Nat (Option Nat) := registerStateChannel none 0

def encodeNumber (n : Nat) : Option (Option Nat) := some (some n)

def run (inputs : List (Input Nat)) : Option (Channel Nat (Option Nat)) := inputs.foldlM (step encodeNumber none) start

abbrev Serial (c : Channel Nat (Option Nat)) : Prop := Run (step encodeNumber none) Alone start c

theorem Serial.advance {c c' : Channel Nat (Option Nat)} (h : Serial c) (i : Nat)
    (hs : step encodeNumber none c (.advance i) = some c') : Serial c' :=
  h.tail (show Alone c (.advance i) from trivial) hs

theorem joined : Serial { retained := 0, json := some 0, version := 1, subscribers := [⟨some 0, 1⟩], calls := [] } := by
  have hbegun : Serial { retained := 0, json := none, version := 0, subscribers := [], calls := [.seeding (some 0)] } :=
    (Run.refl start).tail (i := .subscribe) trivial rfl
  exact (hbegun.advance 0 rfl).advance 0 rfl

/-- A publication after a subscription. -/
theorem published_in_turn : Current encodeNumber none (T := Nat)
      { retained := 1, json := some 1, version := 2, subscribers := [⟨some 0, 1⟩], calls := [] } := by
  have hpublished : Serial
      { retained := 1, json := some 0, version := 1, subscribers := [⟨some 0, 1⟩], calls := [.observing] } := by
    refine joined.tail (i := .publish 1) ?_ rfl
    rfl
  exact projection_converges encodeNumber none 0 _ (((hpublished.advance 0 rfl).advance 0 rfl).advance 0 rfl) rfl

/-- The publisher of 1 has encoded when 2 is published, and writes its JSON last. -/
theorem overtaken :
    ∃ c, Run (step encodeNumber none) (fun _ _ => True) start c ∧ c.calls = [] ∧ ¬ Current encodeNumber none c := by
  have hrun : run [.subscribe, .advance 0, .advance 0, .publish 1, .advance 0, .advance 0, .publish 2, .advance 1,
      .advance 1, .advance 1, .advance 0] =
      some { retained := 2, json := some 1, version := 3, subscribers := [⟨some 0, 1⟩], calls := [] } := by decide
  refine ⟨_, Run.of_foldlM hrun fun _ _ => trivial, rfl, ?_⟩
  intro hcurrent
  cases (hcurrent _ (mem_singleton_self _)).1

/-- 1 is published while the subscription has encoded 0 and is not counted yet. -/
theorem unnoticed :
    ∃ c, Run (step encodeNumber none) (fun _ _ => True) start c ∧ c.calls = [] ∧ ¬ Current encodeNumber none c := by
  have hrun : run [.subscribe, .advance 0, .publish 1, .advance 1, .advance 0] =
      some { retained := 1, json := some 0, version := 1, subscribers := [⟨some 0, 1⟩], calls := [] } := by decide
  refine ⟨_, Run.of_foldlM hrun fun _ _ => trivial, rfl, ?_⟩
  intro hcurrent
  cases (hcurrent _ (mem_singleton_self _)).1

end Sample
end Bmux.StateChannel
