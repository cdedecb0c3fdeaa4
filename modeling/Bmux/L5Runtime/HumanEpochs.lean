import Bmux.L5Runtime.HumanInput

/-!
# What holds of human input epochs

`Epochs` is the invariant of `step`: the writes of an epoch are numbered from 1, an epoch that is over
is closed or its lock poisoned, and what a caller found or holds is as it left it. A step of a caller
on an entry is checked by `Epochs.update`, which asks that no other caller holds it; one lemma per
function of the model. `epochs_sound` collects what callers rely on.
-/
namespace Bmux.HumanInput
open Std (ExtTreeMap)
open List Option StreamState State Entry Function
open StreamState (ackOf)

/-! ## The invariant -/

/-- The writes of an epoch are numbered from 1, up to the next sequence while it is open and free, and
what it retains was written and acknowledged. -/
structure EntryOk (history : List Event) (i : Nat) (e : Entry) : Prop where
  numbered : (writes i history).map Push.sequence = List.range' 1 (writes i history).length
  settled : ¬e.Dead → e.holder = none → (writes i history).length + 1 = e.state.nextSequence
  retained : ∀ o ∈ e.state.retained, o.ack = ackOf (o.request e.state.stream) ∧
    o.request e.state.stream ∈ writes i history ∧ .acked i (o.request e.state.stream) o.ack ∈ history
  window : e.state.retained.length ≤ dedupWindow

def CallOk (entries : List Entry) (history : List Event) (t : Nat) : Call → Prop
  | .pushFound r i => ∃ e, entries[i]? = some e ∧ e.state.stream.streamId = r.stream.streamId
  | .closeFound stream i => ∃ e, entries[i]? = some e ∧ e.state.stream.streamId = stream.streamId
  | .staleFound stream _ i => ∃ e, entries[i]? = some e ∧ e.state.stream.streamId = stream.streamId
  | .writing r i => ∃ e, entries[i]? = some e ∧ e.holder = some t ∧ ¬e.Dead ∧ e.state.stream = r.stream ∧
      r.sequence = e.state.nextSequence ∧ (writes i history).length = e.state.nextSequence ∧ r ∈ writes i history
  | .removing id i _ => ∃ e, entries[i]? = some e ∧ e.holder = some t ∧ e.Dead ∧ e.state.stream.streamId = id
  | _ => True

structure Epochs (s : State) : Prop where
  entries : ∀ i e, s.entries[i]? = some e → EntryOk s.history i e
  calls : ∀ t, CallOk s.entries s.history t (s.calls t)
  /-- an epoch that is over is dead -/
  ended : ∀ ev ∈ s.history, ∀ i, ev.ends = some i → ∃ e, s.entries[i]? = some e ∧ e.Dead
  /-- nothing is written after that -/
  silent : s.history.Pairwise fun a b => ∀ i, a.ends = some i → b.target ≠ some i
  /-- writes and acknowledgements are those of known epochs -/
  acked : ∀ i r ack, .acked i r ack ∈ s.history → ack = ackOf r ∧ r ∈ writes i s.history
  known : ∀ i r, r ∈ writes i s.history → ∃ e, s.entries[i]? = some e ∧ e.state.stream = r.stream

variable {entries : List Entry} {history : List Event} {new : Option Event} {i t : Nat} {e e' : Entry} {call : Call}

theorem set_self (hi : entries[i]? = some e) : (entries.set i e')[i]? = some e' :=
  getElem?_set_self (List.getElem?_eq_some_iff.mp hi).1

/-- No entry goes away, and entries only die. -/
def Kept (entries entries' : List Entry) : Prop := ∀ (j : Nat) (x : Entry), entries[j]? = some x →
  ∃ x', entries'[j]? = some x' ∧ x'.state.stream = x.state.stream ∧ (x.Dead → x'.Dead)

theorem Kept.refl (entries : List Entry) : Kept entries entries := fun _ x hx => ⟨x, hx, rfl, id⟩

/-- A call goes on as before if what it holds and has written is the same. -/
theorem CallOk.frame {entries' : List Entry} {history' : List Event} (h : CallOk entries history t call)
    (hkept : Kept entries entries')
    (hheld : ∀ (j : Nat) (x : Entry), entries[j]? = some x → x.holder = some t →
      entries'[j]? = some x ∧ writes j history' = writes j history) : CallOk entries' history' t call := by
  have hfound : ∀ {j : Nat} {id : Uuid}, (∃ x, entries[j]? = some x ∧ x.state.stream.streamId = id) →
      ∃ x, entries'[j]? = some x ∧ x.state.stream.streamId = id := by
    rintro j id ⟨x, hx, hid⟩
    obtain ⟨x', hx', hstream, -⟩ := hkept j x hx
    exact ⟨x', hx', hstream ▸ hid⟩
  cases call with
  | pushFound | closeFound | staleFound => exact hfound h
  | writing r j =>
    obtain ⟨x, hx, hholder, halive, hsame, hseq, hlen, hmem⟩ := h
    obtain ⟨hx', hwrites⟩ := hheld j x hx hholder
    exact ⟨x, hx', hholder, halive, hsame, hseq, by rw [hwrites]; exact hlen, by rw [hwrites]; exact hmem⟩
  | removing id j a =>
    obtain ⟨x, hx, hholder, hdead, hid⟩ := h
    exact ⟨x, (hheld j x hx hholder).1, hholder, hdead, hid⟩
  | _ => trivial

def EventOk (history : List Event) (i : Nat) (e e' : Entry) : Event → Prop
  | .wrote j r => j = i ∧ ¬e.Dead ∧ e.state.stream = r.stream
  | .failed j | .panicked j | .closed j | .expired j | .invalidated j => j = i ∧ e'.Dead
  | .acked j r ack => j = i ∧ ack = ackOf r ∧ r ∈ writes i history
  | .opened _ | .answered _ _ => True

variable {ev : Event}

theorem EventOk.target {j : Nat} (h : EventOk history i e e' ev)
    (hj : ev.target = some j) : j = i ∧ ¬e.Dead := by
  cases ev with
  | wrote k r => cases hj; exact ⟨h.1, h.2.1⟩
  | _ => cases hj

theorem eventOk_of_ends {j : Nat} (hj : ev.ends = some j) : EventOk history i e e' ev ↔ j = i ∧ e'.Dead := by
  cases ev with
  | failed | panicked | closed | expired | invalidated => cases hj; exact Iff.rfl
  | _ => cases hj

theorem mem_new (h : ev ∈ history ++ new.toList) :
    ev ∈ history ∨ ev ∈ new := by
  rw [mem_append, mem_toList] at h
  exact h

theorem new_some {P : Event → Prop} (h : P ev) : ∀ x ∈ some ev, P x := by
  intro x hx
  cases hx
  exact h

variable {r : Push}

theorem mem_writes (h : r ∈ writes i history) : .wrote i r ∈ history := by
  obtain ⟨ev, hev, hfor⟩ := mem_filterMap.mp h
  cases ev with
  | wrote j r' =>
    rw [Event.writeFor] at hfor
    split at hfor
    · rename_i heq
      cases hfor
      exact heq ▸ hev
    · cases hfor
  | _ => cases hfor

theorem writes_mono (new : Option Event) (h : r ∈ writes i history) :
    r ∈ writes i (history ++ new.toList) := by
  rw [writes_append]
  exact mem_append_left _ h

theorem writes_subset (h : .wrote i r ∈ history) : r ∈ writes i history :=
  mem_filterMap.mpr ⟨_, h, if_pos rfl⟩

theorem EntryOk.append (h : EntryOk history i e)
    (hnew : ∀ ev ∈ new, ev.target ≠ some i) : EntryOk (history ++ new.toList) i e := by
  have hsame : writes i (history ++ new.toList) = writes i history := writes_new hnew
  refine ⟨by rw [hsame]; exact h.numbered, by rw [hsame]; exact h.settled, ?_, h.window⟩
  intro o ho
  obtain ⟨hack, hwritten, hacked⟩ := h.retained o ho
  exact ⟨hack, writes_mono new hwritten, mem_append_left _ hacked⟩

variable {s s' : State}

theorem of_entry {P : Entry → Prop} (hi : s.entries[i]? = some e) (h : ∃ x, s.entries[i]? = some x ∧ P x) : P e := by
  obtain ⟨x, hx, hP⟩ := h
  rw [hi] at hx
  cases hx
  exact hP

theorem Epochs.callOk (h : Epochs s) (hcall : s.calls t = call) : CallOk s.entries s.history t call := hcall ▸ h.calls t

/-- A step of one caller: the history goes on by an event, entries only die, and those that others hold
and that are not written to stay. -/
theorem Epochs.extend (h : Epochs s) (hkept : Kept s.entries entries)
    (hheld : ∀ t' ≠ t, ∀ (j : Nat) (x : Entry), s.entries[j]? = some x → x.holder = some t' →
      entries[j]? = some x ∧ ∀ ev ∈ new, ev.target ≠ some j)
    (hends : ∀ ev ∈ new, ∀ j, ev.ends = some j → ∃ x, entries[j]? = some x ∧ x.Dead)
    (hwrites : ∀ j r, .wrote j r ∈ new →
      (∀ x, s.entries[j]? = some x → ¬x.Dead) ∧ ∃ x, entries[j]? = some x ∧ x.state.stream = r.stream)
    (hacks : ∀ j r ack, .acked j r ack ∈ new → ack = ackOf r ∧ r ∈ writes j s.history)
    (hentries : ∀ (j : Nat) (x : Entry), entries[j]? = some x →
      (s.entries[j]? = some x ∧ ∀ ev ∈ new, ev.target ≠ some j) ∨ EntryOk (s.history ++ new.toList) j x)
    (hcall : CallOk entries (s.history ++ new.toList) t call) :
    Epochs (goto { s with entries } t call new) := by
  refine ⟨?_, ?_, ?_, ?_, ?_, ?_⟩
  · intro j x hx
    rcases hentries j x hx with ⟨hold, hquiet⟩ | hok
    · exact (h.entries j x hold).append hquiet
    · exact hok
  · intro t'
    by_cases ht : t' = t
    · subst ht
      show CallOk entries _ t' (update s.calls t' call t')
      rw [update_self]
      exact hcall
    · show CallOk entries _ t' (update s.calls t call t')
      rw [update_of_ne ht]
      refine (h.calls t').frame hkept fun j x hx hholder => ?_
      obtain ⟨hx', hquiet⟩ := hheld t' ht j x hx hholder
      exact ⟨hx', writes_new hquiet⟩
  · intro ev hev j hj
    rcases mem_new hev with hev | hev
    · obtain ⟨x, hx, hgone⟩ := h.ended ev hev j hj
      obtain ⟨x', hx', -, hmono⟩ := hkept j x hx
      exact ⟨x', hx', hmono hgone⟩
    · exact hends ev hev j hj
  · refine pairwise_append.mpr ⟨h.silent, ?_, ?_⟩
    · cases new with
      | none => exact .nil
      | some ev => exact pairwise_singleton _ _
    · intro a ha b hb j hj heq
      -- a write is for an entry that is not dead
      cases b with
      | wrote k r =>
        cases heq
        obtain ⟨x, hx, hgone⟩ := h.ended a ha j hj
        exact (hwrites j r (mem_toList.mp hb)).1 x hx hgone
      | _ => cases heq
  · intro j r ack hmem
    rcases mem_new hmem with hmem | hmem
    · obtain ⟨hack, hwritten⟩ := h.acked j r ack hmem
      exact ⟨hack, writes_mono new hwritten⟩
    · obtain ⟨hack, hwritten⟩ := hacks j r ack hmem
      exact ⟨hack, writes_mono new hwritten⟩
  · intro j r hmem
    rcases mem_new (mem_writes hmem) with hold | hold
    · obtain ⟨x, hx, hsame⟩ := h.known j r (writes_subset hold)
      obtain ⟨x', hx', hstream, -⟩ := hkept j x hx
      exact ⟨x', hx', hstream.trans hsame⟩
    · exact (hwrites j r hold).2

theorem kept_set (hi : s.entries[i]? = some e) (hstream : e'.state.stream = e.state.stream) (hdead : e.Dead → e'.Dead) :
    Kept s.entries (s.entries.set i e') := by
  intro j x hx
  by_cases hj : j = i
  · subst hj
    rw [hi] at hx
    cases hx
    exact ⟨e', set_self hi, hstream, hdead⟩
  · exact ⟨x, (getElem?_set_ne (Ne.symm hj)).trans hx, rfl, id⟩

/-- A step of one caller on one entry, which no other caller holds. -/
theorem Epochs.update (h : Epochs s)
    (hi : s.entries[i]? = some e) (hfree : ∀ t', t' ≠ t → e.holder ≠ some t')
    (hstream : e'.state.stream = e.state.stream)
    (hdead : e.Dead → e'.Dead) (hnew : ∀ ev ∈ new, EventOk s.history i e e' ev)
    (hentry : EntryOk (s.history ++ new.toList) i e')
    (hcall : CallOk (s.entries.set i e') (s.history ++ new.toList) t call) :
    Epochs ((s.setEntry i e').goto t call new) := by
  have hset : (s.entries.set i e')[i]? = some e' := set_self hi
  -- another entry is as it was
  have hother : ∀ {j : Nat}, j ≠ i → (s.entries.set i e')[j]? = s.entries[j]? ∧ ∀ ev ∈ new, ev.target ≠ some j :=
    fun hj => ⟨getElem?_set_ne (Ne.symm hj), fun ev hev heq => hj ((hnew ev hev).target heq).1⟩
  refine h.extend (kept_set hi hstream hdead) ?_ ?_ ?_ ?_ ?_ hcall
  · intro t' ht j x hx hholder
    have hj : j ≠ i := fun hj => hfree t' ht (of_entry (P := (·.holder = some t')) hi ⟨x, hj ▸ hx, hholder⟩)
    exact ⟨(hother hj).1.trans hx, (hother hj).2⟩
  · intro ev hev j hj
    obtain ⟨rfl, hgone⟩ := (eventOk_of_ends hj).mp (hnew ev hev)
    exact ⟨e', hset, hgone⟩
  · intro j r hev
    obtain ⟨rfl, halive, hsame⟩ := hnew _ hev
    exact ⟨fun x hx => of_entry (P := (¬·.Dead)) hx ⟨e, hi, halive⟩, e', hset, hstream.trans hsame⟩
  · intro j r ack hev
    obtain ⟨rfl, hack, hwritten⟩ := hnew _ hev
    exact ⟨hack, hwritten⟩
  · intro j x hx
    by_cases hj : j = i
    · subst hj
      cases hset.symm.trans hx
      exact .inr hentry
    · exact .inl ⟨(hother hj).1.symm.trans hx, (hother hj).2⟩

theorem Epochs.goto (h : Epochs s)
    (hnew : ∀ ev ∈ new, ∃ a, ev = .answered t a) (hcall : CallOk s.entries s.history t call) :
      Epochs (s.goto t call new) := by
  have hquiet : ∀ j, ∀ ev ∈ new, ev.target ≠ some j := by
    intro j ev hev
    obtain ⟨a, rfl⟩ := hnew ev hev
    exact nofun
  refine h.extend (.refl _) (fun _ _ j x hx _ => ⟨hx, hquiet j⟩) ?_ ?_ ?_ (fun j x hx => .inl ⟨hx, hquiet j⟩) ?_
  · intro ev hev j hj
    obtain ⟨a, rfl⟩ := hnew ev hev
    cases hj
  · intro j r hev
    obtain ⟨a, heq⟩ := hnew _ hev
    cases heq
  · intro j r ack hev
    obtain ⟨a, heq⟩ := hnew _ hev
    cases heq
  · exact hcall.frame (.refl _) fun j x hx _ => ⟨hx, writes_new (hquiet j)⟩

theorem Epochs.answer (h : Epochs s) (t : Nat) (a : Answer) : Epochs (s.answer t a) := by
  refine h.goto ?_ trivial
  exact new_some ⟨a, rfl⟩

/-! ## The registry -/

/-- No entry is added; what is dropped from the registry is dead. -/
structure Narrows (s s' : State) : Prop where
  kept : ∀ (j : Nat) (x : Entry), s.entries[j]? = some x →
    ∃ x', s'.entries[j]? = some x' ∧ x'.state.stream = x.state.stream ∧ (x.Dead → x'.Dead)
  length : s'.entries.length = s.entries.length
  streams : s'.streams = s.streams ∨
    ∃ (i : Nat) (x : Entry), s'.entries[i]? = some x ∧ x.Dead ∧ s'.streams = s.streams.erase x.state.stream.streamId

def Advances (s s' : State) : Prop := Epochs s' ∧ Narrows s s'

/-- Ids lead to entries with that id, and there is room for them. -/
structure Registered (s : State) : Prop where
  named : ∀ (id : Uuid) (i : Nat), s.streams[id]? = some i → ∃ e, s.entries[i]? = some e ∧ e.state.stream.streamId = id
  capacity : s.streams.size ≤ maxActiveStreams

/-- Epochs have ids of their own, and one that is not over is registered. -/
structure Live (s : State) : Prop where
  unique : ∀ (i j : Nat) (e e' : Entry), s.entries[i]? = some e → s.entries[j]? = some e' →
    e.state.stream.streamId = e'.state.stream.streamId → i = j
  registered : ∀ (i : Nat) (e : Entry), s.entries[i]? = some e → ¬e.Dead → s.streams[e.state.stream.streamId]? = some i

section Registry

variable {s s' : State} {t i : Nat} {e e' : Entry} {call : Call} {new : Option Event}

theorem Narrows.goto : Narrows s (s.goto t call new) := ⟨Kept.refl _, rfl, .inl rfl⟩

theorem Narrows.update (hi : s.entries[i]? = some e) (hstream : e'.state.stream = e.state.stream)
    (hdead : e.Dead → e'.Dead) :
    Narrows s ((s.setEntry i e').goto t call new) :=
  ⟨kept_set hi hstream hdead, length_set, .inl rfl⟩

/-- A dead entry is dropped from the registry. -/
theorem Narrows.erase (e' : Entry) (hi : s.entries[i]? = some e) (hstream : e'.state.stream = e.state.stream)
    (hdead : e'.Dead) {id : Uuid}
    (hid : e.state.stream.streamId = id) :
    Narrows s (({ s with streams := s.streams.erase id }.setEntry i e').goto t call new) := by
  refine ⟨kept_set hi hstream fun _ => hdead, length_set, .inr ⟨i, e', ?_, hdead, ?_⟩⟩
  · exact set_self hi
  · rw [hstream, hid]
    rfl

theorem Registered.narrow (h : Registered s) (hn : Narrows s s') : Registered s' := by
  have hsub : ∀ (id : Uuid) (i : Nat), s'.streams[id]? = some i → s.streams[id]? = some i := by
    intro id i hid
    rcases hn.streams with heq | ⟨_, _, -, -, heq⟩
    · rwa [heq] at hid
    · rw [heq, TreeMap.getElem?_erase] at hid
      split at hid
      · cases hid
      · exact hid
  refine ⟨?_, ?_⟩
  · intro id i hid
    obtain ⟨e, he, hname⟩ := h.named id i (hsub id i hid)
    obtain ⟨e', he', hstream, -⟩ := hn.kept i e he
    exact ⟨e', he', hstream ▸ hname⟩
  · rcases hn.streams with heq | ⟨_, _, -, -, heq⟩
    · rw [heq]
      exact h.capacity
    · rw [heq]
      exact le_trans ExtTreeMap.size_erase_le h.capacity

theorem Live.narrow (h : Live s) (hn : Narrows s s') : Live s' := by
  -- no entry is new
  have hback : ∀ (j : Nat) (x' : Entry), s'.entries[j]? = some x' →
      ∃ x, s.entries[j]? = some x ∧ x'.state.stream = x.state.stream ∧ (x.Dead → x'.Dead) := by
    intro j x' hx'
    have hj : j < s.entries.length := hn.length ▸ (List.getElem?_eq_some_iff.mp hx').1
    obtain ⟨x'', hx'', hstream, hdead⟩ := hn.kept j s.entries[j] (getElem?_eq_getElem hj)
    rw [hx'] at hx''
    cases hx''
    exact ⟨s.entries[j], getElem?_eq_getElem hj, hstream, hdead⟩
  have hunique : ∀ (i j : Nat) (e e' : Entry), s'.entries[i]? = some e → s'.entries[j]? = some e' →
      e.state.stream.streamId = e'.state.stream.streamId → i = j := by
    intro i j e e' hi hj hsame
    obtain ⟨x, hx, hstream, -⟩ := hback i e hi
    obtain ⟨y, hy, hstream', -⟩ := hback j e' hj
    exact h.unique i j x y hx hy (by rw [← hstream, ← hstream', hsame])
  refine ⟨hunique, ?_⟩
  intro i e hi halive
  obtain ⟨x, hx, hstream, hdead⟩ := hback i e hi
  have hold := h.registered i x hx fun hgone => halive (hdead hgone)
  rw [← hstream] at hold
  rcases hn.streams with heq | ⟨j, y, hy, hgone, heq⟩
  · rw [heq]
    exact hold
  · rw [heq, TreeMap.getElem?_erase, if_neg]
    · exact hold
    · intro hsame
      have hij := hunique j i y e hy hi hsame
      subst hij
      rw [hi] at hy
      cases hy
      exact halive hgone

end Registry

/-! ## Steps -/

section Steps

variable {s : State} {t i : Nat} {e : Entry}

/-- No one holds an entry whose lock can be had. -/
theorem free_of_tryLock (h : e.tryLock ≠ .wouldBlock) : e.holder = none := by
  unfold tryLock at h
  cases hh : e.holder with
  | none => rfl
  | some t => simp [hh] at h

theorem poisoned_of_tryLock (h : e.tryLock = .poisoned) : e.Dead := by
  unfold tryLock at h
  cases hp : e.poisoned with
  | true => exact .inr hp
  | false =>
    rw [hp] at h
    split at h <;> cases h

theorem sound_of_tryLock (h : e.tryLock = .ok) : e.poisoned = false := by
  cases hp : e.poisoned with
  | false => rfl
  | true =>
    unfold tryLock at h
    split at h <;> cases h

theorem not_held {holder : Option Nat} (h : holder = none) (t' : Nat) : holder ≠ some t' := by
  rw [h]
  exact nofun

theorem held_alone {holder : Option Nat} (h : holder = some t) (t' : Nat) (hne : t' ≠ t) : holder ≠ some t' := by
  rw [h]
  intro heq
  exact hne (some.inj heq).symm

variable {history : List Event} {e' : Entry} {new : Option Event}

def SameWrites (old new : StreamState) : Prop :=
  new.stream = old.stream ∧ new.retained = old.retained ∧ new.nextSequence = old.nextSequence

/-- An entry that was free and is kept free, or dies. -/
theorem EntryOk.change (h : EntryOk history i e)
    (hnew : ∀ ev ∈ new, ev.target ≠ some i) (hsame : SameWrites e.state e'.state)
    (hsettled : ¬e'.Dead → e'.holder = none → ¬e.Dead ∧ e.holder = none) : EntryOk (history ++ new.toList) i e' := by
  obtain ⟨hstream, hretained, hnext⟩ := hsame
  have happended := h.append hnew
  refine ⟨happended.numbered, ?_, ?_, ?_⟩
  · intro halive hfree
    rw [hnext]
    exact happended.settled (hsettled halive hfree).1 (hsettled halive hfree).2
  · rw [hretained, hstream]
    exact happended.retained
  · rw [hretained]
    exact happended.window

theorem target_of_ends {ev : Event} {i : Nat} (h : ev.ends = some i) : ev.target = none := by
  cases ev with
  | wrote j r => cases h
  | _ => rfl

/-! What `examine` returns -/

section Examine

variable {state : StreamState} {now : Nat} {r : Push}

theorem validate_ok (h : state.validate r.stream = .ok ()) : state.stream.execution = r.stream.execution ∧
    state.closed = false := by
  unfold validate at h
  split at h
  · cases h
  · rename_i hexecution
    split at h
    · cases h
    · rename_i hclosed
      exact ⟨not_not.mp hexecution, by simpa using hclosed⟩

theorem examine_fields (state : StreamState) (now : Nat) (r : Push) : SameWrites state (state.examine now r).1 := by
  unfold examine
  split
  · exact ⟨rfl, rfl, rfl⟩
  · split <;> exact ⟨rfl, rfl, rfl⟩

theorem examine_expire (h : (state.examine now r).2 = .expire) : (state.examine now r).1.closed = true := by
  unfold examine at h ⊢
  split at h
  · cases h
  · split at h
    · rename_i hexpired
      simp only [hexpired, if_true]
    · split at h
      · split at h <;> cases h
      · split at h <;> cases h

theorem examine_open (h : (state.examine now r).2 ≠ .expire) : (state.examine now r).1.closed = state.closed := by
  unfold examine at h ⊢
  split at h
  · rfl
  · split at h
    · exact absurd rfl h
    · rename_i hexpired
      simp [hexpired]

theorem examine_retained (hvalid : state.validate r.stream = .ok ()) (hexpired : ¬state.expired now) :
    (state.examine now r).2 =
      match state.retained.find? fun item => item.sequence = r.sequence with
      | some retained =>
        if retained.data = r.data then .replay retained.ack
        else .refuse (.conflict "sequence reused with different payload")
      | none =>
        if r.sequence ≠ state.nextSequence ∨ r.sequence = 2 ^ 64 - 1 then
          .refuse (.sequence ("expected sequence " ++ toString state.nextSequence ++
            "; old evicted outcomes cannot be replayed"))
        else .fresh := by
  unfold examine
  rw [hvalid]
  exact congrArg Prod.snd (if_neg hexpired)

theorem examine_admits (h : (state.examine now r).2 = .fresh ∨ ∃ ack, (state.examine now r).2 = .replay ack) :
    state.validate r.stream = .ok () ∧ ¬state.expired now := by
  unfold examine at h
  split at h
  · rcases h with h | ⟨ack, h⟩ <;> cases h
  · rename_i hvalid
    split at h
    · rcases h with h | ⟨ack, h⟩ <;> cases h
    · rename_i hexpired
      exact ⟨hvalid, hexpired⟩

/-- What is neither refused nor expired was open. -/
theorem examine_valid (h : (state.examine now r).2 = .fresh ∨ ∃ ack, (state.examine now r).2 = .replay ack) :
    state.stream.execution = r.stream.execution ∧ state.closed = false :=
  validate_ok (examine_admits h).1

theorem examine_replay {ack : HumanInputAck} (h : (state.examine now r).2 = .replay ack) :
    ∃ o ∈ state.retained, o.sequence = r.sequence ∧ o.data = r.data ∧ o.ack = ack := by
  obtain ⟨hvalid, hexpired⟩ := examine_admits (.inr ⟨ack, h⟩)
  rw [examine_retained hvalid hexpired] at h
  split at h
  · rename_i o hfind
    split at h
    · rename_i hdata
      cases h
      exact ⟨o, mem_of_find?_eq_some hfind, by simpa using find?_some hfind, hdata, rfl⟩
    · cases h
  · split at h <;> cases h

theorem examine_fresh (h : (state.examine now r).2 = .fresh) : r.sequence = state.nextSequence := by
  obtain ⟨hvalid, hexpired⟩ := examine_admits (.inl h)
  rw [examine_retained hvalid hexpired] at h
  split at h
  · split at h <;> cases h
  · split at h
    · cases h
    · omega

end Examine

theorem stream_eq {a b : HumanInputStream} (hexecution : a.execution = b.execution) (hid : a.streamId = b.streamId) :
    a = b := by
  cases a
  cases b
  cases hexecution
  cases hid
  rfl

theorem commit_retained (state : StreamState) (r : Push) {o : RetainedOutcome} (ho : o ∈ (state.commit r).retained) :
    o ∈ state.retained ∨ o = { sequence := r.sequence, data := r.data, ack := ackOf r } := by
  rcases mem_append.mp ho with ho | ho
  · left
    split at ho
    · exact mem_of_mem_drop ho
    · exact ho
  · exact .inr (mem_singleton.mp ho)

theorem commit_window {state : StreamState} (r : Push) (h : state.retained.length ≤ dedupWindow) :
    (state.commit r).retained.length ≤ dedupWindow := by
  unfold commit
  rw [length_append, length_singleton]
  split
  · have hpositive : 1 ≤ dedupWindow := by decide
    rw [length_drop]
    omega
  · omega

variable {r : Push}

theorem EntryOk.examined {now : Nat} (h : EntryOk history i e)
    (hfree : e.holder = none) (hopen : (e.state.examine now r).2 ≠ .expire) (hnew : ∀ ev ∈ new, ev.target ≠ some i) :
    EntryOk (history ++ new.toList) i { e with state := (e.state.examine now r).1 } := by
  refine h.change hnew (examine_fields e.state now r) fun halive _ => ⟨?_, hfree⟩
  unfold Dead at halive ⊢
  rwa [examine_open hopen] at halive

theorem alive_of_admitted {now : Nat} (hlock : e.tryLock = .ok)
    (h : (e.state.examine now r).2 = .fresh ∨ ∃ ack, (e.state.examine now r).2 = .replay ack) : ¬e.Dead := by
  have hclosed := (examine_valid h).2
  have hsound := sound_of_tryLock hlock
  unfold Dead
  rw [hclosed, hsound]
  decide

section
variable (h : Epochs s)
include h

theorem Epochs.registry (streams : ExtTreeMap Uuid Nat compare) (registry : Option Nat) :
    Epochs { s with streams, registry } := { h with }

/-- A new entry: nothing has been written for it. -/
theorem epochs_insert (streams : ExtTreeMap Uuid Nat compare) (registry : Option Nat) {state : StreamState}
    (hnext : state.nextSequence = 1) (hretained : state.retained = []) :
    Epochs (goto { s with streams, registry, entries := s.entries ++ [{ state, holder := none, poisoned := false }] } t
      .idle (some (.opened s.entries.length))) := by
  have hkept : ∀ (j : Nat) (x : Entry), s.entries[j]? = some x →
      (s.entries ++ [{ state, holder := none, poisoned := false }])[j]? = some x := by
    intro j x hx
    rw [getElem?_append_left (List.getElem?_eq_some_iff.mp hx).1]
    exact hx
  have hquiet : ∀ j, ∀ ev ∈ some (Event.opened s.entries.length), ev.target ≠ some j := fun j => new_some nofun
  refine (h.registry streams registry).extend (fun j x hx => ⟨x, hkept j x hx, rfl, id⟩)
    (fun _ _ j x hx _ => ⟨hkept j x hx, hquiet j⟩) ?_ nofun nofun ?_ trivial
  · intro ev hev j hj
    cases hev
    cases hj
  · intro j x hx
    rcases lt_or_ge j s.entries.length with hj | hj
    · rw [getElem?_append_left hj] at hx
      exact .inl ⟨hx, hquiet j⟩
    · -- no event is for an entry that is not there yet
      have hwrites : writes j (s.history ++ (some (Event.opened s.entries.length)).toList) = [] := by
        rw [writes_new (hquiet j), eq_nil_iff_forall_not_mem]
        intro r hr
        obtain ⟨y, hy, -⟩ := h.known j r hr
        exact lt_irrefl _ (lt_of_lt_of_le (List.getElem?_eq_some_iff.mp hy).1 hj)
      rw [getElem?_append_right hj] at hx
      cases mem_singleton.mp (mem_of_getElem? hx)
      refine .inr ⟨by rw [hwrites]; rfl, ?_, ?_, ?_⟩
      · intro _ _
        rw [hwrites, hnext]
        rfl
      · rw [hretained]
        exact nofun
      · simp [hretained]

variable {id : Uuid} {a : Answer} (hi : s.entries[i]? = some e)
include hi

/-- A caller ends an epoch, or finds that it is over. -/
theorem Epochs.retire (hfree : ∀ t', t' ≠ t → e.holder ≠ some t') {call : Call}
    (hnew : ∀ ev ∈ new, ev.ends = some i) (hsame : SameWrites e.state e'.state) (hdead : e'.Dead)
    (hcall : CallOk (s.entries.set i e') (s.history ++ new.toList) t call) :
    Epochs ((s.setEntry i e').goto t call new) := by
  refine h.update hi hfree hsame.1 (fun _ => hdead) (fun ev hev =>
    (eventOk_of_ends (hnew ev hev)).mpr ⟨rfl, hdead⟩) ?_ hcall
  refine (h.entries i e hi).change ?_ hsame fun halive => absurd hdead halive
  intro ev hev
  rw [target_of_ends (hnew ev hev)]
  exact nofun

theorem Epochs.take (hfree : ∀ t', t' ≠ t → e.holder ≠ some t')
    (hnew : ∀ ev ∈ new, ev.ends = some i) (hsame : SameWrites e.state e'.state) (hdead : e'.Dead)
    (hholder : e'.holder = some t)
    (hid : e.state.stream.streamId = id) : Advances s ((s.setEntry i e').goto t (.removing id i a) new) := by
  refine ⟨h.retire hi hfree hnew hsame hdead ?_, .update hi hsame.1 fun _ => hdead⟩
  exact ⟨e', set_self hi, hholder, hdead, hsame.1 ▸ hid⟩

theorem Epochs.take_poisoned (hlock : e.tryLock = .poisoned)
    (hid : e.state.stream.streamId = id) :
    Advances s ((s.setEntry i { e with holder := some t }).goto t (.removing id i a) none) := by
  have hfree := free_of_tryLock (e := e) (by simp [hlock])
  have hdead := poisoned_of_tryLock hlock
  exact h.take hi (fun t' _ => not_held hfree t') nofun ⟨rfl, rfl, rfl⟩ hdead rfl hid

/-- A push at the lock of its entry is refused or replayed, ends the epoch, or begins a write. -/
theorem epochs_lockPush (hcall : s.calls t = .pushFound r i) : Advances s (s.lockPush t r i e) := by
  have hid := of_entry hi (h.callOk hcall)
  obtain ⟨hstream, hretained, hnext⟩ := examine_fields e.state s.now r
  unfold lockPush
  cases hlock : e.tryLock with
  | wouldBlock => exact ⟨h.answer t _, .goto⟩
  | poisoned => exact h.take_poisoned hi hlock hid
  | ok =>
    have hfree := free_of_tryLock (e := e) (by simp [hlock])
    have hothers : ∀ t', t' ≠ t → e.holder ≠ some t' := fun t' _ => not_held hfree t'
    -- an answer that leaves the epoch open
    have hanswer {ev : Event} (hopen : (e.state.examine s.now r).2 ≠ .expire)
        (hev : EventOk s.history i e { e with state := (e.state.examine s.now r).1 } ev)
          (htarget : ev.target ≠ some i) :
        Advances s ((s.setEntry i { e with state := (e.state.examine s.now r).1 }).goto t .idle (some ev)) := by
      have hsame : e.Dead → Dead { e with state := (e.state.examine s.now r).1 } := by
        intro hgone
        unfold Dead at hgone ⊢
        rwa [examine_open hopen]
      refine ⟨h.update hi hothers hstream hsame (new_some hev) ?_ trivial, .update hi hstream hsame⟩
      exact (h.entries i e hi).examined hfree hopen (new_some htarget)
    dsimp only
    cases hv : (e.state.examine s.now r).2 with
    | refuse error => exact hanswer (by rw [hv]; exact nofun) trivial nofun
    | replay ack =>
      obtain ⟨o, ho, hsequence, hdata, hack⟩ := examine_replay hv
      -- the push is the one whose outcome is retained
      have hrequest : o.request e.state.stream = r := by
        have hsame := stream_eq (examine_valid (.inr ⟨ack, hv⟩)).1 hid
        unfold RetainedOutcome.request
        rw [hsame, hsequence, hdata]
      obtain ⟨hackOf, hwritten, -⟩ := (h.entries i e hi).retained o ho
      rw [hrequest] at hackOf hwritten
      exact hanswer (by rw [hv]; exact nofun) ⟨rfl, hack ▸ hackOf, hwritten⟩ nofun
    | expire =>
      refine h.take hi hothers ?_ ⟨hstream, hretained, hnext⟩ (.inl (examine_expire hv)) rfl hid
      exact new_some rfl
    | fresh =>
      have halive := alive_of_admitted hlock (.inl hv)
      have hstream' : e.state.stream = r.stream := stream_eq (examine_valid (.inl hv)).1 hid
      have hold := h.entries i e hi
      have hsettled := hold.settled halive hfree
      have hsequence := examine_fresh hv
      have hwrites : writes i (s.history ++ (some (Event.wrote i r)).toList) = writes i s.history ++ [r] :=
        writes_wrote i s.history r
      have hstill : ¬Dead { e with state := (e.state.examine s.now r).1, holder := some t } := by
        unfold Dead at halive ⊢
        rwa [examine_open (by rw [hv]; exact nofun)]
      refine ⟨?_, .update hi hstream fun hgone => absurd hgone halive⟩
      refine h.update hi hothers hstream (fun hgone => absurd hgone halive) ?_ ?_ ?_
      · exact new_some ⟨rfl, halive, hstream'⟩
      · refine ⟨?_, nofun, ?_, ?_⟩
        · rw [hwrites, map_append, hold.numbered, length_append, length_singleton, range'_1_concat]
          simp only [map_cons, map_nil]
          congr 2
          omega
        · intro o ho
          rw [hretained] at ho
          rw [hstream]
          obtain ⟨hack, hwritten, hacked⟩ := hold.retained o ho
          exact ⟨hack, writes_mono _ hwritten, mem_append_left _ hacked⟩
        · rw [hretained]
          exact hold.window
      · refine ⟨_, set_self hi, rfl, hstill, hstream.trans hstream', ?_, ?_, ?_⟩
        · rw [hsequence]
          exact hnext.symm
        · rw [hwrites, length_append, length_singleton, hsettled]
          exact hnext.symm
        · rw [hwrites]
          simp

variable {stream : HumanInputStream}

theorem epochs_lockClose (hcall : s.calls t = .closeFound stream i) : Advances s (s.lockClose t stream i e) := by
  have hid := of_entry hi (h.callOk hcall)
  unfold lockClose
  cases hlock : e.tryLock with
  | wouldBlock => exact ⟨h.answer t _, .goto⟩
  | poisoned => exact h.take_poisoned hi hlock hid
  | ok =>
    have hfree := free_of_tryLock (e := e) (by simp [hlock])
    cases e.state.validate stream with
    | error error => exact ⟨h.answer t _, .goto⟩
    | ok u =>
      exact h.take hi (fun t' _ => not_held hfree t') (new_some rfl) ⟨rfl, rfl, rfl⟩ (.inl rfl) rfl hid

theorem epochs_lockStale {error : HumanInputError}
    (hcall : s.calls t = .staleFound stream error i) :
    Advances s (s.lockStale t stream error i e) := by
  have hid := of_entry hi (h.callOk hcall)
  unfold lockStale
  split
  · rename_i hlock
    have hfree := free_of_tryLock (e := e) (by rw [hlock.1]; exact nofun)
    refine h.take hi (fun t' _ => not_held hfree t') ?_ ⟨rfl, rfl, rfl⟩ (.inl rfl) rfl hid
    exact new_some rfl
  · exact ⟨h.answer t _, .goto⟩

/-- The end of a write: its outcome is retained, or the epoch is over. -/
theorem epochs_finishWrite (hcall : s.calls t = .writing r i)
    (outcome : WriteOutcome) : Advances s (s.finishWrite t r i e outcome) := by
  obtain ⟨hholder, halive, hstream, hsequence, hlength, hwritten⟩ := of_entry hi (h.callOk hcall)
  have hothers := held_alone hholder
  have hold := h.entries i e hi
  cases outcome with
  | ok =>
    have hquiet : writes i (s.history ++ (some (Event.acked i r (ackOf r))).toList) = writes i s.history := by
      refine writes_new ?_
      exact new_some nofun
    refine ⟨?_, .update hi rfl fun hgone => absurd hgone halive⟩
    refine h.update hi hothers rfl (fun hgone => absurd hgone halive) ?_ ?_ trivial
    · exact new_some ⟨rfl, rfl, hwritten⟩
    · refine ⟨by rw [hquiet]; exact hold.numbered, ?_, ?_, commit_window r hold.window⟩
      · intro _ _
        rw [hquiet, hlength]
        rfl
      · intro o ho
        rcases commit_retained e.state r ho with ho | rfl
        · obtain ⟨hack, hmem, hacked⟩ := hold.retained o ho
          exact ⟨hack, writes_mono _ hmem, mem_append_left _ hacked⟩
        · have hrequest : RetainedOutcome.request { sequence := r.sequence, data := r.data, ack := ackOf r }
              (e.state.commit r).stream = r := by
            show Push.mk e.state.stream r.sequence r.data = r
            rw [hstream]
          rw [hrequest]
          exact ⟨rfl, writes_mono _ hwritten, mem_append_right _ (mem_singleton_self _)⟩
  | error reason =>
    refine h.take hi hothers ?_ ⟨rfl, rfl, rfl⟩ (.inl rfl) hholder (by rw [hstream])
    exact new_some rfl
  | panic =>
    refine ⟨h.retire hi hothers ?_ ⟨rfl, rfl, rfl⟩ (.inr rfl) trivial, .update hi rfl fun _ => .inr rfl⟩
    exact new_some rfl

theorem epochs_removeEntry (hcall : s.calls t = .removing id i a) : Advances s (s.removeEntry t id i a e) := by
  obtain ⟨hholder, hdead, hid⟩ := of_entry hi (h.callOk hcall)
  have hreleased : Dead { e with holder := none } := hdead
  refine ⟨?_, .erase { e with holder := none } hi rfl hreleased hid⟩
  have hothers := held_alone hholder
  refine (h.registry (s.streams.erase id) s.registry).update hi hothers rfl (fun _ => hreleased) ?_ ?_ trivial
  · exact new_some trivial
  · refine (h.entries i e hi).change ?_ ⟨rfl, rfl, rfl⟩ fun halive => absurd hdead halive
    exact new_some nofun

/-- A scan drops an entry that is over or has expired. -/
theorem epochs_scanEntry (hr : Registered s) {execution : TerminalExecutionRef}
    {pending : List Uuid} (hid : s.streams[id]? = some i) :
    Advances s (s.scanEntry t execution id pending i e) := by
  have hname := of_entry hi (hr.named id i hid)
  -- a dead entry dropped as it is
  have hdrop (hdead : e.Dead) : Advances s ({ s with streams := s.streams.erase id }.goto t
    (.opening execution pending) none) := by
    refine ⟨(h.registry (s.streams.erase id) s.registry).goto nofun trivial, Kept.refl _, rfl, ?_⟩
    exact .inr ⟨i, e, hi, hdead, by rw [hname]; rfl⟩
  unfold scanEntry
  cases hlock : e.tryLock with
  | wouldBlock => exact ⟨h.goto nofun trivial, .goto⟩
  | poisoned => exact hdrop (poisoned_of_tryLock hlock)
  | ok =>
    have hfree := free_of_tryLock (e := e) (by simp [hlock])
    dsimp only
    split
    · refine ⟨?_, .erase { e with state := { e.state with closed := true } } hi rfl (.inl rfl) hname⟩
      refine (h.registry (s.streams.erase id) s.registry).retire hi (fun t' _ => not_held hfree t') ?_ ⟨rfl, rfl,
        rfl⟩ (.inl rfl) trivial
      exact new_some rfl
    · split
      · rename_i hclosed
        exact hdrop (.inl hclosed)
      · exact ⟨h.goto nofun trivial, .goto⟩

end

/-- Everything that holds of reachable states, whatever the ids. -/
structure Sound (s : State) : Prop where
  epochs : Epochs s
  registered : Registered s

theorem Sound.narrow {s' : State} (h : Sound s) (hs : Advances s s') : Sound s' :=
  ⟨hs.1, h.registered.narrow hs.2⟩

theorem sound_lookup (h : Sound s) (id : Uuid) {found : Nat → Call} {missing : HumanInputError}
    (hfound : ∀ (i : Nat) (e : Entry), s.entries[i]? = some e → e.state.stream.streamId = id →
      CallOk s.entries s.history t (found i)) :
    Advances s (s.lookup t id found missing) := by
  unfold State.lookup
  split
  · rename_i i hid
    obtain ⟨e, he, hname⟩ := h.registered.named id i hid
    exact ⟨h.epochs.goto nofun (hfound i e he hname), .goto⟩
  · exact ⟨h.epochs.answer t _, .goto⟩

end Steps

/-- The id of a new epoch was never given out before. -/
def FreshId (s : State) : Input → Prop
  | .insert _ candidate => ∀ e ∈ s.entries, e.state.stream.streamId ≠ candidate
  | _ => True

variable {input : Input}

/-- Every step but the last of `open` narrows. -/
theorem step_narrows (h : Sound s) (hinput : ∀ t candidate, input ≠ .insert t candidate)
    (hs : step s input = some s') : Advances s s' := by
  unfold step at hs
  cases input with
  | tick elapsed =>
    cases hs
    exact ⟨{ h.epochs with }, Kept.refl _, rfl, .inl rfl⟩
  | «open» t execution live =>
    dsimp only at hs
    split at hs
    · cases hs
      exact ⟨h.epochs.answer t _, .goto⟩
    · cases hs
      exact ⟨(h.epochs.registry s.streams (some t)).goto nofun trivial, Kept.refl _, rfl, .inl rfl⟩
    · cases hs
  | scan t =>
    dsimp only at hs
    split at hs
    · obtain ⟨i, hid, hrest⟩ := bind_eq_some_iff.mp hs
      obtain ⟨e, he, heq⟩ := bind_eq_some_iff.mp hrest
      cases heq
      exact epochs_scanEntry h.epochs he h.registered hid
    · cases hs
  | insert t candidate => exact absurd rfl (hinput t candidate)
  | push t r live =>
    dsimp only at hs
    split at hs
    · cases hs
      exact ⟨h.epochs.goto nofun trivial, .goto⟩
    · split at hs
      · cases hs
        exact ⟨h.epochs.answer t _, .goto⟩
      · cases hs
        exact ⟨h.epochs.goto nofun trivial, .goto⟩
    · cases hs
  | close t stream =>
    dsimp only at hs
    split at hs
    · cases hs
      exact ⟨h.epochs.goto nofun trivial, .goto⟩
    · cases hs
  | lookup t =>
    dsimp only at hs
    split at hs
    case h_4 => cases hs
    all_goals
      cases hs
      exact sound_lookup h _ fun i e he hname => ⟨e, he, hname⟩
  | lock t =>
    dsimp only at hs
    split at hs
    · rename_i r i hcall
      obtain ⟨e, he, rfl⟩ := map_eq_some_iff.mp hs
      exact epochs_lockPush h.epochs he hcall
    · rename_i stream i hcall
      obtain ⟨e, he, rfl⟩ := map_eq_some_iff.mp hs
      exact epochs_lockClose h.epochs he hcall
    · rename_i stream error i hcall
      obtain ⟨e, he, rfl⟩ := map_eq_some_iff.mp hs
      exact epochs_lockStale h.epochs he hcall
    · cases hs
  | written t outcome =>
    dsimp only at hs
    split at hs
    · rename_i r i hcall
      obtain ⟨e, he, rfl⟩ := map_eq_some_iff.mp hs
      exact epochs_finishWrite h.epochs he hcall outcome
    · cases hs
  | remove t =>
    dsimp only at hs
    split at hs
    · rename_i id i a hcall _
      obtain ⟨e, he, rfl⟩ := map_eq_some_iff.mp hs
      exact epochs_removeEntry h.epochs he hcall
    · cases hs

/-- The last step of `open` answers that there is no room, or adds an entry. -/
theorem insert_cases {candidate : Uuid} (hs : step s (.insert t candidate) = some s') :
    (∃ a, s' = { s with registry := none }.answer t a) ∨
      ∃ state : StreamState, s.streams.size < maxActiveStreams ∧ candidate ∉ s.streams ∧
        state.nextSequence = 1 ∧ state.retained = [] ∧ state.stream.streamId = candidate ∧
        s' = goto { s with
          streams := s.streams.insert candidate s.entries.length
          registry := none
          entries := s.entries ++ [{ state, holder := none, poisoned := false }] } t .idle
            (some (.opened s.entries.length)) := by
  unfold step at hs
  dsimp only at hs
  split at hs
  · unfold insertEntry at hs
    split at hs
    · cases hs
      exact .inl ⟨_, rfl⟩
    · rename_i hroom
      split at hs
      · cases hs
      · rename_i hnew
        cases hs
        exact .inr ⟨_, Nat.lt_of_not_le hroom, by simpa using hnew, rfl, rfl, rfl, rfl⟩
  · cases hs

/-- Whatever the ids, a step keeps the system sound. -/
theorem sound_step (h : Sound s) (hs : step s input = some s') : Sound s' := by
  cases input with
  | insert t candidate =>
    rcases insert_cases hs with ⟨a, rfl⟩ | ⟨state, hroom, hnew, hnext, hretained, hid, rfl⟩
    · exact ⟨(h.epochs.registry s.streams none).answer t a, { h.registered with }⟩
    · refine ⟨epochs_insert h.epochs _ _ hnext hretained, ?_, ?_⟩
      · intro id i hi
        rcases TreeMap.of_insert hi with ⟨rfl, rfl⟩ | hi
        · exact ⟨_, getElem?_concat_length, hid⟩
        · obtain ⟨e, he, hname⟩ := h.registered.named id i hi
          exact ⟨e, by rw [← he]; exact getElem?_append_left (List.getElem?_eq_some_iff.mp he).1, hname⟩
      · exact le_trans ExtTreeMap.size_insert_le hroom
  | _ => exact h.narrow (step_narrows h (fun _ _ heq => by cases heq) hs)

/-- Epochs keep their own ids as long as a new epoch is given a fresh one. -/
theorem live_step (h : Sound s) (hlive : Live s) (hfresh : FreshId s input)
    (hs : step s input = some s') : Live s' := by
  cases input with
  | insert t candidate =>
    rcases insert_cases hs with ⟨a, rfl⟩ | ⟨state, hroom, hnew, hnext, hretained, hid, rfl⟩
    · exact { hlive with }
    · -- an entry is an old one with an id of its own, or the new one
      have hentry : ∀ {j : Nat} {x : Entry},
          (s.entries ++ [{ state, holder := none, poisoned := false }])[j]? = some x →
          (s.entries[j]? = some x ∧ x.state.stream.streamId ≠ candidate) ∨
            (j = s.entries.length ∧ x.state.stream.streamId = candidate) := by
        intro j x hx
        rcases lt_or_ge j s.entries.length with hj | hj
        · rw [getElem?_append_left hj] at hx
          exact .inl ⟨hx, hfresh x (mem_of_getElem? hx)⟩
        · have hlast := (List.getElem?_eq_some_iff.mp hx).1
          rw [length_append, length_singleton] at hlast
          rw [getElem?_append_right hj] at hx
          cases mem_singleton.mp (mem_of_getElem? hx)
          exact .inr ⟨by omega, hid⟩
      refine ⟨?_, ?_⟩
      · intro i j e e' hi hj hsame
        rcases hentry hi with ⟨hi, hother⟩ | ⟨rfl, hnewest⟩
        · rcases hentry hj with ⟨hj, -⟩ | ⟨-, hnewest⟩
          · exact hlive.unique i j e e' hi hj hsame
          · exact absurd (hsame.trans hnewest) hother
        · rcases hentry hj with ⟨-, hother⟩ | ⟨rfl, -⟩
          · exact absurd (hsame.symm.trans hnewest) hother
          · rfl
      · intro i e hi halive
        change (s.streams.insert candidate s.entries.length)[e.state.stream.streamId]? = some i
        rw [TreeMap.getElem?_insert]
        rcases hentry hi with ⟨hi, hother⟩ | ⟨rfl, hnewest⟩
        · rw [if_neg (Ne.symm hother)]
          exact hlive.registered i e hi halive
        · rw [if_pos hnewest.symm]
  | _ => exact hlive.narrow (step_narrows h (fun _ _ heq => by cases heq) hs).2

theorem sound_initial : Sound initial :=
  ⟨⟨nofun, fun _ => trivial, nofun, .nil, nofun, nofun⟩, by intro id i h; simp [initial] at h,
    by simp [initial, maxActiveStreams]⟩

theorem live_initial : Live initial := ⟨nofun, nofun⟩

/-- Epochs that are not over have ids of their own in the registry. -/
theorem Live.count (h : Live s) : (s.entries.filter fun e => ¬e.Dead).length ≤ s.streams.size := by
  have hnodup : ((s.entries.filter fun e => ¬e.Dead).map fun e => e.state.stream.streamId).Nodup := by
    refine List.Nodup.sublist (filter_sublist.map _) ?_
    rw [nodup_iff_getElem?_ne_getElem?]
    intro i j hij hj heq
    rw [length_map] at hj
    rw [getElem?_map, getElem?_map, getElem?_eq_getElem hj, getElem?_eq_getElem (lt_trans hij hj)] at heq
    have hsame := h.unique i j _ _ (getElem?_eq_getElem (lt_trans hij hj)) (getElem?_eq_getElem hj) (some.inj heq)
    omega
  have hsub : ((s.entries.filter fun e => ¬e.Dead).map fun e => e.state.stream.streamId) ⊆ s.streams.keys := by
    intro id hid
    obtain ⟨e, he, rfl⟩ := mem_map.mp hid
    rw [mem_filter] at he
    obtain ⟨i, hi⟩ := getElem?_of_mem he.1
    have hreg := h.registered i e hi (by simpa using he.2)
    rw [ExtTreeMap.mem_keys, ← ExtTreeMap.isSome_getElem?_iff_mem, hreg]
    rfl
  have hle := (hnodup.subperm hsub).length_le
  rwa [length_map, ExtTreeMap.length_keys] at hle

/-! ## What holds in every reachable state -/

/-- A push of a retained sequence that gets the lock of an open epoch is answered from what is
retained, and nothing is written. -/
def Replays (s : State) : Prop :=
  ∀ (t i : Nat) (r : Push) (e : Entry) (o : RetainedOutcome), s.calls t = .pushFound r i → s.entries[i]? = some e →
    o ∈ e.state.retained → o.sequence = r.sequence → e.tryLock = .ok → e.state.validate r.stream = .ok () →
    ¬e.state.expired s.now →
    ∃ s', step s (.lock t) = some s' ∧ s'.history = s.history ++
      [if o.data = r.data then .acked i r o.ack
        else .answered t (.error (.conflict "sequence reused with different payload"))]

/-- What an epoch's callers rely on. -/
structure Guarantees (s : State) : Prop where
  /-- the writes of an epoch are those of the sequences 1, 2, ..., to the epoch's execution -/
  numbered : ∀ i, ∃ n, (writes i s.history).map Push.sequence = List.range' 1 n
  addressed : ∀ i, ∀ r ∈ writes i s.history, ∃ e, s.entries[i]? = some e ∧ e.state.stream = r.stream
  /-- a repeated sequence is answered as before, or refused -/
  replayed : Replays s
  retained : ∀ (i : Nat) (e : Entry), s.entries[i]? = some e → ∀ o ∈ e.state.retained,
    .acked i (o.request e.state.stream) o.ack ∈ s.history
  acked : ∀ i r r' ack ack', .acked i r ack ∈ s.history → .acked i r' ack' ∈ s.history → r.sequence = r'.sequence →
    r.data = r'.data ∧ ack = ack'
  /-- nothing is written for an epoch that is over -/
  silent : s.history.Pairwise fun a b => ∀ i, a.ends = some i → b.target ≠ some i
  capacity : s.streams.size ≤ 32
  window : ∀ e ∈ s.entries, e.state.retained.length ≤ 32

section Reachable

variable {ok : State → Input → Prop} {s : State}

theorem sound_run (h : Run step ok initial s) : Sound s :=
  h.invariant (fun _ _ _ hsound _ hs => sound_step hsound hs) sound_initial

theorem live_run (h : Run step ok initial s) (hfresh : ∀ s input, ok s input → FreshId s input) : Live s := by
  refine (h.invariant (I := fun s => Sound s ∧ Live s) ?_ ⟨sound_initial, live_initial⟩).2
  rintro s input s' ⟨hsound, hlive⟩ hok hs
  exact ⟨sound_step hsound hs, live_step hsound hlive (hfresh s input hok) hs⟩

/-- Writes of one epoch with the same number are the same write. -/
theorem Sound.write_unique (h : Sound s) {i : Nat} {r r' : Push} (hr : r ∈ writes i s.history)
    (hr' : r' ∈ writes i s.history)
    (hsequence : r.sequence = r'.sequence) : r = r' := by
  obtain ⟨e, he, -⟩ := h.epochs.known i r hr
  have hnodup : ((writes i s.history).map Push.sequence).Nodup := by
    rw [(h.epochs.entries i e he).numbered]
    exact nodup_range'
  exact inj_on_of_nodup_map hnodup hr hr' hsequence

/-- The writes of an epoch are numbered from 1. -/
theorem Sound.numbered (h : Sound s) (i : Nat) : ∃ n, (writes i s.history).map Push.sequence = List.range' 1 n := by
  cases he : s.entries[i]? with
  | some e => exact ⟨_, (h.epochs.entries i e he).numbered⟩
  | none =>
    refine ⟨0, ?_⟩
    have hnone : writes i s.history = [] := by
      rw [eq_nil_iff_forall_not_mem]
      intro r hr
      obtain ⟨e, hsome, -⟩ := h.epochs.known i r hr
      rw [he] at hsome
      cases hsome
    rw [hnone]
    rfl

theorem Sound.replayed (h : Sound s) : Replays s := by
  intro t i r e o hcall he ho hsequence hlock hvalid hexpired
  -- the outcome found is this one: two retained outcomes of a sequence are of the same write
  obtain ⟨o', hfind⟩ : ∃ o', (e.state.retained.find? fun item => item.sequence = r.sequence) = some o' := by
    rw [← isSome_iff_exists, find?_isSome]
    exact ⟨o, ho, by simpa using hsequence⟩
  have ho' := mem_of_find?_eq_some hfind
  have hsequence' : o'.sequence = r.sequence := by simpa using find?_some hfind
  have hsame : o' = o := by
    obtain ⟨hack, hwritten, -⟩ := (h.epochs.entries i e he).retained o ho
    obtain ⟨hack', hwritten', -⟩ := (h.epochs.entries i e he).retained o' ho'
    have hrequest := h.write_unique hwritten' hwritten (hsequence'.trans hsequence.symm)
    exact RetainedOutcome.ext (hsequence'.trans hsequence.symm) (congrArg Push.data hrequest) (by rw [hack', hack,
      hrequest])
  have hverdict := examine_retained hvalid hexpired
  rw [hfind, hsame] at hverdict
  refine ⟨s.lockPush t r i e, ?_, ?_⟩
  · simp [step, hcall, he]
  · unfold lockPush
    rw [hlock]
    dsimp only
    rw [hverdict]
    by_cases hdata : o.data = r.data
    · simp only [if_pos hdata]
      rfl
    · simp only [if_neg hdata]
      rfl

/-- Acknowledgements of one epoch and sequence are the same, for the same payload. -/
theorem Sound.ack_unique (h : Sound s) {i : Nat} {r r' : Push} {ack ack' : HumanInputAck}
    (hr : .acked i r ack ∈ s.history)
    (hr' : .acked i r' ack' ∈ s.history) (hsequence : r.sequence = r'.sequence) : r.data = r'.data ∧ ack = ack' := by
  obtain ⟨hack, hwritten⟩ := h.epochs.acked i r ack hr
  obtain ⟨hack', hwritten'⟩ := h.epochs.acked i r' ack' hr'
  have hsame := h.write_unique hwritten hwritten' hsequence
  simp [hack, hack', hsame]

theorem Sound.guarantees (h : Sound s) : Guarantees s where
  numbered := h.numbered
  addressed := fun i r hr => h.epochs.known i r hr
  replayed := h.replayed
  retained := fun i e he o ho => ((h.epochs.entries i e he).retained o ho).2.2
  acked := fun _ _ _ _ _ hr hr' hsequence => h.ack_unique hr hr' hsequence
  silent := h.epochs.silent
  capacity := h.registered.capacity
  window := by
    intro e he
    obtain ⟨i, hi⟩ := getElem?_of_mem he
    exact (h.epochs.entries i e hi).window

/-- In every reachable state; and if ids are not given out twice, at most 32 epochs are not over. -/
theorem epochs_sound (h : Run step ok initial s) :
    Guarantees s ∧
      ((∀ s input, ok s input → FreshId s input) → (s.entries.filter fun e => ¬e.Dead).length ≤ 32) := by
  have hsound := sound_run h
  refine ⟨hsound.guarantees, ?_⟩
  intro hfresh
  exact le_trans (live_run h hfresh).count hsound.registered.capacity

end Reachable

namespace Sample

def execution : TerminalExecutionRef := { sessionId := 1, paneId := 2, executionToken := 3 }

def key : Push := { stream := { execution, streamId := 7 }, sequence := 1, data := [0x6b] }

def pushes : List Input :=
  [.push 1 key (.ok ()), .lookup 1, .lock 1, .written 1 .ok, .push 2 key (.ok ()), .lookup 2, .lock 2]

/-- The key is written once, and both callers get the same acknowledgement. -/
theorem repeated_key : ∃ s, (.open 0 execution (.ok ()) :: .insert 0 7 :: pushes).foldlM step initial = some s ∧
    s.history = [.opened 0, .wrote 0 key, .acked 0 key (ackOf key), .acked 0 key (ackOf key)] ∧
    Guarantees s ∧ (s.entries.filter fun e => ¬e.Dead).length ≤ 32 := by
  have hplayed : ((.open 0 execution (.ok ()) :: .insert 0 7 :: pushes).foldlM step initial).map history =
      some [.opened 0, .wrote 0 key, .acked 0 key (ackOf key), .acked 0 key (ackOf key)] := by decide +kernel
  obtain ⟨s, hs, hhistory⟩ := map_eq_some_iff.mp hplayed
  refine ⟨s, hs, hhistory, ?_⟩
  rw [foldlM_cons] at hs
  obtain ⟨opening, hopening, hs⟩ := bind_eq_some_iff.mp hs
  rw [foldlM_cons] at hs
  obtain ⟨opened, hopened, hs⟩ := bind_eq_some_iff.mp hs
  have hfresh : FreshId opening (.insert 0 7) := by
    cases hopening
    exact fun e he => by cases he
  have hrun : Run step FreshId initial opened := ((Run.refl _).tail trivial hopening).tail hfresh hopened
  have hpushes : Run step FreshId opened s := by
    refine Run.of_foldlM_mem hs ?_
    intro input hmem s'
    cases input with
    | insert t candidate => simp [pushes] at hmem
    | _ => trivial
  obtain ⟨hguarantees, hcount⟩ := epochs_sound (hrun.trans hpushes)
  exact ⟨hguarantees, hcount fun _ _ hok => hok⟩

end Sample
end Bmux.HumanInput
