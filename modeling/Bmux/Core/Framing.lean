import Mathlib

/-!
# Incremental framing

A decoder takes items off the front of a buffer that grows at its end. `drain`
calls it until it has no more to give, `feed` does so after each chunk that
arrives. If every item has a frame that is decoded whatever follows it and that
is waited for as long as it is incomplete (`Frames`), then the frames of a list
of items come out as that list however the bytes are cut (`feed_frames`).
-/
namespace Bmux.Framing
open List

variable {β α ε : Type}

/-- One call: an item, nothing yet, or an error, and what is left of the buffer. -/
structure Decoder (β α ε : Type) where
  next : List β → Except ε (Option α) × List β
  /-- There is nothing in an empty buffer. -/
  idle : next [] = (.ok none, [])
  /-- An item takes up room, so draining ends. -/
  shrinks : ∀ {buffer a rest}, next buffer = (.ok (some a), rest) → rest.length < buffer.length

namespace Decoder
variable (d : Decoder β α ε)

/-- Calls until there is nothing more: the items and what is left of the buffer. -/
def drain (buffer : List β) : Except ε (List α) × List β :=
  match _h : d.next buffer with
  | (.error e, rest) => (.error e, rest)
  | (.ok none, rest) => (.ok [], rest)
  | (.ok (some a), rest) => ((drain rest).1.map (a :: ·), (drain rest).2)
termination_by buffer.length
decreasing_by all_goals exact d.shrinks _h

/-- Each chunk is appended to the buffer, which is then drained. -/
def feed (buffer : List β) : List (List β) → Except ε (List α) × List β
  | [] => (.ok [], buffer)
  | chunk :: chunks =>
    match d.drain (buffer ++ chunk) with
    | (.error e, rest) => (.error e, rest)
    | (.ok out, rest) => ((feed rest chunks).1.map (out ++ ·), (feed rest chunks).2)

/-- `frame` is decoded to `a` whatever follows it, and waited for until it is complete. -/
structure Frames (a : α) (frame : List β) : Prop where
  whole : ∀ rest, d.next (frame ++ rest) = (.ok (some a), rest)
  short : ∀ part, part <+: frame → part ≠ frame → d.next part = (.ok none, part)

def wire (items : List (α × List β)) : List β := (items.map Prod.snd).flatten

/-- The buffer holds an incomplete frame of the next item, or nothing if there is none. -/
def Waiting (buffer : List β) : List (α × List β) → Prop
  | [] => buffer = []
  | item :: _ => buffer <+: item.2 ∧ buffer ≠ item.2

variable {d}

variable {buffer rest : List β}

theorem drain_none (h : d.next buffer = (.ok none, rest)) : d.drain buffer = (.ok [], rest) := by
  rw [drain]
  split <;> rename_i heq <;> rw [h] at heq <;> cases heq
  rfl

theorem drain_some {a : α} (h : d.next buffer = (.ok (some a), rest)) :
    d.drain buffer = ((d.drain rest).1.map (a :: ·), (d.drain rest).2) := by
  rw [drain]
  split <;> rename_i heq <;> rw [h] at heq <;> cases heq
  rfl

variable {items : List (α × List β)}

/-- Draining a first part of the wire gives the items that are in it as a whole. -/
theorem drain_frames (h : ∀ i ∈ items, d.Frames i.1 i.2) (hbuffer : buffer <+: wire items) :
    ∃ done todo rest, items = done ++ todo ∧ buffer = wire done ++ rest ∧ Waiting rest todo ∧
      d.drain buffer = (.ok (done.map Prod.fst), rest) := by
  induction items generalizing buffer with
  | nil =>
    have hnil : buffer = [] := prefix_nil.mp hbuffer
    subst hnil
    exact ⟨[], [], [], rfl, rfl, rfl, drain_none d.idle⟩
  | cons item items ih =>
    have hitem := h item mem_cons_self
    by_cases hshort : buffer <+: item.2 ∧ buffer ≠ item.2
    · exact ⟨[], item :: items, buffer, rfl, rfl, hshort, drain_none (hitem.short buffer hshort.1 hshort.2)⟩
    · -- the whole frame of the item is there
      have hwhole : item.2 <+: buffer := by
        rcases prefix_or_prefix_of_prefix hbuffer (prefix_append item.2 (wire items)) with hp | hp
        · rw [not_and_not_right] at hshort
          rw [hshort hp]
        · exact hp
      obtain ⟨rest, rfl⟩ := hwhole
      have hrest : rest <+: wire items := (prefix_append_right_inj _).mp hbuffer
      obtain ⟨done, todo, left, rfl, rfl, hwaiting, hdrain⟩ := ih (fun i hi => h i (mem_cons_of_mem _ hi)) hrest
      refine ⟨item :: done, todo, left, rfl, ?_, hwaiting, ?_⟩
      · simp [wire]
      · rw [drain_some (hitem.whole _), hdrain]
        rfl

theorem Waiting.eq_nil (h : Waiting buffer items)
    (hall : buffer = wire items) : items = [] ∧ buffer = [] := by
  cases items with
  | nil => exact ⟨rfl, h⟩
  | cons item items =>
    obtain ⟨hfirst, hne⟩ := h
    have hlonger : item.2 <+: buffer := by
      rw [hall]
      exact prefix_append _ _
    exact absurd (hfirst.eq_of_length_le hlonger.length_le) hne

theorem feed_waiting (h : ∀ i ∈ items, d.Frames i.1 i.2)
    (hwaiting : Waiting buffer items) {chunks : List (List β)} (hchunks : buffer ++ chunks.flatten = wire items) :
    d.feed buffer chunks = (.ok (items.map Prod.fst), []) := by
  induction chunks generalizing items buffer with
  | nil =>
    rw [flatten_nil, append_nil] at hchunks
    obtain ⟨rfl, rfl⟩ := hwaiting.eq_nil hchunks
    rfl
  | cons chunk chunks ih =>
    rw [flatten_cons, ← append_assoc] at hchunks
    obtain ⟨done, todo, rest, rfl, hbuffer, hrest, hdrain⟩ := drain_frames h ⟨chunks.flatten, hchunks⟩
    have htail : rest ++ chunks.flatten = wire todo := by
      rw [hbuffer, wire, wire, map_append, flatten_append, append_assoc] at hchunks
      exact append_cancel_left hchunks
    have hfeed := ih (fun i hi => h i (mem_append_right _ hi)) hrest htail
    rw [feed, hdrain]
    simp only [hfeed, map_append]
    rfl

/-- However the frames of a list of items are cut into chunks, the items come out
in order and nothing is left over. -/
theorem feed_frames (h : ∀ i ∈ items, d.Frames i.1 i.2) {chunks : List (List β)}
    (hchunks : chunks.flatten = wire items) : d.feed [] chunks = (.ok (items.map Prod.fst), []) := by
  by_cases hwaiting : Waiting [] items
  · exact feed_waiting h hwaiting hchunks
  · -- an empty frame cannot be: an item takes up room
    cases items with
    | nil => exact absurd rfl hwaiting
    | cons item items =>
      have hempty : ([] : List β) = item.2 := by
        by_contra hne
        exact hwaiting ⟨List.nil_prefix, hne⟩
      have hnext := (h item mem_cons_self).whole []
      rw [← hempty] at hnext
      exact absurd (d.shrinks hnext) (lt_irrefl 0)

end Decoder
end Bmux.Framing
