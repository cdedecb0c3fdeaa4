import Bmux.Core.Wire

/-!
# Serializers and deserializers in lockstep

A serializer appends to an output buffer. A deserializer moves a cursor over
its input and keeps a context of its own beside it; both survive a failure, as
they do behind a `&mut` reference. `Inverts P Q w r a` says that `w` succeeds,
whatever was written before, and that `r`, from any context with `P`, reads its
bytes back as `a` in front of any suffix and ends in a context with `Q`. The
rules follow the shape of the two programs: one rule for sequencing, one for a
change of context that is undone, one for a list of elements, so a proof walks
both sides at once and never opens the byte level.
-/
namespace Bmux.Streams
open Wire

/-- The unread input and the reader's own context. -/
structure Cursor (σ : Type) where
  input : Bytes
  context : σ

abbrev Sink (ε α : Type) := StateT Bytes (Except ε) α

abbrev Source (σ ε α : Type) := ExceptT ε (StateM (Cursor σ)) α

variable {σ ε ε' α β : Type}

def Source.exec (r : Source σ ε α) (c : Cursor σ) : Except ε α × Cursor σ := r.run.run c

variable (f : Cursor σ → Except ε α × Cursor σ)

def Source.of : Source σ ε α := fun c => f c

@[simp] theorem exec_of (c : Cursor σ) :
    (Source.of f).exec c = f c := rfl

@[simp] theorem exec_pure (a : α) (c : Cursor σ) : (pure a : Source σ ε α).exec c = (.ok a, c) := rfl

@[simp] theorem exec_throw (e : ε) (c : Cursor σ) : (throw e : Source σ ε α).exec c = (.error e, c) := rfl

theorem exec_bind (r : Source σ ε α) (f : α → Source σ ε β) (c : Cursor σ) :
    (r >>= f).exec c =
      match r.exec c with
      | (.ok a, c') => (f a).exec c'
      | (.error e, c') => (.error e, c') := by
  simp only [Source.exec, ExceptT.run_bind, StateT.run_bind]
  rcases StateT.run (ExceptT.run r) c with ⟨_ | _, _⟩ <;> rfl

variable {r : Source σ ε α}

theorem exec_bind_ok {c c' : Cursor σ} {a : α} (h : r.exec c = (.ok a, c'))
    (f : α → Source σ ε β) : (r >>= f).exec c = (f a).exec c' := by
  rw [exec_bind, h]

theorem exec_bind_error {c : Cursor σ} {e : ε} (h : (r.exec c).1 = .error e)
    (f : α → Source σ ε β) : (r >>= f).exec c = (.error e, (r.exec c).2) := by
  rw [exec_bind]
  split
  · next hr =>
    rw [hr] at h
    cases h
  · next hr =>
    rw [hr] at h ⊢
    rw [Except.error.inj h]

def extend (bytes : Bytes) : Sink ε Unit := fun out => .ok ((), out ++ bytes)

def consume (e : ε) (n : Nat) : Source σ ε { b : Bytes // b.length = n } := .of fun c =>
  if h : n ≤ c.input.length then
    (.ok ⟨c.input.take n, List.length_take_of_le h⟩, { c with input := c.input.drop n })
  else (.error e, c)

/-- Run `body` in another context and leave it again, whatever the outcome. -/
def within (enter : Cursor σ → σ) (leave : σ → σ → σ) (body : Source σ ε α) : Source σ ε α := .of fun c =>
  let (result, c') := body.exec { c with context := enter c }
  (result, { c' with context := leave c.context c'.context })

def repeatRead (element : Source σ ε α) : (n : Nat) → Source σ ε { l : List α // l.length = n }
  | 0 => pure ⟨[], rfl⟩
  | n + 1 => do
    let head ← element
    let tail ← repeatRead element n
    return ⟨head :: tail.val, congrArg (· + 1) tail.property⟩

/-! ## What is written, what is read -/

def Emits (w : Sink ε Unit) (b : Bytes) : Prop := ∀ out, w.run out = .ok ((), out ++ b)

def Reads (P Q : σ → Prop) (r : Source σ ε α) (b : Bytes) (a : α) : Prop :=
  ∀ rest c, P c → ∃ c', r.exec ⟨b ++ rest, c⟩ = (.ok a, ⟨rest, c'⟩) ∧ Q c'

def Inverts (P Q : σ → Prop) (w : Sink ε Unit) (r : Source σ ε' α) (a : α) : Prop :=
  ∃ b, Emits w b ∧ Reads P Q r b a

variable {P Q R P' Q' : σ → Prop}

variable {b b' : Bytes}

theorem Emits.bind {w w' : Sink ε Unit} (h : Emits w b) (h' : Emits w' b') :
    Emits (w >>= fun _ => w') (b ++ b') := by
  intro out
  have hrun : (w >>= fun _ => w').run out = w'.run (out ++ b) := by
    rw [StateT.run_bind, h out]
    rfl
  rw [hrun, h', List.append_assoc]

theorem Reads.bind {f : α → Source σ ε β} {a : α} {a' : β}
    (h : Reads P Q r b a) (h' : Reads Q R (f a) b' a') : Reads P R (r >>= f) (b ++ b') a' := by
  intro rest c hc
  obtain ⟨c₁, hr, hc₁⟩ := h (b' ++ rest) c hc
  obtain ⟨c₂, hf, hc₂⟩ := h' rest c₁ hc₁
  refine ⟨c₂, ?_, hc₂⟩
  rw [List.append_assoc, exec_bind_ok hr, hf]

theorem reads_pure (a : α) : Reads P P (pure a : Source σ ε α) [] a := fun _ c hc => ⟨c, rfl, hc⟩

theorem reads_consume (e : ε) {n : Nat} (hn : b.length = n) :
    Reads P P (consume e n : Source σ ε _) b ⟨b, hn⟩ := by
  subst hn
  intro rest c hc
  have hle : b.length ≤ (b ++ rest).length := by simp
  refine ⟨c, ?_, hc⟩
  rw [consume, exec_of]
  simp

theorem Reads.within {a : α} {enter : Cursor σ → σ} {leave : σ → σ → σ}
    (henter : ∀ c, P c.context → P' (enter c)) (hleave : ∀ c c', P c → Q' c' → Q (leave c c'))
    (h : Reads P' Q' r b a) : Reads P Q (within enter leave r) b a := by
  intro rest c hc
  obtain ⟨c', hr, hc'⟩ := h rest (enter ⟨b ++ rest, c⟩) (henter _ hc)
  refine ⟨leave c c', ?_, hleave c c' hc hc'⟩
  rw [Streams.within, exec_of, hr]

/-! ## Rules -/

namespace Inverts
variable {w w' : Sink ε Unit} {r : Source σ ε' α} {f : α → Source σ ε' β} {a : α} {a' : β}

theorem pure (a : α) : Inverts P P (Pure.pure () : Sink ε Unit) (Pure.pure a : Source σ ε' α) a :=
  ⟨[], fun out => by rw [List.append_nil]; rfl, reads_pure a⟩

theorem extend {b : Bytes} (h : Reads P Q r b a) : Inverts P Q (Streams.extend b : Sink ε Unit) r a :=
  ⟨b, fun _ => rfl, h⟩

theorem bind (h : Inverts P Q w r a) (h' : Inverts Q R w' (f a) a') :
    Inverts P R (w >>= fun _ => w') (r >>= f) a' := by
  obtain ⟨b, hw, hr⟩ := h
  obtain ⟨b', hw', hr'⟩ := h'
  exact ⟨b ++ b', hw.bind hw', hr.bind hr'⟩

theorem andThen (h : Inverts P Q w r a) (h' : Reads Q R (f a) [] a') : Inverts P R w (r >>= f) a' := by
  obtain ⟨b, hw, hr⟩ := h
  have hb := hr.bind h'
  rw [List.append_nil] at hb
  exact ⟨b, hw, hb⟩

theorem before {r : Source σ ε' β} {f : β → Source σ ε' α} {x : β} (hr : Reads P Q r [] x)
    (h : Inverts Q R w (f x) a) : Inverts P R w (r >>= f) a := by
  obtain ⟨b, hw, hf⟩ := h
  exact ⟨b, hw, hr.bind hf⟩

theorem map (g : α → β) (h : Inverts P Q w r a) : Inverts P Q w (g <$> r) (g a) := by
  exact h.andThen (reads_pure _)

theorem within {enter : Cursor σ → σ} {leave : σ → σ → σ}
    (henter : ∀ c, P c.context → P' (enter c)) (hleave : ∀ c c', P c → Q' c' → Q (leave c c'))
    (h : Inverts P' Q' w r a) : Inverts P Q w (Streams.within enter leave r) a := by
  obtain ⟨b, hw, hr⟩ := h
  exact ⟨b, hw, hr.within henter hleave⟩

/-- Elements written one after the other are read one after the other. -/
theorem repeatRead {put : α → Sink ε Unit} {get : Source σ ε' α} :
    ∀ (l : List α) {n : Nat} (hn : l.length = n), (∀ x ∈ l, Inverts P P (put x) get x) →
      Inverts P P (l.forM put) (Streams.repeatRead get n) ⟨l, hn⟩
  | [], 0, _, _ => Inverts.pure _
  | x :: l, n + 1, hn, h => by
    have hl : l.length = n := by simpa using hn
    have htail := repeatRead l hl fun y hy => h y (List.mem_cons_of_mem x hy)
    exact (h x List.mem_cons_self).bind (htail.andThen (reads_pure _))

end Inverts

/-- Two values whose encodings start alike are equal: the encoding of one is
never a proper beginning of the encoding of another. -/
theorem Reads.eq_of_append_eq {rest rest' : Bytes} {a a' : α} {c : σ} (hc : P c)
    (h : Reads P Q r b a) (h' : Reads P Q r b' a') (he : b ++ rest = b' ++ rest') : a = a' ∧ rest = rest' := by
  obtain ⟨c₁, hrun, -⟩ := h rest c hc
  obtain ⟨c₂, hrun', -⟩ := h' rest' c hc
  rw [he, hrun', Prod.mk.injEq, Except.ok.injEq, Cursor.mk.injEq] at hrun
  exact ⟨hrun.1.symm, hrun.2.1.symm⟩

end Bmux.Streams
