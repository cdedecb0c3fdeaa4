import Mathlib

/-!
# Critical sections over files that are replaced atomically

A critical section holds the lock of a store, reads it, and replaces files one after another.
Each replacement is atomic. It may fail before the new file is in place, and it may report a
failure after it is; a section stops at the first failure that is reported to it. A crash in the
middle of a section leaves the store that one of these failures leaves.

`Ensures m s Q`: from the store `s` the section ends with a result and a store that meet `Q`,
however its replacements turn out. The rules follow the program: one per way to start a section.
-/
namespace Bmux

inductive Publication where
  | done
  | failed (reason : String)
  /-- The new file is in place, but a failure is reported. -/
  | unsynced (reason : String)
  deriving DecidableEq, Repr

/-- A store, and how the next replacements turn out (`done` once the list is used up). -/
structure Disk (σ : Type) where
  store : σ
  publications : List Publication

abbrev SectionM (ε σ : Type) := ExceptT ε (StateM (Disk σ))

variable {ε σ α β : Type}

theorem not_both {x : Except ε α} {a : α} {e : ε} (h : x = .ok a) (h' : x = .error e) : False := by
  rw [h] at h'
  cases h'

namespace SectionM

def load : SectionM ε σ σ := do return (← get).store

def refuse (c : Prop) [Decidable c] (e : ε) : SectionM ε σ Unit := if c then throw e else pure ()

def lift : Except ε α → SectionM ε σ α
  | .ok a => pure a
  | .error e => throw e

def publish (fail : String → ε) (f : σ → σ) : SectionM ε σ Unit := do
  let disk ← get
  match disk.publications with
  | [] => set (Disk.mk (f disk.store) [])
  | .done :: rest => set (Disk.mk (f disk.store) rest)
  | .failed reason :: rest =>
    set (Disk.mk disk.store rest)
    throw (fail reason)
  | .unsynced reason :: rest =>
    set (Disk.mk (f disk.store) rest)
    throw (fail reason)

def exec (m : SectionM ε σ α) (s : σ) (publications : List Publication) : Except ε α × σ :=
  let end' := m.run.run ⟨s, publications⟩
  (end'.1, end'.2.store)

/-- Every end of the section `m` from the store `s` meets `Q`. -/
def Ensures (m : SectionM ε σ α) (s : σ) (Q : Except ε α → σ → Prop) : Prop :=
  ∀ publications, Q (m.exec s publications).1 (m.exec s publications).2

namespace Ensures

variable {m : SectionM ε σ α} {s : σ} {Q : Except ε α → σ → Prop} {e : ε} {a : α}

theorem pure (h : Q (.ok a) s) : Ensures (Pure.pure a) s Q := fun _ => h

theorem load {f : σ → SectionM ε σ α} (h : Ensures (f s) s Q) : Ensures (SectionM.load >>= f) s Q := h

theorem lift {x : Except ε β} {f : β → SectionM ε σ α} (herr : ∀ e, x = .error e → Q (.error e) s)
    (hok : ∀ b, x = .ok b → Ensures (f b) s Q) : Ensures (SectionM.lift x >>= f) s Q := by
  cases x with
  | ok b => exact hok b rfl
  | error e => exact fun _ => herr e rfl

variable {f : Unit → SectionM ε σ α}

theorem refuse {c : Prop} [Decidable c] (herr : c → Q (.error e) s)
    (hok : ¬c → Ensures (f ()) s Q) : Ensures (SectionM.refuse c e >>= f) s Q := by
  unfold SectionM.refuse
  by_cases h : c
  · rw [if_pos h]
    exact fun _ => herr h
  · rw [if_neg h]
    exact hok h

/-- A section goes on only when the file is in place and no failure was reported. -/
theorem publish {fail : String → ε} {g : σ → σ}
    (hok : Ensures (f ()) (g s) Q) (hfailed : ∀ reason, Q (.error (fail reason)) s)
    (hunsynced : ∀ reason, Q (.error (fail reason)) (g s)) :
    Ensures (SectionM.publish fail g >>= f) s Q := by
  intro publications
  match publications with
  | [] => exact hok []
  | .done :: rest => exact hok rest
  | .failed reason :: _ => exact hfailed reason
  | .unsynced reason :: _ => exact hunsynced reason

/-- A section made of two: the second one starts from wherever the first one ends. -/
theorem bind {m : SectionM ε σ β} {f : β → SectionM ε σ α} {R : Except ε β → σ → Prop} (hm : Ensures m s R)
    (hok : ∀ b s', R (.ok b) s' → Ensures (f b) s' Q) (herr : ∀ e s', R (.error e) s' → Q (.error e) s') :
    Ensures (m >>= f) s Q := by
  intro publications
  have hR := hm publications
  rcases hrun : m.run.run ⟨s, publications⟩ with ⟨r, disk⟩
  have hexec : (m >>= f).exec s publications
      = match r with | .ok b => (f b).exec disk.store disk.publications | .error e => (.error e, disk.store) := by
    simp only [exec, ExceptT.run_bind, StateT.run_bind, hrun]
    cases r <;> rfl
  rw [hexec]
  simp only [exec, hrun] at hR
  cases r with
  | ok b => exact hok b _ hR disk.publications
  | error e => exact herr e _ hR

theorem ite {c : Prop} [Decidable c] {m' : SectionM ε σ α} (h : c → Ensures m s Q) (h' : ¬c → Ensures m' s Q) :
    Ensures (if c then m else m') s Q := by
  by_cases hc : c
  · rw [if_pos hc]; exact h hc
  · rw [if_neg hc]; exact h' hc

variable {Q' : Except ε α → σ → Prop}

theorem mono (h : Ensures m s Q) (himp : ∀ r s', Q r s' → Q' r s') : Ensures m s Q' :=
  fun publications => himp _ _ (h publications)

theorem and (h : Ensures m s Q) (h' : Ensures m s Q') : Ensures m s fun r s' => Q r s' ∧ Q' r s' :=
  fun publications => ⟨h publications, h' publications⟩

end Ensures
end SectionM
end Bmux
