import Mathlib

/-!
# Byte writers, byte readers and the laws that tie them together

A wire format is a pair of functions written by hand: a writer that appends
fields one after the other and may panic or fail, and a reader that consumes
fields from the front of its input. This module has no format in it; it
fixes what "panics" and "fails" mean (`Fault`, `Outcome`), how writers are
sequenced (`seq`), what a reader is (`Get`), and when the two agree.

`LawfulOn P put get` says three things about the values satisfying `P`:
* `roundtrip`: what `put` writes, `get` reads back, whatever follows it;
* `strict`: what `get` accepts is exactly what `put` writes, so a value has
  one accepted encoding;
* `noPanic`: `get` returns on every input.

`LawfulAs c` is the same for a reader that packs its result with `c`, which
is how the cases of a tagged union are read. The rules `pure`, `bind`,
`guard`, `fail` and `repeatGet` follow the shape of a reader written field by
field, so the law of a record is the chain of the laws of its fields.
-/
namespace Bmux
open List Nat

abbrev Bytes := List UInt8

/-- How a call ends when it does not return a value: it panics, or it
returns an error. -/
inductive Fault (ε : Type) where
  | panicked
  | error (e : ε)
  deriving DecidableEq, Repr

abbrev Outcome (ε α : Type) := Except (Fault ε) α

/-- A call that returned did return from each of its parts. -/
theorem bind_eq_ok {ε α β : Type} {x : Except ε α} {f : α → Except ε β} {b : β} :
    (x >>= f) = .ok b ↔ ∃ a, x = .ok a ∧ f a = .ok b := by
  cases x <;> simp [bind, Except.bind]

theorem mapError_eq_ok {ε ε' α : Type} {x : Except ε α} {f : ε → ε'} {a : α} : x.mapError f = .ok a ↔ x = .ok a := by
  cases x <;> simp [Except.mapError]

theorem forM_eq_ok {ε α : Type} {f : α → Except ε Unit} {l : List α} :
    l.forM f = .ok () ↔ ∀ a ∈ l, f a = .ok () := by
  induction l with
  | nil => simp [pure, Except.pure]
  | cons a l ih =>
    rw [forall_mem_cons, ← ih]
    exact bind_eq_ok.trans ⟨fun ⟨_, h1, h2⟩ => ⟨h1, h2⟩, fun h => ⟨(), h.1, h.2⟩⟩

namespace Wire

/-- A write: the bytes it appends. -/
abbrev Put (ε : Type) := Outcome ε Bytes

/-- A read from the front of the input: the value and what is left. -/
abbrev Get (ε α : Type) := StateT Bytes (Except (Fault ε)) α

variable {ε ε' α β : Type}

def seq : List (Put ε) → Put ε
  | [] => .ok []
  | p :: ps => p.bind fun b => (seq ps).bind fun bs => .ok (b ++ bs)

@[simp] theorem seq_nil : seq ([] : List (Put ε)) = .ok [] := rfl

theorem seq_cons (p : Put ε) (ps : List (Put ε)) :
    seq (p :: ps) = p.bind fun b => (seq ps).bind fun bs => .ok (b ++ bs) := rfl

variable {ps : List (Put ε)}

theorem seq_cons_ok {p : Put ε} {c : Bytes} :
    seq (p :: ps) = .ok c ↔ ∃ b bs, p = .ok b ∧ seq ps = .ok bs ∧ c = b ++ bs := by
  rw [seq_cons]
  cases p with
  | error f => simp [Except.bind]
  | ok b => cases hps : seq ps <;> simp [Except.bind, eq_comm]

@[simp] theorem seq_single (p : Put ε) : seq [p] = p := by
  cases p <;> simp [seq_cons, Except.bind]

theorem seq_append (ps qs : List (Put ε)) : seq (ps ++ qs) = seq [seq ps, seq qs] := by
  induction ps with
  | nil => cases h : seq qs <;> simp [seq_cons, Except.bind, h]
  | cons p ps ih =>
    rw [cons_append, seq_cons, ih]
    cases p with
    | error f => rfl
    | ok b =>
      simp only [seq_cons, seq_nil, Except.bind]
      cases seq ps <;> cases seq qs <;> simp

theorem seq_cons_seq (ps qs : List (Put ε)) : seq (seq ps :: qs) = seq (ps ++ qs) := by
  rw [seq_append]
  cases h1 : seq ps <;> cases h2 : seq qs <;> simp [seq_cons, Except.bind, h2]

/-- The write goes through: it neither panics nor fails. -/
def Writes (p : Put ε) : Prop := ∃ b, p = .ok b

@[simp] theorem writes_ok (b : Bytes) : Writes (.ok b : Put ε) := ⟨b, rfl⟩

@[simp] theorem not_writes_error (f : Fault ε) : ¬ Writes (.error f : Put ε) := by
  rintro ⟨b, h⟩; cases h

@[simp] theorem writes_seq_cons (p : Put ε) (ps : List (Put ε)) :
    Writes (seq (p :: ps)) ↔ Writes p ∧ Writes (seq ps) := by
  constructor
  · rintro ⟨c, h⟩
    obtain ⟨b, bs, h1, h2, -⟩ := seq_cons_ok.mp h
    exact ⟨⟨b, h1⟩, bs, h2⟩
  · rintro ⟨⟨b, h1⟩, bs, h2⟩
    exact ⟨b ++ bs, seq_cons_ok.mpr ⟨b, bs, h1, h2, rfl⟩⟩

theorem writes_seq (ps : List (Put ε)) : Writes (seq ps) ↔ ∀ p ∈ ps, Writes p := by
  induction ps with
  | nil => simp
  | cons p ps ih => simp [ih]

/-! ## Running a reader -/

@[simp] theorem run_pure (a : α) (inp : Bytes) : (pure a : Get ε α).run inp = .ok (a, inp) := rfl

theorem run_bind (g : Get ε α) (f : α → Get ε β) (inp : Bytes) :
    (g >>= f).run inp = (g.run inp).bind fun r => (f r.1).run r.2 := rfl

variable {inp rest b : Bytes} {a : α} {g : Get ε α}

theorem run_bind_ok (h : g.run inp = .ok (a, rest))
    (f : α → Get ε β) : (g >>= f).run inp = (f a).run rest := by
  rw [run_bind, h]; rfl

theorem of_run_bind {f : α → Get ε β} {r : β × Bytes}
    (h : (g >>= f).run inp = .ok r) : ∃ a rest, g.run inp = .ok (a, rest) ∧ (f a).run rest = .ok r := by
  obtain ⟨p, hg, h⟩ := bind_eq_ok.mp h
  exact ⟨p.1, p.2, hg, h⟩

theorem run_lift_ok {x : Outcome ε α} (h : x = .ok a) (inp : Bytes) :
    (StateT.lift x : Get ε α).run inp = .ok (a, inp) := by
  rw [h]; rfl

variable (e : ε)

def fail : Get ε α := fun _ => .error (.error e)

def panic : Get ε α := fun _ => .error .panicked

@[simp] theorem run_fail (inp : Bytes) : (fail e : Get ε α).run inp = .error (.error e) := rfl

def repeatGet (get : Get ε α) : Nat → Get ε (List α)
  | 0 => pure []
  | n + 1 => do
    let a ← get
    let as ← repeatGet get n
    return a :: as

variable (n : Nat)

/-- The next `n` bytes, or `e` when fewer are left. -/
def take : Get ε Bytes := fun inp =>
  if n ≤ inp.length then .ok (inp.take n, inp.drop n) else .error (.error e)

theorem run_take (inp : Bytes) : (take e n).run inp =
      if n ≤ inp.length then .ok (inp.take n, inp.drop n) else .error (.error e) := rfl

theorem run_take_append (b rest : Bytes) : (take e b.length).run (b ++ rest) = .ok (b, rest) := by
  simp [run_take, take_left', drop_left']

theorem take_ok {e : ε} {n : Nat} (h : (take e n).run inp = .ok (b, rest)) :
    b.length = n ∧ inp = b ++ rest := by
  rw [run_take] at h
  split at h
  · rename_i hle
    obtain ⟨rfl, rfl⟩ := h
    simp [hle]
  · cases h

theorem take_noPanic (inp : Bytes) : (take e n).run inp ≠ .error .panicked := by
  rw [run_take]
  split <;> simp

def mapError (f : ε → ε') (get : Get ε α) : Get ε' α := fun inp =>
  match get.run inp with
  | .ok r => .ok r
  | .error .panicked => .error .panicked
  | .error (.error e) => .error (.error (f e))

theorem run_mapError_ok {f : ε → ε'} {get : Get ε α} {r : α × Bytes}
    (h : get.run inp = .ok r) : (mapError f get).run inp = .ok r := by
  simp only [mapError, StateT.run] at h ⊢
  rw [h]

/-! ## Laws -/

/-- Writer and reader agree on the values satisfying `P`, the reader
returning them packed by `c` (a constructor of a larger type). -/
structure LawfulAs {γ : Type} (c : α → γ) (P : α → Prop) (put : α → Put ε) (get : Get ε' γ) : Prop where
  reads : ∀ {a b} (rest : Bytes), P a → put a = .ok b → get.run (b ++ rest) = .ok (c a, rest)
  accepts : ∀ {inp x rest}, get.run inp = .ok (x, rest) →
    ∃ a, P a ∧ x = c a ∧ ∃ b, put a = .ok b ∧ inp = b ++ rest
  noPanic : ∀ inp, get.run inp ≠ .error .panicked

/-- Writer and reader agree on the values satisfying `P`. -/
abbrev LawfulOn (P : α → Prop) (put : α → Put ε) (get : Get ε' α) : Prop := LawfulAs id P put get

/-- Writer and reader agree on every value the writer accepts. -/
abbrev Lawful (put : α → Put ε) (get : Get ε' α) : Prop := LawfulOn (fun _ => True) put get

variable {P : α → Prop} {put : α → Put ε} {get : Get ε' α}

theorem LawfulOn.roundtrip (h : LawfulOn P put get) (rest : Bytes) (hP : P a) (hb : put a = .ok b) :
    get.run (b ++ rest) = .ok (a, rest) := h.reads rest hP hb

theorem LawfulOn.strict (h : LawfulOn P put get) (hg : get.run inp = .ok (a, rest)) :
    P a ∧ ∃ b, put a = .ok b ∧ inp = b ++ rest := by
  obtain ⟨a', hP, rfl, hb⟩ := h.accepts hg
  exact ⟨hP, hb⟩

theorem LawfulOn.intro
    (h1 : ∀ {a b} (rest : Bytes), P a → put a = .ok b → get.run (b ++ rest) = .ok (a, rest))
    (h2 : ∀ {inp a rest}, get.run inp = .ok (a, rest) → P a ∧ ∃ b, put a = .ok b ∧ inp = b ++ rest)
    (h3 : ∀ inp, get.run inp ≠ .error .panicked) : LawfulOn P put get where
  reads := h1
  accepts := by
    intro inp x rest hg
    obtain ⟨hP, hb⟩ := h2 hg
    exact ⟨x, hP, rfl, hb⟩
  noPanic := h3

/-- A reader that panics did so in its first read or after it. -/
theorem bind_noPanic {f : α → Get ε β} (h1 : g.run inp ≠ .error .panicked)
    (h2 : ∀ a rest, g.run inp = .ok (a, rest) → (f a).run rest ≠ .error .panicked) :
    (g >>= f).run inp ≠ .error .panicked := by
  intro hg
  rw [run_bind] at hg
  cases hr : g.run inp with
  | error e =>
    rw [hr] at hg
    simp only [Except.bind, Except.error.injEq] at hg
    subst hg
    exact h1 hr
  | ok r => rw [hr] at hg; exact h2 r.1 r.2 hr hg

namespace LawfulAs

variable {γ : Type} {c : β → γ} {P : α → Prop} {R : β → Prop} {put : α → Put ε} {get : Get ε' α}
  {w : β → Put ε} {getC : Get ε' γ}

theorem congr {put' : β → Put ε} (h : LawfulAs c R w getC) (he : ∀ b, R b → put' b = w b) :
    LawfulAs c R put' getC where
  reads := fun rest hR hb => h.reads rest hR (he _ hR ▸ hb)
  accepts := by
    intro inp x rest hg
    obtain ⟨b, hR, rfl, o, ho, rfl⟩ := h.accepts hg
    exact ⟨b, hR, rfl, o, (he b hR).trans ho, rfl⟩
  noPanic := h.noPanic

theorem weaken {R' : β → Prop} (h : LawfulAs c R w getC) (he : ∀ b, R' b ↔ R b) :
    LawfulAs c R' w getC := by
  have : R' = R := funext fun a => propext (he a)
  rw [this]; exact h

theorem pure {b : β} (h1 : ∀ b', R b' → b' = b) (h2 : R b) :
    LawfulAs c R (fun _ => seq ([] : List (Put ε))) (Pure.pure (c b) : Get ε' γ) where
  reads := by
    intro b' o rest hR ho
    cases ho
    rw [h1 b' hR]; exact run_pure (c b) rest
  accepts := by
    intro inp x rest hg
    obtain ⟨rfl, rfl⟩ := hg
    exact ⟨b, h2, rfl, [], rfl, rfl⟩
  noPanic := by intro inp hg; cases hg

theorem fail {e : ε'} (h : ∀ b, ¬ R b) : LawfulAs c R w (Wire.fail e : Get ε' γ) where
  reads := fun _ hR _ => absurd hR (h _)
  accepts := by intro inp a rest hg; cases hg
  noPanic := by intro inp hg; cases hg

variable {getB : α → Get ε' γ} {puts : β → List (Put ε)}

/-- One field, then the rest of the record. `π` is the field. -/
theorem bind (π : β → α) (hA : LawfulOn P put get) (hP : ∀ b, R b → P (π b))
    (hB : ∀ a, P a → LawfulAs c (fun b => R b ∧ π b = a) (fun b => seq (puts b)) (getB a)) :
    LawfulAs c R (fun b => seq (put (π b) :: puts b)) (get >>= getB) where
  reads := by
    intro b o rest hR ho
    obtain ⟨o1, o2, h1, h2, rfl⟩ := seq_cons_ok.mp ho
    rw [append_assoc, run_bind_ok (hA.roundtrip _ (hP b hR) h1)]
    exact (hB (π b) (hP b hR)).reads rest ⟨hR, rfl⟩ h2
  accepts := by
    intro inp x rest hg
    obtain ⟨a, mid, h1, h2⟩ := of_run_bind hg
    obtain ⟨hPa, o1, ho1, rfl⟩ := hA.strict h1
    obtain ⟨b, ⟨hR, rfl⟩, rfl, o2, ho2, rfl⟩ := (hB a hPa).accepts h2
    exact ⟨b, hR, rfl, o1 ++ o2, seq_cons_ok.mpr ⟨o1, o2, ho1, ho2, rfl⟩, by simp⟩
  noPanic := fun inp => bind_noPanic (hA.noPanic inp) fun a rest h =>
    (hB a (hA.strict h).1).noPanic rest

/-- A read followed by a check that either fails or lets the value through. -/
theorem guard {e : α → ε'} {Q : α → Prop} [DecidablePred Q]
    (π : β → α) (hA : LawfulOn P put get) (hP : ∀ b, R b → P (π b) ∧ Q (π b))
    (hB : ∀ a, P a → Q a → LawfulAs c (fun b => R b ∧ π b = a) (fun b => seq (puts b)) (getB a)) :
    LawfulAs c R (fun b => seq (put (π b) :: puts b))
      (get >>= fun a => if Q a then getB a else Wire.fail (e a)) := by
  refine bind π hA (fun b hb => (hP b hb).1) fun a ha => ?_
  by_cases hq : Q a
  · rw [if_pos hq]; exact hB a ha hq
  · rw [if_neg hq]; exact fail fun b hb => hq (hb.2 ▸ (hP b hb.1).2)

/-- The next argument of a constructor: `c` collects the arguments. -/
theorem arg {δ : Type} {c : α → δ → γ} {Q : α → δ → Prop} {puts : α → δ → List (Put ε)} (hA : LawfulOn P put get)
    (hB : ∀ {a}, LawfulAs (c a) (Q a) (fun d => seq (puts a d)) (getB a)) :
    LawfulAs (fun x : α × δ => c x.1 x.2) (fun x => P x.1 ∧ Q x.1 x.2)
      (fun x => seq (put x.1 :: puts x.1 x.2)) (get >>= getB) :=
  bind Prod.fst hA (fun _ hx => hx.1) fun a ha =>
    { reads := by
        rintro ⟨_, d⟩ o rest ⟨hx, rfl⟩ ho
        exact hB.reads rest hx.2 ho
      accepts := by
        intro inp v rest hg
        obtain ⟨d, hd, rfl, hwritten⟩ := hB.accepts hg
        exact ⟨(a, d), ⟨⟨ha, hd⟩, rfl⟩, rfl, hwritten⟩
      noPanic := hB.noPanic }

theorem done {k : γ} : LawfulAs (fun _ : Unit => k) (fun _ => True)
    (fun _ => seq ([] : List (Put ε))) (Pure.pure k : Get ε' γ) :=
  pure (c := fun _ : Unit => k) (b := ()) (fun _ _ => rfl) trivial

theorem last (h : LawfulAs c R w getC) : LawfulAs c R (fun b => seq [w b]) getC := by
  exact h.congr fun b _ => seq_single (w b)

theorem single (h : LawfulAs c R (fun b => seq [w b]) getC) : LawfulAs c R w getC :=
  h.congr fun b _ => (seq_single (w b)).symm

/-- The values of one constructor, seen as values of the whole type. -/
theorem toOnOf {R' : γ → Prop} {body : γ → Put ε} (h : LawfulAs c R w getC)
    (hR : ∀ x, R' x ↔ ∃ b, R b ∧ x = c b) (hput : ∀ b, R b → body (c b) = w b) : LawfulOn R' body getC := by
  refine LawfulOn.intro ?_ ?_ h.noPanic
  · intro x o rest hx ho
    obtain ⟨b, hb, rfl⟩ := (hR x).mp hx
    rw [hput b hb] at ho
    exact h.reads rest hb ho
  · intro inp x rest hg
    obtain ⟨b, hb, rfl, o, ho, rfl⟩ := h.accepts hg
    exact ⟨(hR _).mpr ⟨b, hb, rfl⟩, o, (hput b hb).trans ho, rfl⟩

theorem toOn {R' : γ → Prop} {body : γ → Put ε} (h : LawfulAs c R w getC) (hR : ∀ x, R' x ↔ ∃ b, R b ∧ x = c b)
    (hput : (fun b => body (c b)) = w) : LawfulOn R' body getC := h.toOnOf hR fun b _ => congrFun hput b

end LawfulAs

namespace LawfulOn

variable {P : α → Prop} {put : α → Put ε} {get : Get ε' α}

theorem repeatGet (h : LawfulOn P put get) (n : Nat) :
    LawfulOn (fun l : List α => l.length = n ∧ ∀ a ∈ l, P a) (fun l => seq (l.map put))
      (Wire.repeatGet get n) := by
  induction n with
  | zero =>
    refine (LawfulAs.pure (c := id) (R := fun l : List α => l.length = 0 ∧ ∀ a ∈ l, P a) (b := [])
      (fun l hl => eq_nil_of_length_eq_zero hl.1) (by simp)).congr ?_
    · rintro l ⟨hl, -⟩; rw [eq_nil_of_length_eq_zero hl]; rfl
  | succ n ih =>
    refine (LawfulAs.arg h (LawfulAs.arg ih LawfulAs.done)).toOnOf (fun l => ?_) fun x _ => ?_
    · constructor
      · rintro ⟨hl, hP⟩
        obtain ⟨a, l, rfl⟩ := exists_cons_of_length_eq_add_one hl
        obtain ⟨ha, hl'⟩ := forall_mem_cons.mp hP
        exact ⟨(a, l, ()), ⟨ha, ⟨succ.inj hl, hl'⟩, trivial⟩, rfl⟩
      · rintro ⟨⟨a, l, _⟩, ⟨ha, ⟨hl, hP⟩, -⟩, rfl⟩
        exact ⟨congrArg succ hl, forall_mem_cons.mpr ⟨ha, hP⟩⟩
    · rw [map_cons, seq_cons, seq_cons, seq_single]

end LawfulOn

/-! ## Sizes and panics of writes -/

def size (p : Put ε) : Nat :=
  match p with
  | .ok b => b.length
  | .error _ => 0

@[simp] theorem size_ok (b : Bytes) : size (.ok b : Put ε) = b.length := rfl

theorem length_of_seq (h : seq ps = .ok b) : b.length = (ps.map size).sum := by
  induction ps generalizing b with
  | nil => cases h; rfl
  | cons p ps ih =>
    obtain ⟨b1, b2, rfl, h2, rfl⟩ := seq_cons_ok.mp h
    simp [ih h2, size]

theorem size_seq_le (ps : List (Put ε)) : size (seq ps) ≤ (ps.map size).sum := by
  cases h : seq ps with
  | ok b => exact le_of_eq (length_of_seq h)
  | error f => exact zero_le

theorem seq_cons_noPanic {p : Put ε} (hp : p ≠ .error .panicked)
    (hps : seq ps ≠ .error .panicked) : seq (p :: ps) ≠ .error .panicked := by
  rw [seq_cons]
  cases p with
  | error f => simpa [Except.bind] using hp
  | ok b =>
    cases hq : seq ps with
    | error f => rw [hq] at hps; simpa [Except.bind] using hps
    | ok bs => simp [Except.bind]

theorem Writes.noPanic {p : Put ε} (h : Writes p) : p ≠ .error .panicked := by
  obtain ⟨b, rfl⟩ := h
  simp

/-! ## One direction at one value -/

/-- The write does not panic, and what it wrote is read back as `a`, whatever
follows it. For formats whose reader accepts more than the writer writes. -/
structure Recovers (put : Put ε) (get : Get ε' α) (a : α) : Prop where
  reads : ∀ b rest, put = .ok b → get.run (b ++ rest) = .ok (a, rest)
  noPanic : put ≠ .error .panicked

theorem LawfulOn.recovers (h : LawfulOn P put get) (ha : P a) (hw : Writes (put a)) : Recovers (put a) get a :=
  ⟨fun _ rest hb => h.roundtrip rest ha hb, hw.noPanic⟩

namespace Recovers

variable {p : Put ε} {ps : List (Put ε)} {a : α} {v : β} {get : Get ε' α} {f : α → Get ε' β}

theorem pure : Recovers (seq ([] : List (Put ε))) (Pure.pure a : Get ε' α) a := by
  refine ⟨fun b rest hb => ?_, by simp⟩
  cases hb
  exact run_pure a rest

theorem bind (h : Recovers p get a) (hf : Recovers (seq ps) (f a) v) :
    Recovers (seq (p :: ps)) (get >>= f) v := by
  refine ⟨fun b rest hb => ?_, seq_cons_noPanic h.noPanic hf.noPanic⟩
  obtain ⟨b1, b2, h1, h2, rfl⟩ := seq_cons_ok.mp hb
  rw [append_assoc, run_bind_ok (h.reads b1 (b2 ++ rest) h1)]
  exact hf.reads b2 rest h2

theorem step (h : ∀ inp, get.run inp = .ok (a, inp)) (hf : Recovers p (f a) v) :
    Recovers p (get >>= f) v := by
  refine ⟨fun b rest hb => ?_, hf.noPanic⟩
  rw [run_bind_ok (h (b ++ rest))]
  exact hf.reads b rest hb

theorem skip {get : Get ε' β} (hp : p ≠ .error .panicked) (h : ∀ b, p = .ok b → b = [])
    (hs : Recovers (seq ps) get v) : Recovers (seq (p :: ps)) get v := by
  refine ⟨fun b rest hb => ?_, seq_cons_noPanic hp hs.noPanic⟩
  obtain ⟨b1, b2, h1, h2, rfl⟩ := seq_cons_ok.mp hb
  rw [h b1 h1]
  exact hs.reads b2 rest h2

theorem last (h : Recovers p get a) : Recovers (seq [p]) get a := by
  rw [seq_single]; exact h

theorem mapError {ε'' : Type} {g : ε' → ε''} (h : Recovers p get a) :
    Recovers p (Wire.mapError g get) a :=
  ⟨fun b rest hb => run_mapError_ok (h.reads b rest hb), h.noPanic⟩

theorem flatten {qs : List (Put ε)} {get : Get ε' β} (h : Recovers (seq (ps ++ qs)) get v) :
    Recovers (seq (seq ps :: qs)) get v := by
  rw [seq_cons_seq]; exact h

end Recovers

/-- A pair of whole-input functions: every value in `P` is encoded and
decoded back, and an accepted input is the encoding of what it decodes to. -/
structure CanonicalCodec (P : α → Prop) (encode : α → Outcome ε Bytes)
    (decode : Bytes → Outcome ε' α) : Prop where
  roundtrip : ∀ a, P a → ∃ b, encode a = .ok b ∧ decode b = .ok a
  strict : ∀ b a, decode b = .ok a → encode a = .ok b
  noPanic : ∀ b, decode b ≠ .error .panicked

/-- A value has one accepted encoding. -/
theorem CanonicalCodec.unique {encode : α → Outcome ε Bytes}
    {decode : Bytes → Outcome ε' α} (h : CanonicalCodec P encode decode) {b' : Bytes}
    (hb : decode b = .ok a) (hb' : decode b' = .ok a) : b = b' := by
  have h1 := h.strict b a hb
  rw [h.strict b' a hb'] at h1
  exact (Except.ok.inj h1).symm

/-! ## Fixed-width big-endian integers -/

def beBytes : Nat → Nat → Bytes
  | 0, _ => []
  | n + 1, v => UInt8.ofNat (v / 256 ^ n) :: beBytes n v

def ofBe : Bytes → Nat
  | [] => 0
  | b :: bs => b.toNat * 256 ^ bs.length + ofBe bs

@[simp] theorem beBytes_length (n v : Nat) : (beBytes n v).length = n := by
  induction n with
  | zero => rfl
  | succ n ih => simp [beBytes, ih]

theorem ofBe_lt (bs : Bytes) : ofBe bs < 256 ^ bs.length := by
  induction bs with
  | nil => simp [ofBe]
  | cons b bs ih =>
    have hb := b.toNat_lt
    have : (b.toNat + 1) * 256 ^ bs.length ≤ 256 * 256 ^ bs.length := mul_le_mul_right _ (by omega)
    simp only [ofBe, length_cons, pow_succ]
    rw [add_mul] at this
    omega

theorem ofBe_beBytes (n v : Nat) : ofBe (beBytes n v) = v % 256 ^ n := by
  induction n with
  | zero => simp [beBytes, ofBe, mod_one]
  | succ n ih =>
    simp only [beBytes, ofBe, beBytes_length, ih, UInt8.toNat_ofNat']
    rw [pow_succ 256 n, mod_mul, mul_comm]
    exact add_comm _ _

theorem beBytes_add_mul (n m k : Nat) : beBytes n (m * 256 ^ n + k) = beBytes n k := by
  induction n generalizing m with
  | zero => rfl
  | succ n ih =>
    have h1 : m * 256 ^ (n + 1) + k = (m * 256) * 256 ^ n + k := by
      rw [pow_succ, mul_assoc, mul_comm 256]
    have h2 : ((m * 256) * 256 ^ n + k) / 256 ^ n = m * 256 + k / 256 ^ n := by
      rw [add_comm, Nat.add_mul_div_right _ _ (Nat.pow_pos (by decide)), add_comm]
    simp only [beBytes]
    rw [h1, ih]
    congr 1
    apply UInt8.toNat_inj.mp
    simp only [UInt8.toNat_ofNat']
    omega

theorem beBytes_ofBe (bs : Bytes) : beBytes bs.length (ofBe bs) = bs := by
  induction bs with
  | nil => rfl
  | cons b bs ih =>
    have h1 : (b.toNat * 256 ^ bs.length + ofBe bs) / 256 ^ bs.length = b.toNat := by
      rw [add_comm, Nat.add_mul_div_right _ _ (Nat.pow_pos (by decide)),
        div_eq_of_lt (ofBe_lt bs), zero_add]
    simp [beBytes, ofBe, h1, beBytes_add_mul, ih]

def leBytes (n value : Nat) : Bytes := (beBytes n value).reverse

def ofLe (bytes : Bytes) : Nat := ofBe bytes.reverse

@[simp] theorem leBytes_length (n value : Nat) : (leBytes n value).length = n := by
  simp [leBytes]

theorem ofLe_leBytes {n value : Nat} (h : value < 256 ^ n) : ofLe (leBytes n value) = value := by
  rw [ofLe, leBytes, reverse_reverse, ofBe_beBytes, mod_eq_of_lt h]

def putFixed (n : Nat) (toNat : α → Nat) (a : α) : Put ε := .ok (beBytes n (toNat a))

/-- Reads `n` bytes as a number; the conversion of a slice of another
length would panic. -/
def getFixed (e : ε) (n : Nat) (ofNat : Nat → α) : Get ε α := do
  let bs ← take e n
  if bs.length = n then return ofNat (ofBe bs) else panic

theorem fixed_lawful (e : ε') (n : Nat) (toNat : α → Nat) (ofNat : Nat → α)
    (hlt : ∀ a, toNat a < 256 ^ n) (h1 : ∀ a, ofNat (toNat a) = a)
    (h2 : ∀ v, v < 256 ^ n → toNat (ofNat v) = v) :
    Lawful (putFixed n toNat : α → Put ε) (getFixed e n ofNat) := by
  refine LawfulOn.intro ?_ ?_ ?_
  · intro a b rest _ hb
    simp only [putFixed, Except.ok.injEq] at hb
    subst hb
    have := run_take_append e (beBytes n (toNat a)) rest
    rw [beBytes_length] at this
    unfold getFixed
    rw [run_bind_ok this, if_pos (beBytes_length _ _), run_pure, ofBe_beBytes,
      mod_eq_of_lt (hlt a), h1]
  · intro inp a rest hg
    obtain ⟨bs, mid, ht, hr⟩ := of_run_bind hg
    obtain ⟨hl, rfl⟩ := take_ok ht
    rw [if_pos hl] at hr
    obtain ⟨rfl, rfl⟩ := hr
    have hlt' := ofBe_lt bs
    rw [hl] at hlt'
    have hb := beBytes_ofBe bs
    rw [hl] at hb
    refine ⟨trivial, bs, ?_, rfl⟩
    simp only [putFixed, h2 _ hlt', hb]
  · refine fun inp => bind_noPanic (take_noPanic e n inp) fun bs rest ht => ?_
    rw [if_pos (take_ok ht).1]
    intro hg; cases hg

end Wire
end Bmux
