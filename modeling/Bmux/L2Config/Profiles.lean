import Bmux.Core.TreeMap

/-!
# Profile inheritance

`packages/config-composition/src/profile.rs` resolves a profile with an explicit stack: a frame per
profile of the active path, with the parents merged so far. `resolve_profile_cached` also keeps what
it has resolved, with the length of the longest chain below it.

`inherited` is the recursive definition of the result. `inherits` shows that both resolvers compute
it, errors included, once the expansion limit is large enough (`expansionsBelow`). What is said of a
cached profile (`Recorded`) is local: its parents are cached too, and merging what is cached for them
gives its value. That the recursion finds the same at any depth is `inherited_recorded`: an active
profile is not cached, and a parent's chain is shorter than its child's.

A merge callback is a function: on an error the value it was merging into is not used again.
-/
namespace Bmux.Config
open Std List

inductive ErrorKind where
  | invalidContext | invalidPolicy | missing | io | notRegular | symlink | boundary | duplicate
  | limit | parse | decode | typeMismatch | unknownProfile | profileCycle
  deriving DecidableEq, Repr

/-- An error has a kind and, when one is known, a source; text locations are left out.
mirrors packages/config-composition/src/lib.rs:88-105 -/
structure Error where
  kind : ErrorKind
  source : Option Nat
  deriving DecidableEq, Repr

def Error.new (kind : ErrorKind) : Error := ⟨kind, none⟩

variable (T : Type)

structure Profile where
  parents : List String
  value : T

structure ProfileLimits where
  maxDepth : Nat
  maxExpansions : Nat

abbrev Profiles := ExtTreeMap String (Profile T) compare

/-- mirrors packages/config-composition/src/profile.rs:78-84 -/
structure Frame where
  name : String
  profile : Profile T
  nextParent : Nat
  result : Option T
  height : Nat

def Frame.fresh {T : Type} (name : String) (profile : Profile T) : Frame T :=
  { name, profile, nextParent := 0, result := none, height := 1 }

abbrev Cache := ExtTreeMap String (T × Nat) compare

/-- The variables of the loop; the head of `stack` is its last frame. -/
structure State where
  stack : List (Frame T)
  cache : Cache T
  active : ExtTreeSet String compare
  expansions : Nat

variable {T : Type}

variable (merge : T → T → Except Error T)

def join (base : Option T) (value : T) : Except Error T :=
  match base with
  | some result => merge result value
  | none => .ok value

def Frame.joined (f : Frame T) (value : T) (height : Nat) : Except Error (Frame T) :=
  (join merge f.result value).map fun result =>
    { f with height := max f.height (height + 1), result := some result }

section Resolver

variable (profiles : Profiles T) (limits : ProfileLimits) (merge : T → T → Except Error T)
  (memoize : Bool)

variable (s : State T)

/-- The next parent of the last frame: a cycle, a cached profile, or a frame of its own.

The counters are unbounded here. Where `checked_add` fails in the source, the sum is over `usize::MAX`
and so over the limit it is compared with.
mirrors packages/config-composition/src/profile.rs:104-145 -/
def enter (frame : Frame T) (rest : List (Frame T)) (parent : String) : Except Error (State T) :=
  let frame := { frame with nextParent := frame.nextParent + 1 }
  if parent ∈ s.active then .error (.new .profileCycle)
  else
    match s.cache[parent]? with
    | some (value, height) =>
      if s.stack.length + height > limits.maxDepth then .error (.new .limit)
      else (frame.joined merge value height).map fun frame => { s with stack := frame :: rest }
    | none =>
      if s.stack.length ≥ limits.maxDepth ∨ s.expansions + 1 > limits.maxExpansions then .error (.new .limit)
      else
        match profiles[parent]? with
        | none => .error (.new .unknownProfile)
        | some profile =>
          .ok { s with
            stack := .fresh parent profile :: frame :: rest
            active := s.active.insert parent
            expansions := s.expansions + 1 }

/-- The last frame's parents are merged: its own value, then on to the frame below, or the result.
mirrors packages/config-composition/src/profile.rs:147-168 -/
def close (frame : Frame T) (rest : List (Frame T)) : Except Error (State T ⊕ T) :=
  match join merge frame.result frame.profile.value, rest with
  | .error e, _ => .error e
  | .ok value, [] => .ok (.inr value)
  | .ok value, parent :: rest =>
    (parent.joined merge value frame.height).map fun parent =>
      .inl { s with
        stack := parent :: rest
        cache := if memoize then s.cache.insert frame.name (value, frame.height) else s.cache
        active := s.active.erase frame.name }

/-- A pass of the loop ends it with a result or goes on.
mirrors packages/config-composition/src/profile.rs:102-169 -/
def pass : Except Error (State T ⊕ T) :=
  match s.stack with
  | [] => .error (.new .invalidPolicy)
  | frame :: rest =>
    match frame.profile.parents[frame.nextParent]? with
    | some parent => (enter profiles limits merge s frame rest parent).map .inl
    | none => close merge memoize s frame rest

def State.pending : Nat :=
  (s.stack.map fun f => f.profile.parents.length - f.nextParent + 1).sum

variable {profiles limits merge memoize}

variable {value : T} {height depth : Nat}

theorem Frame.joined_eq_ok {f f' : Frame T} (h : f.joined merge value height = .ok f') :
    ∃ result, join merge f.result value = .ok result ∧
      f' = { f with height := max f.height (height + 1), result := some result } := by
  unfold Frame.joined at h
  cases hj : join merge f.result value with
  | error e => rw [hj] at h; cases h
  | ok result => rw [hj] at h; cases h; exact ⟨result, rfl, rfl⟩

theorem map_eq_ok {α β : Type} {x : Except Error α} {f : α → β} {b : β} (h : x.map f = .ok b) :
    ∃ a, x = .ok a ∧ f a = b := by
  cases x with
  | error e => cases h
  | ok a => cases h; exact ⟨a, rfl, rfl⟩

variable {s t : State T} {frame : Frame T} {rest : List (Frame T)} {parent name p : String}

theorem enter_decreases
    (hs : s.stack = frame :: rest) (hp : frame.nextParent < frame.profile.parents.length)
    (h : enter profiles limits merge s frame rest parent = .ok t) :
    (s.expansions < t.expansions ∧ t.expansions ≤ limits.maxExpansions) ∨
      (t.expansions = s.expansions ∧ t.pending < s.pending) := by
  unfold enter at h
  split at h
  · cases h
  · split at h
    · split at h
      · cases h
      · obtain ⟨f, hf, rfl⟩ := map_eq_ok h
        obtain ⟨result, -, rfl⟩ := Frame.joined_eq_ok hf
        right
        simp only [State.pending, hs, map_cons, sum_cons, true_and]
        omega
    · split at h
      · cases h
      · split at h
        · cases h
        · cases h
          left
          dsimp only
          omega

theorem close_decreases
    (hs : s.stack = frame :: rest) (h : close merge memoize s frame rest = .ok (.inl t)) :
    t.expansions = s.expansions ∧ t.pending < s.pending := by
  unfold close at h
  split at h
  · cases h
  · cases h
  · obtain ⟨f, hf, ht⟩ := map_eq_ok h
    obtain ⟨result, -, rfl⟩ := Frame.joined_eq_ok hf
    cases ht
    simp [State.pending, hs]

/-- A pass that goes on has pushed a frame, within the limit, or has visited a parent or closed a frame. -/
theorem pass_decreases (h : pass profiles limits merge memoize s = .ok (.inl t)) :
    (s.expansions < t.expansions ∧ t.expansions ≤ limits.maxExpansions) ∨
      (t.expansions = s.expansions ∧ t.pending < s.pending) := by
  unfold pass at h
  split at h
  · cases h
  · rename_i frame rest hs
    split at h
    · rename_i parent hp
      obtain ⟨t', ht', he⟩ := map_eq_ok h
      cases he
      exact enter_decreases hs (List.getElem?_eq_some_iff.mp hp).1 ht'
    · exact .inr (close_decreases hs h)

variable (profiles limits merge memoize)

def loop (s : State T) : Except Error T :=
  match _h : pass profiles limits merge memoize s with
  | .error e => .error e
  | .ok (.inr value) => .ok value
  | .ok (.inl t) => loop t
termination_by (limits.maxExpansions - s.expansions, s.pending)
decreasing_by
  rcases pass_decreases _h with ⟨hlt, hle⟩ | ⟨heq, hlt⟩
  · exact Prod.Lex.left _ _ (by omega)
  · rw [heq]; exact Prod.Lex.right _ hlt

def resolveProfileImpl (name : String) : Except Error T :=
  if limits.maxDepth = 0 ∨ limits.maxExpansions = 0 then .error (.new .limit)
  else
    match profiles[name]? with
    | none => .error (.new .unknownProfile)
    | some profile =>
      loop profiles limits merge memoize
        { stack := [.fresh name profile], cache := ∅, active := {name}, expansions := 1 }

def resolveProfile (name : String) : Except Error T := resolveProfileImpl profiles limits merge false name

def resolveProfileCached (name : String) : Except Error T := resolveProfileImpl profiles limits merge true name

/-! ## The recursive definition -/

def visit (resolve : String → Except Error T) (active : List String) (base : Option T) (parent : String) :
    Except Error (Option T) :=
  if parent ∈ active then .error (.new .profileCycle)
  else do
    let value ← resolve parent
    let result ← join merge base value
    return some result

/-- The parents in order, then the profile's own value. Chains of at most `depth` profiles, none of
them active. -/
def inherited : Nat → List String → String → Except Error T
  | 0, _, _ => .error (.new .limit)
  | depth + 1, active, name =>
    match profiles[name]? with
    | none => .error (.new .unknownProfile)
    | some profile => do
      let base ← profile.parents.foldlM (visit merge (inherited depth (name :: active)) (name :: active)) none
      join merge base profile.value

/-- The profiles visited below these, each as often as it is inherited. -/
def expansionsBelow : Nat → List String → Nat
  | 0, _ => 0
  | depth + 1, parents =>
    (parents.map fun parent => 1 + expansionsBelow depth ((profiles[parent]?.map Profile.parents).getD [])).sum

variable {profiles limits merge memoize}

/-! ## What is cached -/

def gather (merge : T → T → Except Error T) (cache : Cache T) (b : Option T × Nat) (parent : String) :
    Option (Option T × Nat) := do
  let (value, height) ← cache[parent]?
  let result ← (join merge b.1 value).toOption
  return (some result, max b.2 (height + 1))

/-- A cached profile is merged from cached parents. -/
def Recorded (profiles : Profiles T) (merge : T → T → Except Error T) (cache : Cache T) : Prop :=
  ∀ (name : String) (value : T) (height : Nat), cache[name]? = some (value, height) →
    ∃ (profile : Profile T) (base : Option T), profiles[name]? = some profile ∧
      profile.parents.foldlM (gather merge cache) (none, 1) = some (base, height) ∧
      join merge base profile.value = .ok value

def Extends (old new : Cache T) : Prop := ∀ (name : String) (e : T × Nat), old[name]? = some e → new[name]? = some e

theorem Extends.refl (cache : Cache T) : Extends cache cache := fun _ _ h => h

theorem Extends.trans {c₁ c₂ c₃ : Cache T} (h₁ : Extends c₁ c₂) (h₂ : Extends c₂ c₃) : Extends c₁ c₃ :=
  fun name e h => h₂ name e (h₁ name e h)

variable {cache : Cache T}

theorem Extends.insert (h : cache[name]? = none) (e : T × Nat) :
    Extends cache (cache.insert name e) := by
  intro a b hb
  rw [TreeMap.getElem?_insert]
  split
  · rename_i heq; subst heq; rw [h] at hb; cases hb
  · exact hb

variable {b b' : Option T × Nat} {parents : List String}

theorem toOption_eq_some {α : Type} {x : Except Error α} {a : α} : x.toOption = some a ↔ x = .ok a := by
  cases x <;> simp [Except.toOption]

theorem gather_eq_some : gather merge cache b parent = some b' ↔
      ∃ value height result, cache[parent]? = some (value, height) ∧ join merge b.1 value = .ok result ∧
        b' = (some result, max b.2 (height + 1)) := by
  simp only [gather, Option.bind_eq_bind, Option.bind_eq_some_iff, toOption_eq_some, Option.pure_def, Option.some.injEq,
    Prod.exists]
  constructor
  · rintro ⟨value, height, hc, result, hj, rfl⟩
    exact ⟨value, height, result, hc, hj, rfl⟩
  · rintro ⟨value, height, result, hc, hj, rfl⟩
    exact ⟨value, height, hc, result, hj, rfl⟩

theorem gather_extends {old new : Cache T} (h : Extends old new) (hg : parents.foldlM (gather merge old) b = some b') :
    parents.foldlM (gather merge new) b = some b' := by
  induction parents generalizing b with
  | nil => exact hg
  | cons p ps ih =>
    rw [foldlM_cons, Option.bind_eq_bind, Option.bind_eq_some_iff] at hg ⊢
    obtain ⟨b₁, h₁, hps⟩ := hg
    obtain ⟨value, height, result, hc, hj, he⟩ := gather_eq_some.mp h₁
    exact ⟨b₁, gather_eq_some.mpr ⟨value, height, result, h p _ hc, hj, he⟩, ih hps⟩

variable {profile : Profile T} {base : Option T}

theorem Recorded.insert (h : Recorded profiles merge cache) (hnew : cache[name]? = none)
    (hprofile : profiles[name]? = some profile)
    (hbase : profile.parents.foldlM (gather merge cache) (none, 1) = some (base, height))
    (hvalue : join merge base profile.value = .ok value) :
    Recorded profiles merge (cache.insert name (value, height)) := by
  have hext := Extends.insert hnew (value, height)
  intro a v k ha
  rcases TreeMap.of_insert ha with ⟨rfl, heq⟩ | ha
  · cases heq
    exact ⟨profile, base, hprofile, gather_extends hext hbase, hvalue⟩
  · obtain ⟨profile', base', hp, hb, hv⟩ := h a v k ha
    exact ⟨profile', base', hp, gather_extends hext hb, hv⟩

theorem gather_height
    (h : parents.foldlM (gather merge cache) b = some b') :
    b.2 ≤ b'.2 ∧ ∀ p ∈ parents, ∃ value height, cache[p]? = some (value, height) ∧ height < b'.2 := by
  induction parents generalizing b with
  | nil => cases h; simp
  | cons p ps ih =>
    rw [foldlM_cons, Option.bind_eq_bind, Option.bind_eq_some_iff] at h
    obtain ⟨b₁, h₁, hps⟩ := h
    obtain ⟨value, height, result, hc, -, rfl⟩ := gather_eq_some.mp h₁
    obtain ⟨hle, hmem⟩ := ih hps
    exact ⟨by omega, forall_mem_cons.mpr ⟨⟨value, height, hc, by omega⟩, hmem⟩⟩

variable {active ps : List String}

/-- If the recursion finds each parent as cached, it merges them as cached, up to the first that is too
high for the depth. -/
theorem visit_gather {resolve : String → Except Error T}
    (h : parents.foldlM (gather merge cache) b = some b') (hb : b.2 ≤ depth + 1)
    (hresolve : ∀ p ∈ parents, ∀ value height, cache[p]? = some (value, height) →
      p ∉ active ∧ resolve p = if height ≤ depth then .ok value else .error (.new .limit)) :
    parents.foldlM (visit merge resolve active) b.1 =
      if b'.2 ≤ depth + 1 then .ok b'.1 else .error (.new .limit) := by
  induction parents generalizing b with
  | nil => cases h; rw [if_pos hb]; rfl
  | cons p ps ih =>
    rw [foldlM_cons, Option.bind_eq_bind, Option.bind_eq_some_iff] at h
    obtain ⟨b₁, h₁, hps⟩ := h
    obtain ⟨value, height, result, hc, hj, rfl⟩ := gather_eq_some.mp h₁
    obtain ⟨hp, hr⟩ := hresolve p mem_cons_self value height hc
    have hle := (gather_height hps).1
    rw [foldlM_cons]
    by_cases hh : height ≤ depth
    · have hv : visit merge resolve active b.1 p = .ok (some result) := by
        simp [visit, if_neg hp, hr, if_pos hh, bind, Except.bind, hj, pure, Except.pure]
      rw [hv]
      exact ih hps (by omega) fun q hq => hresolve q (mem_cons_of_mem p hq)
    · have hv : visit merge resolve active b.1 p = .error (.new .limit) := by
        unfold visit
        rw [if_neg hp, hr, if_neg hh]
        rfl
      rw [hv, if_neg (by omega)]
      rfl

/-- The recursion agrees with the cache at every depth, as long as no profile of the active path is
cached with a height at or below the one asked for. -/
theorem inherited_recorded (h : Recorded profiles merge cache)
    (hc : cache[name]? = some (value, height))
    (hactive : ∀ a ∈ active, ∀ e, cache[a]? = some e → height < e.2) :
    inherited profiles merge depth active name = if height ≤ depth then .ok value else .error (.new .limit) := by
  induction depth generalizing active name value height with
  | zero =>
    obtain ⟨profile, base, -, hb, -⟩ := h name value height hc
    have hpos := (gather_height hb).1
    rw [if_neg (by omega)]
    rfl
  | succ depth ih =>
    obtain ⟨profile, base, hp, hb, hv⟩ := h name value height hc
    -- a parent is lower than the profile, and so than all that is active
    have hparents : ∀ p ∈ profile.parents, ∀ v k, cache[p]? = some (v, k) → p ∉ name :: active ∧
        inherited profiles merge depth (name :: active) p = if k ≤ depth then .ok v else .error (.new .limit) := by
      intro p hmem v k hpc
      obtain ⟨v', k', hpc', hlt⟩ := (gather_height hb).2 p hmem
      rw [hpc] at hpc'
      cases hpc'
      have habove : ∀ a ∈ name :: active, ∀ e, cache[a]? = some e → k < e.2 := by
        intro a ha e he
        rcases mem_cons.mp ha with rfl | ha
        · rw [hc] at he; cases he; exact hlt
        · exact Nat.lt_trans hlt (hactive a ha e he)
      exact ⟨fun hm => lt_irrefl _ (habove p hm _ hpc), ih hpc habove⟩
    rw [inherited, hp]
    simp only
    rw [visit_gather hb (by omega) hparents]
    by_cases hh : height ≤ depth + 1
    · rw [if_pos hh, if_pos hh]; exact hv
    · rw [if_neg hh, if_neg hh]; rfl

/-! ## The loop -/

theorem loop_error {e : Error} (h : pass profiles limits merge memoize s = .error e) :
    loop profiles limits merge memoize s = .error e := by
  rw [loop.eq_def]
  split <;> simp_all

theorem loop_next (h : pass profiles limits merge memoize s = .ok (.inl t)) :
    loop profiles limits merge memoize s = loop profiles limits merge memoize t := by
  rw [loop.eq_def]
  split <;> simp_all

theorem loop_done (h : pass profiles limits merge memoize s = .ok (.inr value)) :
    loop profiles limits merge memoize s = .ok value := by
  rw [loop.eq_def]
  split <;> simp_all

theorem pass_enter
    (hs : s.stack = frame :: rest) (hp : frame.profile.parents.drop frame.nextParent = parent :: parents) :
    pass profiles limits merge memoize s = (enter profiles limits merge s frame rest parent).map .inl := by
  simp [pass, hs, ← head?_drop, hp]

theorem pass_close
    (hs : s.stack = frame :: rest) (hp : frame.profile.parents.drop frame.nextParent = []) :
    pass profiles limits merge memoize s = close merge memoize s frame rest := by
  simp [pass, hs, ← head?_drop, hp]

def State.names (s : State T) : List String := s.stack.map Frame.name

/-- The loop's invariant, with `depth` frames to go until the limit. -/
structure Sound (profiles : Profiles T) (limits : ProfileLimits) (merge : T → T → Except Error T)
    (depth : Nat) (s : State T) : Prop where
  active : ∀ name, name ∈ s.active ↔ name ∈ s.names
  nodup : s.names.Nodup
  room : s.stack.length + depth = limits.maxDepth
  recorded : Recorded profiles merge s.cache
  apart : ∀ name ∈ s.names, s.cache[name]? = none

theorem Sound.inherited (h : Sound profiles limits merge depth s) (hc : s.cache[name]? = some (value, height)) :
    inherited profiles merge depth s.names name = if height ≤ depth then .ok value else .error (.new .limit) := by
  refine inherited_recorded h.recorded hc ?_
  intro a ha e he
  rw [h.apart a ha] at he
  cases he

structure Advanced (profiles : Profiles T) (limits : ProfileLimits) (merge : T → T → Except Error T)
    (memoize : Bool) (depth : Nat) (s : State T) (frame : Frame T) (rest : List (Frame T))
    (parents : List String) (base : Option T) (t : State T) (height : Nat) : Prop where
  stack : t.stack = { frame with nextParent := frame.nextParent + parents.length, result := base, height } :: rest
  sound : Sound profiles limits merge depth t
  kept : Extends s.cache t.cache
  spent : t.expansions ≤ s.expansions + expansionsBelow profiles depth parents
  gathered : memoize = true →
    parents.foldlM (gather merge t.cache) (frame.result, frame.height) = some (base, height)
  loop : loop profiles limits merge memoize s = Config.loop profiles limits merge memoize t

/-- The loop follows the recursion: an error ends it, and a result is in the last frame. -/
def Follows (profiles : Profiles T) (limits : ProfileLimits) (merge : T → T → Except Error T)
    (memoize : Bool) (depth : Nat) (s : State T) (frame : Frame T) (rest : List (Frame T))
    (parents : List String) : Except Error (Option T) → Prop
  | .error e => loop profiles limits merge memoize s = .error e
  | .ok base => ∃ t height, Advanced profiles limits merge memoize depth s frame rest parents base t height

/-- Every frame with `depth` to go follows the recursion on its next parent. -/
def VisitsFollow (profiles : Profiles T) (limits : ProfileLimits) (merge : T → T → Except Error T)
    (memoize : Bool) (depth : Nat) : Prop :=
  ∀ ⦃s : State T⦄ ⦃frame : Frame T⦄ ⦃rest : List (Frame T)⦄ ⦃p : String⦄ ⦃ps : List String⦄,
    s.stack = frame :: rest → frame.profile.parents.drop frame.nextParent = p :: ps →
    Sound profiles limits merge depth s → s.expansions + expansionsBelow profiles depth [p] ≤ limits.maxExpansions →
    Follows profiles limits merge memoize depth s frame rest [p]
      (visit merge (inherited profiles merge depth s.names) s.names frame.result p)

theorem expansionsBelow_cons (depth : Nat) (p : String) (ps : List String) :
    expansionsBelow profiles depth (p :: ps) =
      expansionsBelow profiles depth [p] + expansionsBelow profiles depth ps := by
  cases depth <;> simp [expansionsBelow]

theorem Advanced.cons {u : State T} {base' : Option T} {height' : Nat}
    (h : Advanced profiles limits merge memoize depth s frame rest [p] base t height)
    (h' : Advanced profiles limits merge memoize depth t
      { frame with nextParent := frame.nextParent + 1, result := base, height } rest ps base' u height') :
    Advanced profiles limits merge memoize depth s frame rest (p :: ps) base' u height' where
  stack := by rw [h'.stack, length_cons, add_assoc, add_comm 1]
  sound := h'.sound
  kept := h.kept.trans h'.kept
  spent := by
    have h₁ := h.spent
    have h₂ := h'.spent
    rw [expansionsBelow_cons]
    omega
  gathered hm := by
    have hp := gather_extends h'.kept (h.gathered hm)
    simp only [foldlM_cons, foldlM_nil, bind_pure] at hp
    rw [foldlM_cons, hp]
    exact h'.gathered hm
  loop := h.loop.trans h'.loop

theorem Advanced.names (hs : s.stack = frame :: rest)
    (h : Advanced profiles limits merge memoize depth s frame rest parents base t height) : t.names = s.names := by
  unfold State.names
  rw [h.stack, hs]
  rfl

/-- From one parent to all the parents of a frame. -/
theorem VisitsFollow.all_parents (hvisit : VisitsFollow profiles limits merge memoize depth)
    (hs : s.stack = frame :: rest) (hp : frame.profile.parents.drop frame.nextParent = parents)
    (hsound : Sound profiles limits merge depth s)
    (hroom : s.expansions + expansionsBelow profiles depth parents ≤ limits.maxExpansions) :
    Follows profiles limits merge memoize depth s frame rest parents
      (parents.foldlM (visit merge (inherited profiles merge depth s.names) s.names) frame.result) := by
  induction parents generalizing s frame with
  | nil =>
    refine ⟨s, frame.height, hs, hsound, .refl _, ?_, fun _ => rfl, rfl⟩
    exact Nat.le_add_right _ _
  | cons p ps ih =>
    rw [expansionsBelow_cons] at hroom
    have hfirst := hvisit hs hp hsound (by omega)
    rw [foldlM_cons]
    cases hv : visit merge (inherited profiles merge depth s.names) s.names frame.result p with
    | error e => rw [hv] at hfirst; exact hfirst
    | ok base =>
      rw [hv] at hfirst
      obtain ⟨t, height, ht⟩ := hfirst
      have hspent := ht.spent
      have hdrop : frame.profile.parents.drop (frame.nextParent + 1) = ps := by
        rw [← drop_drop, hp]; rfl
      have hrest := ih ht.stack hdrop ht.sound (by omega)
      rw [ht.names hs] at hrest
      show Follows profiles limits merge memoize depth s frame rest (p :: ps)
        (ps.foldlM (visit merge (inherited profiles merge depth s.names) s.names) base)
      cases hf : ps.foldlM (visit merge (inherited profiles merge depth s.names) s.names) base with
      | error e => rw [hf] at hrest; exact ht.loop.trans hrest
      | ok base' =>
        rw [hf] at hrest
        obtain ⟨u, height', hu⟩ := hrest
        exact ⟨u, height', ht.cons hu⟩

/-- A frame that is new follows the recursion up to the last of its parents. -/
theorem VisitsFollow.fresh (hvisit : VisitsFollow profiles limits merge memoize depth) {names : List String}
    (hs : s.stack = .fresh p profile :: rest) (hnames : s.names = p :: names) (hprofile : profiles[p]? = some profile)
    (hsound : Sound profiles limits merge depth s)
    (hroom : s.expansions + expansionsBelow profiles depth profile.parents ≤ limits.maxExpansions) :
    match inherited profiles merge (depth + 1) names p with
    | .error e => loop profiles limits merge memoize s = .error e
    | .ok value => ∃ t base height, join merge base profile.value = .ok value ∧
      Advanced profiles limits merge memoize depth s (.fresh p profile) rest profile.parents base t height := by
  have hrun := hvisit.all_parents hs rfl hsound hroom
  rw [hnames] at hrun
  simp only [Frame.fresh, drop_zero] at hrun
  simp only [inherited, hprofile]
  cases hf : profile.parents.foldlM (visit merge (inherited profiles merge depth (p :: names)) (p :: names)) none with
  | error e => rw [hf] at hrun; exact hrun
  | ok base =>
    rw [hf] at hrun
    obtain ⟨t, height, ht⟩ := hrun
    dsimp only [bind, Except.bind]
    cases hv : join merge base profile.value with
    | error e =>
      have hclose : pass profiles limits merge memoize t = _ := pass_close ht.stack (by simp)
      simp only [close, hv] at hclose
      exact ht.loop.trans (loop_error hclose)
    | ok value => exact ⟨t, base, height, hv, ht⟩

theorem visit_of_not_mem {resolve : String → Except Error T} (h : p ∉ active) :
    visit merge resolve active base p = resolve p >>= fun value => (join merge base value).map some := by
  unfold visit
  rw [if_neg h]
  cases resolve p with
  | error e => rfl
  | ok value =>
    cases join merge base value <;> rfl

/-- A parent that is cached is merged without another frame. -/
theorem follows_cached (hs : s.stack = frame :: rest)
    (hp : frame.profile.parents.drop frame.nextParent = p :: ps) (hsound : Sound profiles limits merge depth s)
    (hnot : p ∉ s.names) (hc : s.cache[p]? = some (value, height)) :
    Follows profiles limits merge memoize depth s frame rest [p]
      (visit merge (inherited profiles merge depth s.names) s.names frame.result p) := by
  have hactive : p ∉ s.active := fun h => hnot ((hsound.active p).mp h)
  have hroom := hsound.room
  have hpass : pass profiles limits merge memoize s = _ := pass_enter hs hp
  rw [visit_of_not_mem hnot, hsound.inherited hc]
  unfold enter at hpass
  simp only [hactive, if_false, hc] at hpass
  by_cases hh : height ≤ depth
  · rw [if_neg (by omega)] at hpass
    rw [if_pos hh]
    show Follows profiles limits merge memoize depth s frame rest [p] ((join merge frame.result value).map some)
    unfold Frame.joined at hpass
    cases hj : join merge frame.result value with
    | error e => rw [hj] at hpass; exact loop_error hpass
    | ok result =>
      rw [hj] at hpass
      let t : State T := { s with stack := { frame with
        nextParent := frame.nextParent + 1
        result := some result
        height := max frame.height (height + 1) } :: rest }
      have hnames : t.names = s.names := by simp only [t, State.names, hs, map_cons]
      refine ⟨t, max frame.height (height + 1), rfl, ?_, .refl _, Nat.le_add_right _ _, ?_, loop_next hpass⟩
      · exact
          { active := by rw [hnames]; exact hsound.active
            nodup := by rw [hnames]; exact hsound.nodup
            room := by rw [hs] at hroom; exact hroom
            recorded := hsound.recorded
            apart := by rw [hnames]; exact hsound.apart }
      · intro _
        rw [foldlM_cons, gather_eq_some.mpr ⟨value, height, result, hc, hj, rfl⟩]
        rfl
  · rw [if_pos (by omega)] at hpass
    rw [if_neg hh]
    exact loop_error hpass

theorem Sound.push (h : Sound profiles limits merge (depth + 1) s)
    (hnot : p ∉ s.names) (hc : s.cache[p]? = none) {frame' : Frame T}
    (hs : s.stack = frame :: rest) (hname : frame'.name = frame.name) {n : Nat} :
    Sound profiles limits merge depth
      { s with stack := .fresh p profile :: frame' :: rest, active := s.active.insert p, expansions := n } := by
  have hnames : State.names { s with
      stack := .fresh p profile :: frame' :: rest, active := s.active.insert p, expansions := n } = p :: s.names := by
    simp only [State.names, hs, map_cons, hname, Frame.fresh]
  have hroom := h.room
  rw [hs] at hroom
  refine ⟨?_, ?_, ?_, h.recorded, ?_⟩
  · intro name
    rw [hnames, ExtTreeSet.mem_insert, Std.compare_eq_iff_eq, mem_cons, h.active]
    exact or_congr_left eq_comm
  · rw [hnames]; exact nodup_cons.mpr ⟨hnot, h.nodup⟩
  · simp only [length_cons] at hroom ⊢; omega
  · rw [hnames]
    exact forall_mem_cons.mpr ⟨hc, h.apart⟩

/-- Closing a frame: what was cached stays, and the frame's profile may join it. -/
theorem Sound.pop (h : Sound profiles limits merge depth s) {closed frame' : Frame T}
    (hs : s.stack = closed :: frame :: rest) (hname : frame'.name = frame.name) (hcache : Recorded profiles merge cache)
    (hsame : ∀ name : String, name ≠ closed.name → cache[name]? = s.cache[name]?) :
    Sound profiles limits merge (depth + 1)
      { s with stack := frame' :: rest, cache, active := s.active.erase closed.name } := by
  have hnames : s.names = closed.name :: State.names { s with
      stack := frame' :: rest, cache, active := s.active.erase closed.name } := by
    simp only [State.names, hs, map_cons, hname]
  have hnodup := h.nodup
  rw [hnames] at hnodup
  obtain ⟨hnot, hnodup⟩ := nodup_cons.mp hnodup
  have hroom := h.room
  rw [hs] at hroom
  refine ⟨?_, hnodup, ?_, hcache, ?_⟩
  · intro name
    rw [ExtTreeSet.mem_erase, h.active, hnames, mem_cons]
    constructor
    · rintro ⟨hne, rfl | hmem⟩
      · simp at hne
      · exact hmem
    · intro hmem
      refine ⟨?_, .inr hmem⟩
      rw [ne_eq, Std.compare_eq_iff_eq]
      rintro rfl
      exact hnot hmem
  · simp only [length_cons] at hroom ⊢; omega
  · intro name hmem
    have hne : name ≠ closed.name := fun heq => hnot (heq ▸ hmem)
    rw [hsame name hne]
    exact h.apart name (hnames ▸ mem_cons_of_mem _ hmem)

theorem remembered (h : Recorded profiles merge cache) (hnew : cache[name]? = none)
    (hprofile : profiles[name]? = some profile)
    (hbase : memoize = true → profile.parents.foldlM (gather merge cache) (none, 1) = some (base, height))
    (hvalue : join merge base profile.value = .ok value) :
    let cache' := if memoize then cache.insert name (value, height) else cache
    Recorded profiles merge cache' ∧ Extends cache cache' ∧ ∀ a : String, a ≠ name → cache'[a]? = cache[a]? := by
  cases memoize with
  | false => exact ⟨h, .refl _, fun _ _ => rfl⟩
  | true =>
    refine ⟨h.insert hnew hprofile (hbase rfl) hvalue, .insert hnew _, ?_⟩
    intro a ha
    rw [if_pos rfl, TreeMap.getElem?_insert, if_neg (Ne.symm ha)]

/-- A parent that is not cached: its frame is pushed, its own parents are merged, and its result is popped. -/
theorem follows_pushed (hvisit : VisitsFollow profiles limits merge memoize depth)
    (hs : s.stack = frame :: rest) (hp : frame.profile.parents.drop frame.nextParent = p :: ps)
    (hsound : Sound profiles limits merge (depth + 1) s)
    (hroom : s.expansions + expansionsBelow profiles (depth + 1) [p] ≤ limits.maxExpansions)
    (hnot : p ∉ s.names) (hc : s.cache[p]? = none) (hprofile : profiles[p]? = some profile) :
    Follows profiles limits merge memoize (depth + 1) s frame rest [p]
      (visit merge (inherited profiles merge (depth + 1) s.names) s.names frame.result p) := by
  have hactive : p ∉ s.active := fun h => hnot ((hsound.active p).mp h)
  have hlen := hsound.room
  have hbelow : expansionsBelow profiles (depth + 1) [p] = 1 + expansionsBelow profiles depth profile.parents := by
    simp [expansionsBelow, hprofile]
  have hpass : pass profiles limits merge memoize s = _ := pass_enter hs hp
  unfold enter at hpass
  simp only [hactive, if_false, hc, hprofile] at hpass
  rw [if_neg (by omega)] at hpass
  -- the frame of the parent, up to the last of its own parents
  let t : State T := { s with
    stack := .fresh p profile :: { frame with nextParent := frame.nextParent + 1 } :: rest
    active := s.active.insert p
    expansions := s.expansions + 1 }
  have hstart : loop profiles limits merge memoize s = loop profiles limits merge memoize t := loop_next hpass
  have hnames : t.names = p :: s.names := by simp only [t, State.names, hs, map_cons, Frame.fresh]
  have hinner := hvisit.fresh (s := t) rfl hnames hprofile (hsound.push hnot hc hs (by rfl)) (by simp only [t]; omega)
  rw [visit_of_not_mem hnot]
  cases hi : inherited profiles merge (depth + 1) s.names p with
  | error e => rw [hi] at hinner; exact hstart.trans hinner
  | ok value =>
    rw [hi] at hinner
    obtain ⟨u, base, height, hv, hu⟩ := hinner
    have hclose : pass profiles limits merge memoize u = _ := pass_close hu.stack (by simp [Frame.fresh])
    simp only [close, Frame.fresh, hv, Frame.joined] at hclose
    show Follows profiles limits merge memoize (depth + 1) s frame rest [p] ((join merge frame.result value).map some)
    cases hj : join merge frame.result value with
    | error e =>
      simp only [hj] at hclose
      exact (hstart.trans hu.loop).trans (loop_error hclose)
    | ok result =>
      simp only [hj] at hclose
      have hnew : u.cache[p]? = none := hu.sound.apart p (by simp [State.names, hu.stack, Frame.fresh])
      obtain ⟨hrecorded, hkept, hsame⟩ := remembered hu.sound.recorded hnew hprofile hu.gathered hv
      refine ⟨_, max frame.height (height + 1), rfl, ?_, hu.kept.trans hkept, ?_, ?_,
        (hstart.trans hu.loop).trans (loop_next hclose)⟩
      · refine hu.sound.pop hu.stack ?_ hrecorded hsame
        rfl
      · have hspent := hu.spent
        show u.expansions ≤ _
        simp only [t] at hspent
        omega
      · intro hm
        subst hm
        rw [foldlM_cons, gather_eq_some.mpr ⟨value, height, result, by simp, hj, rfl⟩]
        rfl

/-- By induction on the depth that is left. -/
theorem visitsFollow (depth : Nat) : VisitsFollow profiles limits merge memoize depth := by
  refine Nat.strong_induction_on depth fun depth ih => ?_
  intro s frame rest p ps hs hp hsound hroom
  have hpass : pass profiles limits merge memoize s = _ := pass_enter hs hp
  have hlen := hsound.room
  unfold enter at hpass
  by_cases hnot : p ∈ s.names
  · rw [if_pos ((hsound.active p).mpr hnot)] at hpass
    unfold visit
    rw [if_pos hnot]
    exact loop_error hpass
  · cases hc : s.cache[p]? with
    | some e => exact follows_cached hs hp hsound hnot hc
    | none =>
      rw [if_neg fun h => hnot ((hsound.active p).mp h)] at hpass
      simp only [hc] at hpass
      cases depth with
      | zero =>
        rw [if_pos (by omega)] at hpass
        rw [visit_of_not_mem hnot]
        exact loop_error hpass
      | succ depth =>
        cases hprofile : profiles[p]? with
        | some profile => exact follows_pushed (ih depth (Nat.lt_succ_self _)) hs hp hsound hroom hnot hc hprofile
        | none =>
          have hbelow : 1 ≤ expansionsBelow profiles (depth + 1) [p] := by simp [expansionsBelow]
          rw [if_neg (by omega), hprofile] at hpass
          rw [visit_of_not_mem hnot, inherited, hprofile]
          exact loop_error hpass

/-- Both resolvers compute the recursive definition. -/
theorem resolveProfileImpl_eq
    (h : 1 + expansionsBelow profiles limits.maxDepth [name] ≤ limits.maxExpansions) :
    resolveProfileImpl profiles limits merge memoize name = inherited profiles merge limits.maxDepth [] name := by
  unfold resolveProfileImpl
  cases hdepth : limits.maxDepth with
  | zero => rw [if_pos (.inl rfl), inherited]
  | succ depth =>
    rw [hdepth] at h
    rw [if_neg (by omega)]
    cases hprofile : profiles[name]? with
    | none => rw [inherited, hprofile]
    | some profile =>
      let s : State T := { stack := [.fresh name profile], cache := ∅, active := {name}, expansions := 1 }
      have hsound : Sound profiles limits merge depth s := by
        refine ⟨?_, ?_, ?_, ?_, ?_⟩
        · intro a
          have hleft : a ∈ s.active ↔ name = a := by simp [s]
          rw [hleft, State.names, map_singleton, mem_singleton]
          exact eq_comm
        · simp [s, State.names]
        · simp only [s, length_singleton, hdepth]; omega
        · intro a value height ha
          simp [s] at ha
        · intro a _
          simp [s]
      have hbelow : expansionsBelow profiles (depth + 1) [name] =
        1 + expansionsBelow profiles depth profile.parents := by
        simp [expansionsBelow, hprofile]
      have hvisits : VisitsFollow profiles limits merge memoize depth := visitsFollow depth
      have hnames : s.names = [name] := rfl
      have hrun := hvisits.fresh (s := s) rfl hnames hprofile hsound (by simp only [s]; omega)
      cases hi : inherited profiles merge (depth + 1) [] name with
      | error e => rw [hi] at hrun; exact hrun
      | ok value =>
        rw [hi] at hrun
        obtain ⟨t, base, height, hv, ht⟩ := hrun
        have hclose : pass profiles limits merge memoize t = _ := pass_close ht.stack (by simp [Frame.fresh])
        simp only [close, Frame.fresh, hv] at hclose
        exact ht.loop.trans (loop_done hclose)

end Resolver

/-- With no expansion limit in the way, both resolvers return what the recursive definition does: the
value, or the first error in the order of the traversal. -/
theorem profile_inheritance (profiles : Profiles T) (merge : T → T → Except Error T) (depth : Nat) (name : String) :
    ∃ bound, ∀ expansions ≥ bound,
      resolveProfile profiles ⟨depth, expansions⟩ merge name = inherited profiles merge depth [] name ∧
      resolveProfileCached profiles ⟨depth, expansions⟩ merge name = inherited profiles merge depth [] name := by
  refine ⟨1 + expansionsBelow profiles depth [name], ?_⟩
  intro expansions h
  exact ⟨resolveProfileImpl_eq h, resolveProfileImpl_eq h⟩

end Bmux.Config
