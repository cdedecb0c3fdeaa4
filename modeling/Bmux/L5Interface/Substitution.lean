import Bmux.L1Encoding.Canonical

/-!
# Variables in playbook values (`packages/playbook/src/subst.rs`)

`resolve` scans the bytes of a template for `$${` and for `${` with a closing brace, and pushes every
other byte as a character. A byte of a longer character is thereby written as a character of its own
(`Sample.mangled`).

`resolve_pieces` says that it replaces the references and leaves the rest exactly in templates whose text
outside of them is ASCII. Texts are their UTF-8 bytes: 36 is `$`, 123 and 125 are the braces.
-/
namespace Bmux.Playbook
open List

open Canonical (utf8 fromUtf8)

structure RuntimeVars where
  staticVars : Bytes → Option Bytes
  sessionId : Option Bytes
  sessionName : Option Bytes
  paneCount : Nat
  focusedPane : Nat
  /-- `std::env::var` -/
  env : Bytes → Option Bytes

def byteAsChar (b : UInt8) : Bytes := if b < 128 then [b]
    else [(192 : UInt8) ||| (b >>> 6), (128 : UInt8) ||| (b &&& 63)]

def findClose : Bytes → Option (Bytes × Bytes)
  | [] => none
  | b :: rest => if b = 125 then some ([], rest) else (findClose rest).map fun (name, after) => (b :: name, after)

variable {l name after t : Bytes}

theorem findClose_eq (h : findClose l = some (name, after)) :
    l = name ++ 125 :: after ∧ 125 ∉ name := by
  induction l generalizing name with
  | nil => cases h
  | cons b l ih =>
    unfold findClose at h
    split at h
    · cases h
      simp_all
    · obtain ⟨⟨name', after'⟩, hl, heq⟩ := Option.map_eq_some_iff.1 h
      cases heq
      obtain ⟨rfl, hname⟩ := ih hl
      exact ⟨rfl, by simp_all [eq_comm]⟩

theorem findClose_lt (h : findClose l.tail = some (name, after)) : after.length < l.length + 1 := by
  have := congrArg List.length (findClose_eq h).1
  simp only [length_tail, length_append, length_cons] at this
  omega

/-- A template is read as these. -/
inductive Piece where
  | char (b : UInt8)
  | escape
  | reference (name : Bytes)
  deriving DecidableEq

namespace RuntimeVars

variable (v : RuntimeVars)

def lookup (name : Bytes) : Option Bytes :=
  if name = utf8 "SESSION_ID" then v.sessionId
  else if name = utf8 "SESSION_NAME" then v.sessionName
  else if name = utf8 "PANE_COUNT" then some (utf8 (toString v.paneCount))
  else if name = utf8 "FOCUSED_PANE" then some (utf8 (toString v.focusedPane))
  else (v.staticVars name).or (v.env name)

/-- mirrors packages/playbook/src/subst.rs:46-90 -/
def resolve : Bytes → Bytes
  | [] => []
  | b :: rest =>
    if b = 36 ∧ rest.take 2 = [36, 123] then 36 :: 123 :: resolve (rest.drop 2)
    else if b = 36 ∧ rest.head? = some 123 then
      match _h : findClose rest.tail with
      | some (name, after) =>
        if name = [] then [36, 123, 125] ++ resolve after
        else
          match v.lookup name with
          | some value => value ++ resolve after
          | none => 36 :: 123 :: name ++ [125] ++ resolve after
      | none => byteAsChar b ++ resolve rest
    else byteAsChar b ++ resolve rest
termination_by t => t.length
decreasing_by
  all_goals simp only [List.length_cons, List.length_drop]
  all_goals first
    | omega
    | exact findClose_lt _h

def resolveOpt (value : Bytes) : Bytes := if [36, 123] <:+: value then v.resolve value else value

def resolveBytes (bytes : Bytes) : Bytes :=
  if (fromUtf8 bytes).isSome ∧ [36, 123] <:+: bytes then v.resolve bytes else bytes

end RuntimeVars

/-! ## What is to be replaced -/

def pieces : Bytes → List Piece
  | [] => []
  | b :: rest =>
    if b = 36 ∧ rest.take 2 = [36, 123] then .escape :: pieces (rest.drop 2)
    else if b = 36 ∧ rest.head? = some 123 then
      match _h : findClose rest.tail with
      | some (name, after) => .reference name :: pieces after
      | none => .char b :: pieces rest
    else .char b :: pieces rest
termination_by t => t.length
decreasing_by
  all_goals simp only [List.length_cons, List.length_drop]
  all_goals first
    | omega
    | exact findClose_lt _h

def Piece.text : Piece → Bytes
  | .char b => [b]
  | .escape => [36, 36, 123]
  | .reference name => 36 :: 123 :: name ++ [125]

/-- Every `${` doubled to `$${`. -/
def double : Bytes → Bytes
  | [] => []
  | b :: rest => if b = 36 ∧ rest.head? = some 123 then 36 :: b :: double rest else b :: double rest

variable (v : RuntimeVars)

def RuntimeVars.replaced : Piece → Bytes
  | .char b => [b]
  | .escape => [36, 123]
  | .reference name => if name = [] then [36, 123, 125] else (v.lookup name).getD (36 :: 123 :: name ++ [125])

def RuntimeVars.written : Piece → Bytes
  | .char b => byteAsChar b
  | p => v.replaced p

theorem text_pieces (t : Bytes) : (pieces t).flatMap Piece.text = t := by
  fun_induction pieces t with
  | case1 => rfl
  | case2 b rest h ih =>
    obtain ⟨rfl, htake⟩ := h
    rw [flatMap_cons, ih, ← take_append_drop 2 rest, htake]
    simp [Piece.text]
  | case3 b rest hescape h name after hclose ih =>
    obtain ⟨rfl, hhead⟩ := h
    obtain ⟨rest, rfl⟩ := head?_eq_some_iff.1 hhead
    obtain rfl : rest = name ++ 125 :: after := (findClose_eq hclose).1
    simp [Piece.text, ih]
  | case4 b rest hescape h hclose ih => simp [Piece.text, ih]
  | case5 b rest hescape h ih => simp [Piece.text, ih]

theorem reference_closed (h : .reference name ∈ pieces t) : 125 ∉ name := by
  fun_induction pieces t with
  | case1 => cases h
  | case2 b rest _ ih => exact ih (by simpa using h)
  | case3 b rest _ _ name' after hclose ih =>
    obtain h | h := mem_cons.1 h
    · cases h
      exact (findClose_eq hclose).2
    · exact ih h
  | case4 b rest _ _ _ ih => exact ih (by simpa using h)
  | case5 b rest _ _ ih => exact ih (by simpa using h)

open RuntimeVars (resolve)

/-- Only an ASCII byte is written as it is. -/
theorem byteAsChar_iff {b : UInt8} : byteAsChar b = [b] ↔ b < 128 := by
  unfold byteAsChar
  split <;> simp_all

theorem length_byteAsChar (b : UInt8) : 1 ≤ (byteAsChar b).length := by
  unfold byteAsChar
  split <;> simp

/-- Where each part is written no shorter than it should be, the whole is right only if every part is. -/
theorem flatMap_eq_iff {α : Type} {f g : α → Bytes} (hle : ∀ x, (g x).length ≤ (f x).length) (l : List α) :
    l.flatMap f = l.flatMap g ↔ ∀ x ∈ l, f x = g x := by
  have hlength (l : List α) : (l.flatMap g).length ≤ (l.flatMap f).length := by
    simpa only [length_flatMap] using sum_le_sum fun x _ => hle x
  induction l with
  | nil => simp
  | cons x l ih =>
    rw [flatMap_cons, flatMap_cons, forall_mem_cons]
    refine ⟨fun h => (append_inj h ?_).imp_right ih.mp, fun h => by rw [h.1, ih.mpr h.2]⟩
    have := congrArg List.length h
    simp only [length_append] at this
    have := hle x
    have := hlength l
    omega

theorem written_iff (t : Bytes) : (pieces t).flatMap v.written = (pieces t).flatMap v.replaced ↔
    ∀ b, .char b ∈ pieces t → b < 128 := by
  rw [flatMap_eq_iff]
  · refine ⟨fun h b hb => byteAsChar_iff.1 (h _ hb), fun h p hp => ?_⟩
    cases p with
    | char b => exact byteAsChar_iff.2 (h b hp)
    | escape => rfl
    | reference name => rfl
  · rintro (b | _ | name)
    exacts [length_byteAsChar b, le_rfl, le_rfl]

/-- The scan writes the pieces of the template one after the other. -/
theorem resolve_eq (t : Bytes) : v.resolve t = (pieces t).flatMap v.written := by
  fun_induction pieces t with
  | case1 => simp [resolve]
  | case2 b rest h ih =>
    rw [resolve, if_pos h, ih]
    rfl
  | case3 b rest hescape h name after hclose ih =>
    rw [resolve, if_neg hescape, if_pos h]
    split
    · rename_i hclose'
      cases hclose.symm.trans hclose'
      cases hlookup : v.lookup name <;> split <;> simp_all [RuntimeVars.written, RuntimeVars.replaced]
    · rename_i hclose'
      cases hclose.symm.trans hclose'
  | case4 b rest hescape h hclose ih =>
    rw [resolve, if_neg hescape, if_pos h, ih]
    split
    · rename_i hclose'
      cases hclose.symm.trans hclose'
    · rfl
  | case5 b rest hescape h ih =>
    rw [resolve, if_neg hescape, if_neg h, ih]
    rfl

theorem infix_of_head {b : UInt8} {rest : Bytes} (h : b = 36 ∧ rest.head? = some 123) : [36, 123] <:+: b :: rest := by
  obtain ⟨rfl, hhead⟩ := h
  obtain ⟨rest, rfl⟩ := head?_eq_some_iff.1 hhead
  exact ⟨[], rest, rfl⟩

theorem pieces_plain (h : ¬[36, 123] <:+: t) : pieces t = t.map .char := by
  fun_induction pieces t with
  | case1 => rfl
  | case2 b rest hescape _ =>
    have htake := (List.take_prefix 2 rest).isInfix
    rw [hescape.2] at htake
    exact absurd (htake.trans (suffix_cons b rest).isInfix) h
  | case3 b rest _ href _ _ _ _ => exact absurd (infix_of_head href) h
  | case4 b rest _ href _ _ => exact absurd (infix_of_head href) h
  | case5 b rest _ _ ih =>
    rw [ih fun hin => h (hin.trans (suffix_cons b rest).isInfix)]
    rfl

theorem head_double (t : Bytes) : (double t).head? = t.head? := by
  cases t with
  | nil => rfl
  | cons b rest =>
    unfold double
    split
    · rename_i h
      simp [h.1]
    · rfl

/-- A doubled template has no reference, so that its bytes are written one by one. -/
theorem resolve_double (t : Bytes) : v.resolve (double t) = t.flatMap byteAsChar := by
  induction t with
  | nil => simp [double, resolve]
  | cons b rest ih =>
    unfold double
    split
    · rename_i h
      obtain ⟨rfl, hhead⟩ := h
      obtain ⟨rest, rfl⟩ := head?_eq_some_iff.1 hhead
      -- the brace itself is pushed when it comes first
      simp_all [double, resolve, byteAsChar]
    · rename_i h
      have hescape : ¬(b = 36 ∧ (double rest).take 2 = [36, 123]) := by
        rintro ⟨rfl, htake⟩
        cases rest with
        | nil => cases htake
        | cons c rest =>
          unfold double at htake
          split at htake
          · simp_all
          · rename_i hmark
            obtain ⟨rfl, hone⟩ : c = 36 ∧ (double rest).take 1 = [123] := by simpa using htake
            refine hmark ⟨rfl, ?_⟩
            rw [← head_double]
            simpa [head?_take] using congrArg List.head? hone
      rw [resolve, if_neg hescape, head_double, if_neg h, ih, flatMap_cons]

/-- **Substitution.** A template is replaced piece by piece exactly if its text outside the references is ASCII, and
a doubled text is read back exactly if it is ASCII. -/
theorem resolve_pieces (t : Bytes) :
    (pieces t).flatMap Piece.text = t ∧ (∀ name, .reference name ∈ pieces t → 125 ∉ name) ∧
    (v.resolve t = (pieces t).flatMap v.replaced ↔ ∀ b, .char b ∈ pieces t → b < 128) ∧
    (v.resolveOpt t = (pieces t).flatMap v.replaced ↔ ([36, 123] <:+: t → ∀ b, .char b ∈ pieces t → b < 128)) ∧
    (v.resolveBytes t = (if (fromUtf8 t).isSome then (pieces t).flatMap v.replaced else t) ↔
      ((fromUtf8 t).isSome → [36, 123] <:+: t → ∀ b, .char b ∈ pieces t → b < 128)) ∧
    (v.resolve (double t) = t ↔ ∀ b ∈ t, b < 128) := by
  have hiff : v.resolve t = (pieces t).flatMap v.replaced ↔ ∀ b, .char b ∈ pieces t → b < 128 := by
    rw [resolve_eq, written_iff]
  have hopt : v.resolveOpt t = (pieces t).flatMap v.replaced ↔
      ([36, 123] <:+: t → ∀ b, .char b ∈ pieces t → b < 128) := by
    unfold RuntimeVars.resolveOpt
    by_cases hmarked : [36, 123] <:+: t
    · simp [hmarked, hiff]
    · have hplain : (pieces t).flatMap v.replaced = t := by
        rw [pieces_plain hmarked, flatMap_map]
        exact flatMap_singleton' t
      simp [hmarked, hplain]
  refine ⟨text_pieces t, fun _ => reference_closed, hiff, hopt, ?_, ?_⟩
  · cases hvalid : (fromUtf8 t).isSome with
    | false => simp [RuntimeVars.resolveBytes, hvalid]
    | true => simpa [RuntimeVars.resolveBytes, RuntimeVars.resolveOpt, hvalid] using hopt
  · have hread := flatMap_eq_iff (f := byteAsChar) (g := ([·])) length_byteAsChar t
    rw [flatMap_singleton'] at hread
    rw [resolve_double, hread]
    simp only [byteAsChar_iff]

namespace Sample

def vars : RuntimeVars := ⟨fun _ => some [36, 123, 125], none, none, 0, 0, fun _ => none⟩

/-- `é` alone. -/
theorem mangled : pieces [0xC3, 0xA9] = [.char 0xC3, .char 0xA9] ∧ double [0xC3, 0xA9] = [0xC3, 0xA9] ∧
    vars.resolve [0xC3, 0xA9] = [0xC3, 0x83, 0xC2, 0xA9] := by
  refine ⟨?_, by decide, ?_⟩
  · simp [pieces]
  · simp [resolve, byteAsChar]
    decide

/-- `a${x}`, with a value that looks like a reference. -/
theorem substituted : vars.resolve [97, 36, 123, 120, 125] = [97, 36, 123, 125] := by
  have hpieces : pieces [97, 36, 123, 120, 125] = [.char 97, .reference [120]] := by simp [pieces, findClose]
  rw [(resolve_pieces vars _).2.2.1.mpr (by simp [hpieces]), hpieces]
  decide +kernel

end Sample
end Bmux.Playbook
