import Mathlib

/-!
# The rectangles of a layout tree (`plugins/pane-runtime-plugin/src/runtime.rs`)

The leaves of a layout tree are panes, and a split divides the rectangle it is given between its two
parts. Both are clamped to at least one cell, so that no pane is empty and a split of a single cell puts
the second part outside (`Sample.outside`). `layout_tiles` shows that the leaves tile the root where every
split has two cells to divide.

Ratios are of any type, with an arbitrary rounding of their product with an extent.
-/
namespace Bmux.Layout
open List

structure LayoutRect where
  x : Nat
  y : Nat
  w : Nat
  h : Nat

inductive PaneSplitDirection where
  | vertical
  | horizontal

inductive PaneLayoutNode (R : Type) where
  | leaf (paneId : Nat)
  | split (direction : PaneSplitDirection) (ratio : R) (first second : PaneLayoutNode R)

section
variable {R : Type} (rounded : Nat → R → Nat)

def splitExtent (extent : Nat) (ratio : R) : Nat × Nat :=
  let first := min (max (rounded extent ratio) 1) (max (extent - 1) 1)
  (first, max (extent - first) 1)

def splitLayoutRect (rect : LayoutRect) (ratio : R) : PaneSplitDirection → LayoutRect × LayoutRect
  | .vertical =>
    let (first, second) := splitExtent rounded rect.w ratio
    ({ rect with w := first }, { rect with x := min (rect.x + first) 65535, w := second })
  | .horizontal =>
    let (first, second) := splitExtent rounded rect.h ratio
    ({ rect with h := first }, { rect with y := min (rect.y + first) 65535, h := second })

/-- What is inserted for the leaves, whose ids are distinct.
mirrors plugins/pane-runtime-plugin/src/runtime.rs:5400-5423 -/
def collectLayoutRects : PaneLayoutNode R → LayoutRect → List (Nat × LayoutRect)
  | .leaf paneId, rect => [(paneId, rect)]
  | .split direction ratio first second, rect =>
    let (firstRect, secondRect) := splitLayoutRect rounded rect ratio direction
    collectLayoutRects first firstRect ++ collectLayoutRects second secondRect

/-! ## Tilings -/

def LayoutRect.Has (r : LayoutRect) (x y : Nat) : Prop := (r.x ≤ x ∧ x < r.x + r.w) ∧ r.y ≤ y ∧ y < r.y + r.h

instance (r : LayoutRect) (x y : Nat) : Decidable (r.Has x y) := inferInstanceAs (Decidable (_ ∧ _))

variable (tree : PaneLayoutNode R) (root : LayoutRect)

/-- Each cell of the root is in one rectangle, and no other cell is in any. -/
def Tiles (leaves : List (Nat × LayoutRect)) : Prop :=
  ∀ x y, leaves.countP (·.2.Has x y) = if root.Has x y then 1 else 0

/-- Every split has two cells to divide, which end within the coordinates. -/
def Roomy : PaneLayoutNode R → LayoutRect → Prop
  | .leaf _, _ => True
  | .split direction ratio first second, rect =>
    (match direction with
      | .vertical => 2 ≤ rect.w ∧ rect.x + rect.w ≤ 65536
      | .horizontal => 2 ≤ rect.h ∧ rect.y + rect.h ≤ 65536) ∧
    Roomy first (splitLayoutRect rounded rect ratio direction).1 ∧
    Roomy second (splitLayoutRect rounded rect ratio direction).2

theorem splitExtent_pos (extent : Nat) (ratio : R) :
    1 ≤ (splitExtent rounded extent ratio).1 ∧ 1 ≤ (splitExtent rounded extent ratio).2 :=
  ⟨le_min (le_max_right _ _) (le_max_right _ _), le_max_right _ _⟩

theorem splitExtent_eq {extent : Nat} (h : 2 ≤ extent) (ratio : R) :
    ∃ first < extent, splitExtent rounded extent ratio = (first, extent - first) := by
  refine ⟨min (max (rounded extent ratio) 1) (max (extent - 1) 1), by omega, ?_⟩
  exact Prod.ext rfl (max_eq_left (by omega))

theorem Tiles.append {root r₁ r₂ : LayoutRect} {l₁ l₂ : List (Nat × LayoutRect)} (h₁ : Tiles r₁ l₁) (h₂ : Tiles r₂ l₂)
    (h : ∀ x y, ((if r₁.Has x y then 1 else 0) + if r₂.Has x y then 1 else 0) = if root.Has x y then 1 else 0) :
    Tiles root (l₁ ++ l₂) := fun x y => by
  rw [countP_append, h₁, h₂, h]

theorem collectLayoutRects_nonempty (hw : 1 ≤ root.w) (hh : 1 ≤ root.h) :
    ∀ leaf ∈ collectLayoutRects rounded tree root, 1 ≤ leaf.2.w ∧ 1 ≤ leaf.2.h := by
  induction tree generalizing root with
  | leaf paneId => exact forall_mem_singleton.mpr ⟨hw, hh⟩
  | split direction ratio first second ih₁ ih₂ =>
    cases direction with
    | vertical =>
      have hpos := splitExtent_pos rounded root.w ratio
      exact forall_mem_append.mpr ⟨ih₁ _ hpos.1 hh, ih₂ _ hpos.2 hh⟩
    | horizontal =>
      have hpos := splitExtent_pos rounded root.h ratio
      exact forall_mem_append.mpr ⟨ih₁ _ hw hpos.1, ih₂ _ hw hpos.2⟩

theorem tiles_of_roomy (hroom : Roomy rounded tree root) : Tiles root (collectLayoutRects rounded tree root) := by
  induction tree generalizing root with
  | leaf paneId => exact fun x y => by simp [collectLayoutRects, countP_cons]
  | split direction ratio first second ih₁ ih₂ =>
    obtain ⟨hdivided, hfirst, hsecond⟩ := hroom
    refine (ih₁ _ hfirst).append (ih₂ _ hsecond) fun x y => ?_
    cases direction <;>
    · obtain ⟨n, hlt, hn⟩ := splitExtent_eq rounded hdivided.1 ratio
      simp only [splitLayoutRect, hn]
      split_ifs <;> simp only [LayoutRect.Has] at * <;> omega

/-- **No leaf is empty, and the leaves tile the root**, the latter if every split has room. -/
theorem layout_tiles (hw : 1 ≤ root.w) (hh : 1 ≤ root.h) :
    (∀ leaf ∈ collectLayoutRects rounded tree root, 1 ≤ leaf.2.w ∧ 1 ≤ leaf.2.h) ∧
      (Roomy rounded tree root → Tiles root (collectLayoutRects rounded tree root)) :=
  ⟨collectLayoutRects_nonempty rounded tree root hw hh, tiles_of_roomy rounded tree root⟩

end

namespace Sample

def sideBySide : PaneLayoutNode Unit := .split .vertical () (.leaf 0) (.leaf 1)

/-- Three columns for two panes. -/
theorem columns_tiled : Tiles ⟨0, 0, 3, 1⟩ [(0, ⟨0, 0, 2, 1⟩), (1, ⟨2, 0, 1, 1⟩)] :=
  (layout_tiles (fun _ _ => 2) sideBySide ⟨0, 0, 3, 1⟩ (by decide) (by decide)).2 ⟨by decide, trivial, trivial⟩

/-- One cell for two panes, the second of which is beside it. Two columns, of which `u16` has only the first: both
panes are there. -/
theorem outside :
    (∃ leaf ∈ collectLayoutRects (fun _ _ => 1) sideBySide ⟨0, 0, 1, 1⟩,
      leaf.2.Has 1 0 ∧ ¬ LayoutRect.Has ⟨0, 0, 1, 1⟩ 1 0) ∧
    (collectLayoutRects (fun _ _ => 1) sideBySide ⟨65535, 0, 2, 1⟩).countP (·.2.Has 65535 0) = 2 :=
  ⟨⟨(1, ⟨1, 0, 1, 1⟩), by simp [collectLayoutRects, splitLayoutRect, splitExtent, sideBySide], by decide, by decide⟩,
    by decide⟩

end Sample
end Bmux.Layout
