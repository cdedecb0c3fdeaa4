import Mathlib

/-!
# Hit regions over a regional repaint (`packages/tui/src/hit.rs`, `packages/tui/src/presentation.rs`)

A frame registers hit regions in render order. The topmost region of a point is the last one of the
greatest layer, and the focus order is by tab order and then by render order. A regional repaint keeps
the committed regions that meet no damage and appends the staged ones that do. A region that meets the
damage thereby moves behind those that do not (`Sample.reordered`).

`regional_repaint` says exactly when this cannot be seen. At a point, the topmost region meets the damage or
none of the regions that tie with it does. In the focus order, of any two identifiers the first region that
stays in its place, if one that ties does, has the identifier that came first.
-/
namespace Bmux.Tui
open List

/-! ## Ties -/

section Ties

variable {α : Type} (key : α → Int) (takes : α → Bool)

/-- Those that take part and have the greatest key. -/
def ties (l : List α) : List α := l.filter fun r => takes r && l.all fun q => !takes q || key q ≤ key r

variable {key takes} {l : List α} {r : α}

theorem mem_ties : r ∈ ties key takes l ↔ r ∈ l ∧ takes r = true ∧ ∀ q ∈ l, takes q = true → key q ≤ key r := by
  simp [ties, ← Bool.not_eq_true, ← imp_iff_not_or]

theorem ties_eq (hr : r ∈ l) (htakes : takes r = true) (hmax : ∀ q ∈ l, takes q = true → key q ≤ key r) :
    ties key takes l = l.filter fun q => takes q && key q = key r := by
  refine filter_congr fun q hq => ?_
  cases hqtakes : takes q with
  | false => rfl
  | true =>
    rw [Bool.eq_iff_iff]
    simp only [Bool.true_and, all_eq_true, Bool.or_eq_true, Bool.not_eq_true', decide_eq_true_eq]
    refine ⟨fun h => le_antisymm (hmax q hq hqtakes) ((h r hr).resolve_left (by simp [htakes])), fun h x hx => ?_⟩
    cases hx' : takes x with
    | false => exact .inl rfl
    | true => exact .inr (h ▸ hmax x hx hx')

theorem ties_of_none (h : ∀ q ∈ l, takes q = false) : ties key takes l = [] := by
  refine filter_eq_nil_iff.2 fun q hq => ?_
  simp [h q hq]

theorem ties_filter (chosen : α → Bool) :
    ties key takes (l.filter chosen) = ties key (fun r => chosen r && takes r) l := by
  unfold ties
  rw [filter_filter]
  refine filter_congr fun r _ => ?_
  simp only [all_filter]
  cases chosen r <;> simp [Bool.not_and, Bool.or_assoc]

theorem exists_greatest (key : α → Int) (h : ∃ r ∈ l, takes r = true) :
    ∃ r ∈ l, takes r = true ∧ ∀ q ∈ l, takes q = true → key q ≤ key r := by
  obtain ⟨r, hr⟩ : ∃ r, (l.filter takes).argmax key = some r := by
    refine Option.ne_none_iff_exists'.1 fun hnone => ?_
    obtain ⟨r, hr, htakes⟩ := h
    simpa [htakes] using filter_eq_nil_iff.1 (argmax_eq_none.1 hnone) r hr
  obtain ⟨hmem, htakes⟩ := mem_filter.1 (argmax_mem hr)
  exact ⟨r, hmem, htakes, fun q hq hqtakes => le_of_mem_argmax (mem_filter.2 ⟨hq, hqtakes⟩) hr⟩

/-- Some stay in their place, in parts, and behind them come those that meet something. -/
theorem ties_repainted {kept : α → List α} {meets : α → Bool}
    (hpart : ∀ r ∈ l, ∀ q ∈ kept r, key q = key r ∧ (takes q = true → takes r = true))
    (hkept : ∀ r ∈ l, meets r = false → kept r = [r]) :
    ties key takes (l.flatMap kept ++ l.filter meets) =
      (ties key takes l).flatMap (fun r => (kept r).filter takes) ++ (ties key takes l).filter meets := by
  have horigin : ∀ q ∈ l.flatMap kept ++ l.filter meets, takes q = true → ∃ o ∈ l, takes o = true ∧ key q = key o := by
    intro q hq htakes
    obtain hq | hq := mem_append.1 hq
    · obtain ⟨o, ho, hq⟩ := mem_flatMap.1 hq
      exact ⟨o, ho, (hpart o ho q hq).2 htakes, (hpart o ho q hq).1⟩
    · exact ⟨q, (mem_filter.1 hq).1, htakes, rfl⟩
  by_cases hsome : ∃ r ∈ l, takes r = true
  · obtain ⟨r, hr, htakes, hmax⟩ := exists_greatest key hsome
    have hstill : r ∈ l.flatMap kept ++ l.filter meets := by
      cases hmeets : meets r with
      | false => exact mem_append_left _ (mem_flatMap.2 ⟨r, hr, by simp [hkept r hr hmeets]⟩)
      | true => exact mem_append_right _ (mem_filter.2 ⟨hr, hmeets⟩)
    rw [ties_eq hr htakes hmax, ties_eq hstill htakes fun q hq hqtakes => ?_, filter_append, filter_flatMap,
      filter_filter, filter_filter]
    · congr 1
      · -- a part that ties is a part of one that ties
        clear hstill hsome horigin hmax hr
        induction l with
        | nil => rfl
        | cons a l ih =>
          rw [flatMap_cons, ih (fun r hr => hpart r (mem_cons_of_mem _ hr)) fun r hr => hkept r (mem_cons_of_mem _ hr)]
          have ha := hpart a mem_cons_self
          rw [filter_cons]
          split
          · rw [flatMap_cons]
            congr 1
            exact filter_congr fun q hq => by simp_all
          · rw [filter_eq_nil_iff.2 fun q hq => ?_, nil_append]
            have := ha q hq
            simp_all
      · exact filter_congr fun q _ => Bool.and_comm ..
    · obtain ⟨o, ho, hotakes, hkey⟩ := horigin q hq hqtakes
      exact hkey ▸ hmax o ho hotakes
  · have hnone : ∀ q ∈ l, takes q = false := by simpa using hsome
    rw [ties_of_none hnone, ties_of_none fun q hq => ?_]
    · rfl
    · by_contra htakes
      obtain ⟨o, ho, hotakes, -⟩ := horigin q hq (by simpa using htakes)
      simp [hnone o ho] at hotakes

end Ties

/-! ## Regions and maps -/

structure Point where
  x : Nat
  y : Nat

structure Rect where
  x : Nat
  y : Nat
  width : Nat
  height : Nat
  deriving DecidableEq

namespace Rect

def isEmpty (r : Rect) : Bool := r.width = 0 ∨ r.height = 0

def right (r : Rect) : Nat := min (r.x + r.width) 65535

def bottom (r : Rect) : Nat := min (r.y + r.height) 65535

def contains (r : Rect) (p : Point) : Bool := p.x ≥ r.x ∧ p.x < r.right ∧ p.y ≥ r.y ∧ p.y < r.bottom

def intersection (r other : Rect) : Rect :=
  let x := max r.x other.x
  let y := max r.y other.y
  ⟨x, y, min r.right other.right - x, min r.bottom other.bottom - y⟩

/-- mirrors packages/tui/src/image_scene.rs:281-309 -/
def subtract (area occluded : Rect) : List Rect :=
  let cut := area.intersection occluded
  if cut.isEmpty then [area].filter (!·.isEmpty)
  else
    [⟨area.x, area.y, area.width, cut.y - area.y⟩, ⟨area.x, cut.bottom, area.width, area.bottom - cut.bottom⟩,
      ⟨area.x, cut.y, cut.x - area.x, cut.height⟩,
      ⟨cut.right, cut.y, area.right - cut.right, cut.height⟩].filter (!·.isEmpty)

end Rect

inductive MouseEventKind where
  | move
  | other
  deriving DecidableEq

abbrev HitId := String

structure HitRegion where
  id : HitId
  area : Rect
  layer : Int := 0
  visible : Bool := true
  pointerEvents : Bool := true
  hoverable : Bool := false
  focusable : Bool := false
  enabled : Bool := true
  tabOrder : Int := 0
  focusScope : Option HitId := none
  deriving DecidableEq

namespace HitRegion

def contains (r : HitRegion) (p : Point) : Bool := r.visible && !r.area.isEmpty && r.area.contains p

def accepts (r : HitRegion) : MouseEventKind → Bool
  | .move => r.visible && r.enabled && r.hoverable
  | .other => r.visible && r.enabled && r.pointerEvents

def isTarget (scope : Option HitId) (r : HitRegion) : Bool :=
  r.visible && r.focusable && r.enabled && !r.area.isEmpty && r.focusScope = scope

def meets (regions : List Rect) (r : HitRegion) : Bool := regions.any fun area => !(r.area.intersection area).isEmpty

end HitRegion

structure HitMap where
  regions : List HitRegion
  nonempty : ∀ r ∈ regions, r.area.isEmpty = false

structure Hit where
  region : HitRegion
  position : Point

namespace HitMap

section
variable (m : HitMap)

def push (r : HitRegion) : HitMap :=
  if h : r.area.isEmpty then m
  else ⟨m.regions ++ [r], by
    intro q hq
    obtain hq | hq := List.mem_append.1 hq
    · exact m.nonempty q hq
    · simpa [List.mem_singleton.1 hq] using h⟩

def retainOutside (area : Rect) : HitMap :=
  ⟨m.regions.filter fun r => (r.area.intersection area).isEmpty, fun r hr => m.nonempty r (List.mem_filter.1 hr).1⟩

variable (p : Point) (kind : MouseEventKind) (scope : Option HitId) (takes : HitRegion → Bool)

/-- The greatest by layer and index of the regions that take part. -/
def topmost (p : Point) : Option Hit :=
  (ties HitRegion.layer takes m.regions).getLast?.map fun r => ⟨r, ⟨p.x - r.area.x, p.y - r.area.y⟩⟩

def hitTest : Option Hit := m.topmost (fun r => r.enabled && r.contains p) p

def hitMouseInScope : Option Hit :=
  m.topmost (fun r => r.focusScope = scope && r.contains p && r.accepts kind) p

def hitMouse : Option Hit :=
  m.topmost (fun r => r.contains p && r.accepts kind) p

def focusTargets : List HitId :=
  (((m.regions.filter (·.isTarget scope)).insertionSort (·.tabOrder ≤ ·.tabOrder)).map (·.id)).eraseDups

def occlude (area : Rect) : HitMap :=
  (m.regions.flatMap fun r => (r.area.subtract area).map fun visible => { r with area := visible }).foldl push ⟨[],
    by simp⟩

end

end HitMap

inductive Damage where
  | none
  | regions (regions : List Rect)
  | full
  deriving DecidableEq

/-- What `prepare_from` reads of the state it stages over. -/
structure PresentationState where
  hits : HitMap
  /-- a frame has been committed -/
  previous : Bool
  /-- there are grid fragments or projected metadata -/
  projected : Bool
  modalFocus : List HitId

def reconcileStagedHits (hits staged : HitMap) : Damage → HitMap
  | .regions regions =>
    (staged.regions.filter (·.meets regions)).foldl HitMap.push (regions.foldl HitMap.retainOutside hits)
  | _ => staged

/-- What is repainted: the damage and the occlusions of the frame. -/
def requestedRegions (regions occlusions : List Rect) : List Rect :=
  occlusions.foldl (fun rs area => if area ∈ rs then rs else rs ++ [area]) regions

/-- The hits of `prepare_from`, for a frame with these hits and occlusions.
mirrors packages/tui/src/presentation.rs:1049-1158 -/
def PresentationState.prepareHits (s : PresentationState) (staged : HitMap) (occlusions : List Rect) (damage : Damage) :
    Option HitMap :=
  let damage := if s.projected ∧ damage ≠ .none then .full else damage
  let damage := if s.previous then damage else .full
  if damage = .none then none
  else
    match if s.modalFocus.isEmpty then damage else .full with
    | .regions regions =>
      some (reconcileStagedHits (occlusions.foldl HitMap.occlude s.hits) staged
        (.regions (requestedRegions regions occlusions)))
    | _ => some staged

/-! ## What a repaint leaves in place -/

namespace HitRegion

def remains (r : HitRegion) : List Rect → List HitRegion
  | [] => [r]
  | area :: occlusions => (r.area.subtract area).flatMap fun visible => remains { r with area := visible } occlusions

def kept (occlusions requested : List Rect) (r : HitRegion) : List HitRegion :=
  (r.remains occlusions).filter fun q => !q.meets requested

end HitRegion

theorem Rect.isEmpty_iff {r : Rect} : r.isEmpty = true ↔ r.width = 0 ∨ r.height = 0 := decide_eq_true_iff

theorem Rect.contains_iff {r : Rect} {p : Point} :
    r.contains p = true ↔ p.x ≥ r.x ∧ p.x < r.right ∧ p.y ≥ r.y ∧ p.y < r.bottom := decide_eq_true_iff

theorem Rect.subtract_inside {area occluded visible : Rect} (h : visible ∈ area.subtract occluded) :
    visible.isEmpty = false ∧ ∀ p, visible.contains p = true → area.contains p = true := by
  unfold Rect.subtract at h
  dsimp only at h
  split at h
  · obtain ⟨rfl, hne⟩ : visible = area ∧ _ := by simpa using h
    exact ⟨by simpa using hne, fun _ => id⟩
  · rename_i hcut
    obtain ⟨hmem, hne⟩ := mem_filter.1 h
    refine ⟨by simpa using hne, fun p => ?_⟩
    simp only [Rect.isEmpty_iff, Rect.intersection, Rect.right, Rect.bottom] at hcut
    simp only [mem_cons, not_mem_nil, or_false] at hmem
    rcases hmem with rfl | rfl | rfl | rfl
    all_goals
      simp only [Rect.contains_iff, Rect.intersection, Rect.right, Rect.bottom]
      omega

theorem Rect.subtract_apart {area occluded : Rect} (hne : area.isEmpty = false)
    (h : (area.intersection occluded).isEmpty = true) : area.subtract occluded = [area] := by
  simp [Rect.subtract, h, hne]

variable {occlusions requested : List Rect} {r q : HitRegion}

/-- It differs in its area only, which is smaller and not empty. -/
theorem HitRegion.remains_part (hne : r.area.isEmpty = false) (h : q ∈ r.remains occlusions) :
    q = { r with area := q.area } ∧ q.area.isEmpty = false ∧ ∀ p, q.area.contains p = true →
      r.area.contains p = true := by
  induction occlusions generalizing r with
  | nil =>
    obtain rfl := mem_singleton.1 h
    exact ⟨rfl, hne, fun _ h => h⟩
  | cons area occlusions ih =>
    obtain ⟨visible, hvisible, hq⟩ := mem_flatMap.1 h
    obtain ⟨hne', hinside⟩ := Rect.subtract_inside hvisible
    obtain ⟨hpart, hqne, hq⟩ := ih hne' hq
    exact ⟨hpart, hqne, fun p hp => hinside p (hq p hp)⟩

theorem HitRegion.remains_apart (hne : r.area.isEmpty = false) (h : r.meets occlusions = false) :
    r.remains occlusions = [r] := by
  induction occlusions with
  | nil => rfl
  | cons area occlusions ih =>
    obtain ⟨harea, hrest⟩ : (r.area.intersection area).isEmpty = true ∧ r.meets occlusions = false := by
      simpa [HitRegion.meets] using h
    rw [HitRegion.remains, Rect.subtract_apart hne harea]
    simpa using ih hrest

theorem mem_requestedRegions {regions : List Rect} {area : Rect} :
    area ∈ requestedRegions regions occlusions ↔ area ∈ regions ∨ area ∈ occlusions := by
  induction occlusions generalizing regions with
  | nil => simp [requestedRegions]
  | cons a occlusions ih =>
    rw [requestedRegions, foldl_cons, ← requestedRegions, ih]
    grind

theorem HitRegion.kept_apart (hsub : occlusions ⊆ requested) (hne : r.area.isEmpty = false)
    (h : r.meets requested = false) : r.kept occlusions requested = [r] := by
  have hocclusions : r.meets occlusions = false := by
    simp only [HitRegion.meets, any_eq_false] at h ⊢
    exact fun area harea => h area (hsub harea)
  rw [HitRegion.kept, HitRegion.remains_apart hne hocclusions]
  simp [h]

theorem regions_retainOutside (m : HitMap) (regions : List Rect) :
    (regions.foldl HitMap.retainOutside m).regions = m.regions.filter fun r => !r.meets regions := by
  induction regions generalizing m with
  | nil => simp [HitRegion.meets]
  | cons area regions ih =>
    simp [ih, HitMap.retainOutside, HitRegion.meets, Bool.and_comm]

theorem regions_push (m : HitMap) {l : List HitRegion} (hl : ∀ r ∈ l, r.area.isEmpty = false) :
    (l.foldl HitMap.push m).regions = m.regions ++ l := by
  induction l generalizing m with
  | nil => simp
  | cons r l ih =>
    rw [foldl_cons, ih _ fun q hq => hl q (by simp [hq])]
    simp [HitMap.push, hl r (by simp)]

theorem regions_occlude (m : HitMap) (occlusions : List Rect) :
    (occlusions.foldl HitMap.occlude m).regions = m.regions.flatMap fun r => r.remains occlusions := by
  induction occlusions generalizing m with
  | nil => simp [HitRegion.remains]
  | cons area occlusions ih =>
    have hone : (m.occlude area).regions =
        m.regions.flatMap fun r => (r.area.subtract area).map fun visible => { r with area := visible } := by
      rw [HitMap.occlude, regions_push]
      · rfl
      · intro q hq
        obtain ⟨r, -, hq⟩ := mem_flatMap.1 hq
        obtain ⟨visible, hvisible, rfl⟩ := mem_map.1 hq
        exact (Rect.subtract_inside hvisible).1
    simp [ih, hone, flatMap_assoc, flatMap_map, HitRegion.remains]

/-- The regions of the prepared map: what stays in place, and behind it what is painted again. -/
theorem regions_reconciled (m : HitMap) (occlusions requested : List Rect) :
    (reconcileStagedHits (occlusions.foldl HitMap.occlude m) m (.regions requested)).regions =
      m.regions.flatMap (·.kept occlusions requested) ++ m.regions.filter (·.meets requested) := by
  unfold reconcileStagedHits
  rw [regions_push _ fun r hr => m.nonempty r (mem_filter.1 hr).1, regions_retainOutside, regions_occlude,
    filter_flatMap]
  rfl

/-! ## What is seen of it -/

section Repainted

variable {l : List HitRegion} {takes meets : HitRegion → Bool} {kept : HitRegion → List HitRegion}
  (hkept : ∀ r ∈ l, meets r = false → kept r = [r])
include hkept

/-- The last of the ties stays the last if it is painted again, or none of them is. -/
theorem last_repainted
    (hpart : ∀ r ∈ l, ∀ q ∈ kept r, q.layer = r.layer ∧ (takes q = true → takes r = true)) :
    (ties HitRegion.layer takes (l.flatMap kept ++ l.filter meets)).getLast? = (ties HitRegion.layer takes l).getLast? ↔
      ∀ r, (ties HitRegion.layer takes l).getLast? = some r → meets r = true ∨
        ∀ q ∈ ties HitRegion.layer takes l, meets q = false := by
  rw [ties_repainted hpart hkept]
  have htie : ∀ q ∈ ties HitRegion.layer takes l, q ∈ l ∧ takes q = true := fun q hq =>
    (mem_ties.1 hq).imp_right And.left
  generalize ties HitRegion.layer takes l = t at htie ⊢
  by_cases hnone : ∀ q ∈ t, meets q = false
  · have hstay : t.flatMap (fun r => (kept r).filter takes) = t.flatMap fun r => [r] :=
      flatMap_congr fun r hr => by simp [hkept r (htie r hr).1 (hnone r hr), (htie r hr).2]
    refine iff_of_true ?_ fun _ _ => .inr hnone
    rw [hstay, flatMap_singleton', filter_eq_nil_iff.2 (by simpa using hnone), append_nil]
  · obtain ⟨q, hq, hmeets⟩ : ∃ q ∈ t, meets q = true := by simpa using hnone
    rw [getLast?_append_of_ne_nil _ (ne_nil_of_mem (mem_filter.2 ⟨hq, hmeets⟩))]
    obtain ⟨init, r, rfl⟩ : ∃ init r, t = init ++ [r] := (eq_nil_or_concat' t).resolve_left (ne_nil_of_mem hq)
    rw [getLast?_concat]
    refine ⟨fun h _ hr => .inl ?_, fun h => ?_⟩
    · exact (mem_filter.1 (mem_of_getLast? (h.trans hr))).2
    · have hr := (h r rfl).resolve_right hnone
      rw [filter_append, filter_cons_of_pos hr, filter_nil, getLast?_concat]

/-- The first of the ties keeps its identifier if the first of them that stays in its place has it. -/
theorem first_repainted {key : HitRegion → Int}
    (hpart : ∀ r ∈ l, ∀ q ∈ kept r, q.id = r.id ∧ key q = key r ∧ takes q = takes r) :
    (ties key takes (l.flatMap kept ++ l.filter meets)).head?.map (·.id) = (ties key takes l).head?.map (·.id) ↔
      ∀ r, (ties key takes l).head? = some r →
        ∀ q, (ties key takes l).find? (fun q => kept q ≠ []) = some q → q.id = r.id := by
  rw [ties_repainted (fun r hr q hq => ⟨(hpart r hr q hq).2.1, fun h => (hpart r hr q hq).2.2 ▸ h⟩) hkept]
  have htie : ∀ q ∈ ties key takes l, q ∈ l ∧ takes q = true := fun q hq => (mem_ties.1 hq).imp_right And.left
  generalize ties key takes l = t at htie ⊢
  have hall : t.flatMap (fun r => (kept r).filter takes) = t.flatMap kept :=
    flatMap_congr fun r hr => filter_eq_self.2 fun q hq => (hpart r (htie r hr).1 q hq).2.2.trans (htie r hr).2
  rw [hall]
  cases hfind : t.find? (fun q => kept q ≠ []) with
  | none =>
    have hgone : ∀ r ∈ t, kept r = [] := by simpa using hfind
    have hmeets : ∀ r ∈ t, meets r = true := by
      intro r hr
      by_contra hmeets
      simpa [hgone r hr] using hkept r (htie r hr).1 (by simpa using hmeets)
    refine iff_of_true ?_ fun _ _ _ hq => by cases hq
    rw [flatMap_eq_nil_iff.2 hgone, nil_append, filter_eq_self.2 hmeets]
  | some q =>
    obtain ⟨hq, before, after, rfl, hbefore⟩ := find?_eq_some_iff_append.1 hfind
    obtain ⟨k, ks, hks⟩ := exists_cons_of_ne_nil (of_decide_eq_true hq)
    have hid : k.id = q.id := (hpart q (htie q (by simp)).1 k (by simp [hks])).1
    rw [flatMap_append, flatMap_eq_nil_iff.2 (by simpa using hbefore), nil_append, flatMap_cons, hks]
    cases before <;> simp [hid]

end Repainted

/-- The first of a list that is sorted stably. -/
theorem find_insertionSort (takes : HitRegion → Bool) (l : List HitRegion) :
    (l.insertionSort (·.tabOrder ≤ ·.tabOrder)).find? takes = (ties (fun r => -r.tabOrder) takes l).head? := by
  have hperm := perm_insertionSort (·.tabOrder ≤ ·.tabOrder : HitRegion → HitRegion → Prop) l
  have hsorted := pairwise_insertionSort (·.tabOrder ≤ ·.tabOrder : HitRegion → HitRegion → Prop) l
  -- ties are in order already
  have hsub : ties (fun r => -r.tabOrder) takes l <+ l.insertionSort (·.tabOrder ≤ ·.tabOrder) := by
    refine sublist_insertionSort (pairwise_of_forall_mem_list fun a ha b hb => ?_) filter_sublist
    have := (mem_ties.1 ha).2.2 b (mem_ties.1 hb).1 (mem_ties.1 hb).2.1
    omega
  generalize l.insertionSort (·.tabOrder ≤ ·.tabOrder) = s at *
  have hties : ties (fun r => -r.tabOrder) takes l = ties (fun r => -r.tabOrder) takes s := by
    have hs : ties (fun r => -r.tabOrder) takes s = s.filter _ := filter_congr fun r _ => by rw [hperm.all_eq]
    rw [hs]
    refine Sublist.eq_of_length ?_ (hperm.filter _).length_eq.symm
    simpa [ties] using hsub.filter fun r => takes r && l.all fun q => !takes q || -q.tabOrder ≤ -r.tabOrder
  rw [hties]
  cases hfind : s.find? takes with
  | none => rw [ties_of_none (by simpa using hfind), head?_nil]
  | some r =>
    obtain ⟨hr, before, after, rfl, hbefore⟩ := find?_eq_some_iff_append.1 hfind
    rw [ties_eq (r := r) (by simp) hr, filter_append, filter_eq_nil_iff.2 fun q hq => ?_, nil_append,
      filter_cons_of_pos]
    · rfl
    · simp [hr]
    · simpa using fun h => absurd (hbefore q hq) (by simp [h])
    · intro q hq hqtakes
      obtain hq | rfl | hq : q ∈ before ∨ q = r ∨ q ∈ after := by simpa using hq
      · exact absurd hqtakes (by simpa using hbefore q hq)
      · exact le_rfl
      · exact neg_le_neg ((pairwise_cons.1 (pairwise_append.1 hsorted).2.1).1 q hq)

theorem find_eraseDups {p : HitId → Bool} (l : List HitId) : l.eraseDups.find? p = l.find? p := by
  match l with
  | [] => rfl
  | a :: l =>
    have := length_filter_le (fun b => !b == a) l
    rw [eraseDups_cons, find?_cons, find?_cons, find_eraseDups (l.filter fun b => !b == a), find?_filter]
    cases ha : p a with
    | true => rfl
    | false =>
      refine congrArg (l.find? ·) (funext fun x => ?_)
      by_cases hx : x = a <;> simp [hx, ha]
termination_by l.length

/-- Duplicates apart, two lists are the same if of any two values the same one comes first. -/
theorem eraseDups_iff {l l' : List HitId} : l.eraseDups = l'.eraseDups ↔
    ∀ i j, l.find? (fun x => x = i || x = j) = l'.find? (fun x => x = i || x = j) := by
  refine ⟨fun h i j => by rw [← find_eraseDups l, h, find_eraseDups], fun h => ?_⟩
  match l, l' with
  | [], [] => rfl
  | [], b :: l' => simpa using h b b
  | a :: l, [] => simpa using h a a
  | a :: l, b :: l' =>
    obtain rfl : a = b := by simpa using h a b
    have := length_filter_le (fun b => !b == a) l
    rw [eraseDups_cons, eraseDups_cons, eraseDups_iff.2 fun i j => ?_]
    -- where one of the two is the head, only the other is looked for in the rest
    have hrest (k m : HitId) (hk : k ≠ a) (hm : m ≠ a) (hsame : ∀ x, x ≠ a → (x = i ∨ x = j ↔ x = k ∨ x = m)) :
        (l.filter fun b => !b == a).find? (fun x => x = i || x = j) =
          (l'.filter fun b => !b == a).find? (fun x => x = i || x = j) := by
      have hfilter (l : List HitId) :
          (l.filter fun b => !b == a).find? (fun x => x = i || x = j) = l.find? fun x => x = k || x = m := by
        rw [find?_filter]
        congr 1
        funext x
        have := hsame x
        grind
      rw [hfilter, hfilter]
      simpa [hk.symm, hm.symm] using h k m
    by_cases hi : i = a <;> by_cases hj : j = a
    · rw [find?_eq_none.2 (by simp [hi, hj]), find?_eq_none.2 (by simp [hi, hj])]
    · exact hrest j j hj hj (by simp_all)
    · exact hrest i i hi hi (by simp_all)
    · exact hrest i j hi hj fun x _ => Iff.rfl
termination_by l.length

/-! ## A repaint of the committed regions -/

namespace HitMap

variable (m : HitMap)

/-- The topmost of the regions that take part meets the damage, or none that ties with it does. -/
def Undisturbed (requested : List Rect) (takes : HitRegion → Bool) : Prop :=
  ∀ r, (ties HitRegion.layer takes m.regions).getLast? = some r → r.meets requested = true ∨
    ∀ q ∈ ties HitRegion.layer takes m.regions, q.meets requested = false

/-- The focus targets of two identifiers with the least tab order. -/
def firstTargets (scope : Option HitId) (i j : HitId) : List HitRegion :=
  ties (fun r => -r.tabOrder) (fun r => r.isTarget scope && (r.id = i || r.id = j)) m.regions

/-- Of two identifiers, the first target that stays in its place is one of the identifier that comes first. -/
def OrderKept (occlusions requested : List Rect) (scope : Option HitId) : Prop :=
  ∀ i j r, (m.firstTargets scope i j).head? = some r →
    ∀ q, (m.firstTargets scope i j).find? (·.kept occlusions requested ≠ []) = some q → q.id = r.id

end HitMap

/-- A committed frame without modals or projections is repainted in part. -/
def PresentationState.Regional (s : PresentationState) : Prop :=
  s.previous = true ∧ s.projected = false ∧ s.modalFocus = []

section

variable {m m' : HitMap} (hsub : occlusions ⊆ requested)
  (hm' : m'.regions = m.regions.flatMap (·.kept occlusions requested) ++ m.regions.filter (·.meets requested))
include hsub hm'

/-- The topmost region is the same before and after a repaint exactly if it was not disturbed. -/
theorem topmost_reconciled {takes : HitRegion → Bool} {p : Point}
    (htakes : ∀ r : HitRegion, ∀ area : Rect, area.isEmpty = false →
    (∀ p, area.contains p = true → r.area.contains p = true) →
      r.area.isEmpty = false → takes { r with area } = true → takes r = true) :
    m'.topmost takes p = m.topmost takes p ↔ m.Undisturbed requested takes := by
  unfold HitMap.topmost HitMap.Undisturbed
  have hinj : Function.Injective fun r : HitRegion => (⟨r, ⟨p.x - r.area.x, p.y - r.area.y⟩⟩ : Hit) :=
    fun r q h => congrArg Hit.region h
  rw [(Option.map_injective hinj).eq_iff, hm']
  refine last_repainted (fun r hr => HitRegion.kept_apart hsub (m.nonempty r hr)) fun r hr q hq => ?_
  obtain ⟨hpart, hne, hinside⟩ := HitRegion.remains_part (m.nonempty r hr) (mem_filter.1 hq).1
  rw [hpart]
  exact ⟨rfl, htakes r q.area hne hinside (m.nonempty r hr)⟩

theorem focusTargets_reconciled (scope : Option HitId) :
    m'.focusTargets scope = m.focusTargets scope ↔ m.OrderKept occlusions requested scope := by
  unfold HitMap.focusTargets HitMap.OrderKept HitMap.firstTargets
  rw [eraseDups_iff]
  refine forall_congr' fun i => forall_congr' fun j => ?_
  simp only [find?_map, find_insertionSort, ties_filter, hm', Function.comp_def]
  refine first_repainted (fun r hr => HitRegion.kept_apart hsub (m.nonempty r hr)) fun r hr q hq => ?_
  obtain ⟨hpart, hne, -⟩ := HitRegion.remains_part (m.nonempty r hr) (mem_filter.1 hq).1
  rw [hpart]
  refine ⟨rfl, rfl, ?_⟩
  simp [HitRegion.isTarget, hne, m.nonempty r hr]

end

/-- **A regional repaint of the committed regions** answers as they do, exactly where it is no regional one or what is
seen is undisturbed. -/
theorem regional_repaint (s : PresentationState) (occlusions regions : List Rect) :
    ∃ m, s.prepareHits s.hits occlusions (.regions regions) = some m ∧
      (∀ p, m.hitTest p = s.hits.hitTest p ↔ (s.Regional → s.hits.Undisturbed (requestedRegions regions occlusions)
        fun r => r.enabled && r.contains p)) ∧
      (∀ p kind, m.hitMouse p kind = s.hits.hitMouse p kind ↔ (s.Regional →
        s.hits.Undisturbed (requestedRegions regions occlusions) fun r => r.contains p && r.accepts kind)) ∧
      (∀ p kind scope, m.hitMouseInScope p kind scope = s.hits.hitMouseInScope p kind scope ↔ (s.Regional →
        s.hits.Undisturbed (requestedRegions regions occlusions)
          fun r => r.focusScope = scope && r.contains p && r.accepts kind)) ∧
      ∀ scope, m.focusTargets scope = s.hits.focusTargets scope ↔ (s.Regional →
        s.hits.OrderKept occlusions (requestedRegions regions occlusions) scope) := by
  by_cases hregional : s.Regional
  · obtain ⟨hprevious, hprojected, hmodal⟩ := id hregional
    refine ⟨reconcileStagedHits (occlusions.foldl HitMap.occlude s.hits) s.hits
      (.regions (requestedRegions regions occlusions)), ?_, fun p => ?_, fun p kind => ?_, fun p kind scope => ?_,
      fun scope => ?_⟩
    · simp [PresentationState.prepareHits, hprevious, hprojected, hmodal]
    all_goals rw [forall_prop_of_true hregional]
    · exact topmost_reconciled (fun _ h => mem_requestedRegions.2 (.inr h)) (regions_reconciled ..) fun r area => by
        simp_all [HitRegion.contains]
    · exact topmost_reconciled (fun _ h => mem_requestedRegions.2 (.inr h)) (regions_reconciled ..) fun r area => by
        cases kind <;> simp_all [HitRegion.contains, HitRegion.accepts]
    · exact topmost_reconciled (fun _ h => mem_requestedRegions.2 (.inr h)) (regions_reconciled ..) fun r area => by
        cases kind <;> simp_all [HitRegion.contains, HitRegion.accepts]
    · exact focusTargets_reconciled (fun _ h => mem_requestedRegions.2 (.inr h)) (regions_reconciled ..) scope
  · have hsame : s.prepareHits s.hits occlusions (.regions regions) = some s.hits := by
      unfold PresentationState.prepareHits
      unfold PresentationState.Regional at hregional
      cases hprojected : s.projected <;> cases hprevious : s.previous <;> cases hmodal : s.modalFocus <;> simp_all
    exact ⟨s.hits, hsame, fun _ => iff_of_true rfl (absurd · hregional),
      fun _ _ => iff_of_true rfl (absurd · hregional),
      fun _ _ _ => iff_of_true rfl (absurd · hregional), fun _ => iff_of_true rfl (absurd · hregional)⟩

namespace Sample

def scene (layer : Int) : PresentationState where
  hits := ⟨[{ id := "a", area := ⟨0, 0, 5, 5⟩, focusable := true },
    { id := "b", area := ⟨2, 2, 2, 2⟩, layer, tabOrder := layer, focusable := true }], by simp [Rect.isEmpty]⟩
  previous := true
  projected := false
  modalFocus := []

/-- The corner of the large one is damaged, and comes to lie over the small one. -/
theorem reordered : (scene 0).modalFocus = [] ∧
    ∃ m, (scene 0).prepareHits (scene 0).hits [] (.regions [⟨0, 0, 1, 1⟩]) = some m ∧
      ((scene 0).hits.hitTest ⟨2, 2⟩).map (·.region.id) = some "b" ∧ (m.hitTest ⟨2, 2⟩).map (·.region.id) = some "a" ∧
      (scene 0).hits.focusTargets none = ["a", "b"] ∧ m.focusTargets none = ["b", "a"] :=
  ⟨rfl, _, rfl, by decide +kernel, by decide +kernel, by decide +kernel, by decide +kernel⟩

end Sample
end Bmux.Tui
