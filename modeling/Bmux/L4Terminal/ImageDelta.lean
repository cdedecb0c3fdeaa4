import Bmux.Core.ChangeLog
import Bmux.Core.Run
import Bmux.Core.Wire
import Bmux.L4Terminal.ImageRegistry

/-!
# Clients that follow a pane's images

A client polls `delta_since` with the sequence number of the last delta it got something from, drops
the removed images and appends the added ones. Every operation of the registry logs what it changes
under a higher number (`Moves`, one lemma per operation), so a delta answered from the change log
brings the client up to date (`images_converge`).

When the log has been compacted past the client's number, `delta_since` falls back to all images with
no removals, and the client appends them to those it has: `Sample.doubled` is a client that ends up
with one image twice.
-/
namespace Bmux.Image
open Std (ExtTreeMap)
open List Screen ChangeLogEntry Client Nat
open ChangeLog (Advances Follows Reaches)

def withId (images : List PaneImage) (id : Nat) : Option PaneImage := images.find? fun image => image.id = id

def Screen.source (s : Screen) : ChangeLog.Source Nat PaneImage :=
  { items := withId s.images, sequence := s.sequence, log := s.changeLog.map fun e => (e.sequence, e.imageId) }

/-- Ids are unique and below the next one, and a placement is retained under its id. -/
structure Screen.Sound (s : Screen) : Prop where
  limit : s.maxChangeLog = 1000
  unique : (s.images.map PaneImage.id).Nodup
  known : ∀ image ∈ s.images, image.id < s.nextId
  positive : 1 ≤ s.nextId
  history : TreeMap.All (fun id e => e.1.id = id ∧ id < s.nextId) s.history

/-- A change of the screen that keeps it sound and that its log accounts for. -/
structure Moves (s t : Screen) : Prop where
  sound : t.Sound
  nextId : s.nextId ≤ t.nextId
  advances : Advances s.source t.source

variable {s : Screen}

theorem Moves.trans {t u : Screen} (h₁ : Moves s t) (h₂ : Moves t u) : Moves s u :=
  ⟨h₂.sound, le_trans h₁.nextId h₂.nextId, h₁.advances.trans h₂.advances⟩

theorem Moves.refl (h : s.Sound) : Moves s s := ⟨h, le_rfl, .refl _⟩

theorem Moves.next {t u : Screen} (h : Moves s t) (hnext : t.Sound → Moves t u) : Moves s u := h.trans (hnext h.sound)

/-! ## Lists of images -/

variable {images : List PaneImage}

theorem withId_eq_some (h : (images.map PaneImage.id).Nodup) {id : Nat} {image : PaneImage} :
    withId images id = some image ↔ image ∈ images ∧ image.id = id := by
  constructor
  · intro hf
    exact ⟨mem_of_find?_eq_some hf, by simpa using find?_some hf⟩
  · rintro ⟨hmem, rfl⟩
    induction images with
    | nil => cases hmem
    | cons a images ih =>
      rw [map_cons, nodup_cons] at h
      unfold withId
      rcases mem_cons.mp hmem with rfl | hmem
      · simp
      · have hne : a.id ≠ image.id := fun heq => h.1 (heq ▸ mem_map_of_mem hmem)
        simp only [find?_cons, hne, decide_false]
        exact ih h.2 hmem

theorem withId_append (a b : List PaneImage) (id : Nat) : withId (a ++ b) id = (withId a id).or (withId b id) := by
  simp [withId]

theorem withId_eq_none {id : Nat} : withId images id = none ↔ ∀ image ∈ images, image.id ≠ id := by
  unfold withId
  simp

theorem withId_filter {p : PaneImage → Bool} {id : Nat}
    (h : ∀ image, image.id = id → p image = true) : withId (images.filter p) id = withId images id := by
  unfold withId
  rw [find?_filter]
  congr 1
  funext image
  by_cases hi : image.id = id
  · simp [hi, h image hi]
  · simp [hi]

theorem nodup_filter (h : (images.map PaneImage.id).Nodup) (p : PaneImage → Bool) :
    ((images.filter p).map PaneImage.id).Nodup := h.sublist (filter_sublist.map _)

/-- Lists of unique images are the same up to order if they agree on every id. -/
theorem perm_of_withId {a b : List PaneImage} (ha : (a.map PaneImage.id).Nodup) (hb : (b.map PaneImage.id).Nodup)
    (h : withId a = withId b) : a.Perm b := by
  rw [perm_ext_iff_of_nodup (List.Nodup.of_map _ ha) (List.Nodup.of_map _ hb)]
  intro image
  have ha' : withId a image.id = some image ↔ _ := withId_eq_some ha
  have hb' : withId b image.id = some image ↔ _ := withId_eq_some hb
  rw [h] at ha'
  simpa using ha'.symm.trans hb'

/-! ## What each operation logs -/

section Moves

variable {s t : Screen}

variable {codec : Codec}

theorem cropped_id {image p q : PaneImage} {skipped rows : Nat}
    (h : cropped codec image p skipped rows = .ok q) : q.id = p.id := by
  unfold cropped at h
  split at h
  · obtain ⟨_, _, hq⟩ := bind_eq_ok.mp h
    cases hq
    rfl
  · cases h; rfl

theorem reencoded_id {p q : PaneImage} (h : reencoded codec p = .ok q) : q.id = p.id := by
  unfold reencoded at h
  split at h
  · obtain ⟨_, _, hq⟩ := bind_eq_ok.mp h
    cases hq
    rfl
  · cases h; rfl

variable {offset : Int} {height : Nat}

theorem projectImage_id {image projected : PaneImage} {row : Int}
    (h : projectImage codec offset height image row = some (.ok projected)) : projected.id = image.id := by
  unfold projectImage at h
  dsimp only at h
  split at h
  · cases h
  · obtain ⟨p, hp, hrest⟩ := bind_eq_ok.mp (Option.some.inj h)
    have hsame := reencoded_id hrest
    have hid := cropped_id hp
    exact hsame.trans hid

variable {projected : List PaneImage}

theorem projected_ids {entries : List (Nat × PaneImage × Int)}
    (h : (entries.filterMap fun e => projectImage codec offset height e.2.1 e.2.2).mapM id = .ok projected) :
    (projected.map PaneImage.id).Sublist (entries.map fun e => e.2.1.id) := by
  induction entries generalizing projected with
  | nil => cases h; exact List.Sublist.refl _
  | cons e entries ih =>
    cases hp : projectImage codec offset height e.2.1 e.2.2 with
    | none =>
      simp only [filterMap_cons, hp] at h
      exact (ih h).cons _
    | some r =>
      simp only [filterMap_cons, hp, mapM_cons] at h
      obtain ⟨image, himage, hrest⟩ := bind_eq_ok.mp h
      obtain ⟨images, himages, hlist⟩ := bind_eq_ok.mp hrest
      cases hlist
      have himage' : r = .ok image := himage
      rw [himage'] at hp
      rw [map_cons, projectImage_id hp]
      exact (ih himages).cons_cons _

theorem mem_of_mapM {α β ε : Type} {f : α → Except ε β} {l : List α} {r : List β} (h : l.mapM f = .ok r) {b : β}
    (hb : b ∈ r) : ∃ a ∈ l, f a = .ok b := by
  induction l generalizing r with
  | nil => cases h; cases hb
  | cons a l ih =>
    rw [mapM_cons] at h
    obtain ⟨b', hb', hrest⟩ := bind_eq_ok.mp h
    obtain ⟨r', hr', hcons⟩ := bind_eq_ok.mp hrest
    cases hcons
    rcases mem_cons.mp hb with rfl | hb
    · exact ⟨a, mem_cons_self, hb'⟩
    · obtain ⟨a', ha', hf⟩ := ih hr' hb
      exact ⟨a', mem_cons_of_mem _ ha', hf⟩

/-- New entries under the next number, naming every image that changed. -/
theorem advances_logged (new : List ChangeLogEntry) (hseq : t.sequence = s.sequence + 1)
    (hlog : t.changeLog = s.changeLog ++ new) (hnew : ∀ e ∈ new, e.sequence = s.sequence + 1)
    (hitems : ∀ id, (∀ e ∈ new, e.imageId ≠ id) → withId t.images id = withId s.images id) :
    Advances s.source t.source := by
  refine ⟨?_, new.map fun e => (e.sequence, e.imageId), 0, ?_, ?_, ?_, ?_, ?_⟩
  · simp only [source]; omega
  · simp [source, hlog]
  · intro h
    simpa [source, hlog] using h
  · rw [pairwise_map]
    refine pairwise_iff_forall_sublist.mpr ?_
    intro a b hab
    rw [hnew a (hab.subset (by simp)), hnew b (hab.subset (by simp))]
  · intro e he
    obtain ⟨x, hx, rfl⟩ := mem_map.mp he
    have := hnew x hx
    simp only [source]
    omega
  · intro id hid
    refine hitems id ?_
    intro e he heq
    refine hid (mem_map.mpr ⟨(e.sequence, e.imageId), mem_map_of_mem he, heq⟩)

theorem advances_shown {gone : List PaneImage} (hseq : t.sequence = s.sequence + 1)
    (hlog : t.changeLog = s.changeLog ++ gone.map (fun old => removed (s.sequence + 1) old.id) ++
      t.images.map (added (s.sequence + 1)))
    (hgone : ∀ old ∈ s.images, withId t.images old.id = none → old ∈ gone) : Advances s.source t.source := by
  refine advances_logged _ hseq (hlog.trans (append_assoc _ _ _)) ?_ fun id hid => ?_
  · intro e he
    rcases mem_append.mp he with he | he
    · obtain ⟨old, -, rfl⟩ := mem_map.mp he
      rfl
    · obtain ⟨image, -, rfl⟩ := mem_map.mp he
      rfl
  · -- not shown now, and not shown before either or its removal would be logged
    have hnow : withId t.images id = none :=
      withId_eq_none.mpr fun image hmem => hid _ (mem_append_right _ (mem_map_of_mem hmem))
    rw [hnow]
    refine (withId_eq_none.mpr ?_).symm
    rintro old hmem rfl
    exact hid _ (mem_append_left _ (mem_map.mpr ⟨old, hgone old hmem hnow, rfl⟩)) rfl

theorem moves_compact (h : s.Sound) : Moves s s.compactChangeLog := by
  unfold compactChangeLog
  split
  · have hlimit := h.limit
    refine ⟨{ h with }, le_rfl, le_rfl, [], s.changeLog.length - s.maxChangeLog / 2, ?_, ?_, by simp, nofun, ?_⟩
    · simp [source]
    · intro _ hnil
      have hlength := congrArg List.length hnil
      simp only [source, length_map, length_drop, length_nil] at hlength
      omega
    · intro id _
      rfl
  · exact .refl h

theorem Moves.compact (h : Moves s t) : Moves s t.compactChangeLog := h.next moves_compact

theorem moves_quiet (himages : t.images = s.images) (hlog : t.changeLog = s.changeLog)
    (hsequence : s.sequence ≤ t.sequence) (hnext : s.nextId ≤ t.nextId) (hsound : t.Sound) : Moves s t :=
  ⟨hsound, hnext, .quiet (by simp only [source, himages]) (by simp only [source, hlog]) hsequence⟩

theorem moves_uploads (h : s.Sound) (hscreen : t = { s with
    kittyTransmitted := t.kittyTransmitted, kittyPlacements := t.kittyPlacements, viewportHeight := t.viewportHeight
    kittyPendingChunks := t.kittyPendingChunks, sequence := t.sequence }) (hsequence : s.sequence ≤ t.sequence) :
    Moves s t := by
  refine moves_quiet ?_ ?_ hsequence ?_ ?_
  · rw [hscreen]
  · rw [hscreen]
  · rw [hscreen]
  · rw [hscreen]
    exact { h with }

theorem Moves.placements (h : Moves s t) (placements : Placements) : Moves s { t with kittyPlacements := placements } :=
  h.next (moves_uploads · rfl le_rfl)

theorem moves_removed {id : Nat} {images : List PaneImage} (hsound : ({ s with images }.logRemoved id).Sound)
    (himages : ∀ k, k ≠ id → withId images k = withId s.images k) : Moves s ({ s with images }.logRemoved id) := by
  refine ⟨hsound, le_rfl, advances_logged [.removed (s.sequence + 1) id] rfl rfl ?_ ?_⟩
  · intro e he
    cases mem_singleton.mp he
    rfl
  · intro k hk
    exact himages k fun heq => hk _ (mem_singleton_self _) heq.symm

/-- The other screen's images take the place of all that were shown. -/
theorem moves_switchTo {shown : Screen} (hshown : shown.Sound) (hnext : shown.nextId ≤ s.nextId) :
    Moves s (ImageRegistry.switchTo shown s) := by
  refine .compact ⟨⟨hshown.limit, hshown.unique, ?_, le_trans hshown.positive hnext, ?_⟩, le_rfl,
    advances_shown rfl rfl fun _ hmem _ => hmem⟩
  · intro image hmem
    exact lt_of_lt_of_le (hshown.known image hmem) hnext
  · exact hshown.history.imp fun id e _ he => ⟨he.1, lt_of_lt_of_le he.2 hnext⟩

variable (h : s.Sound)
include h

theorem moves_dropImages {exceeds : Screen → Bool} {images : List PaneImage} (hs : s.images = images) :
    Moves s (s.dropImages exceeds images) := by
  induction images generalizing s with
  | nil => exact .refl h
  | cons removed images ih =>
    rw [dropImages]
    split
    · have hunique := h.unique
      rw [hs, map_cons, nodup_cons] at hunique
      have hsound : ({ s with images }.logRemoved removed.id).Sound :=
        { h with
          unique := hunique.2
          known := fun image hmem => h.known image (hs ▸ mem_cons_of_mem _ hmem) }
      refine (moves_removed hsound fun k hk => ?_).next (ih · rfl)
      unfold withId
      rw [hs, find?_cons_of_neg (by simpa using Ne.symm hk)]
    · exact .refl h

theorem moves_forget (id : Nat) (placements : Placements) : Moves s ({ s with
      history := s.history.erase id, kittyPlacements := placements
      images := s.images.filter fun image => image.id ≠ id }.logRemoved id) := by
  have hquiet : Moves s { s with history := s.history.erase id, kittyPlacements := placements } :=
    moves_quiet rfl rfl le_rfl le_rfl { h with history := h.history.erase }
  refine hquiet.trans (moves_removed ?_ ?_)
  · exact
      { limit := h.limit
        unique := nodup_filter h.unique _
        known := fun image hmem => h.known image (mem_of_mem_filter hmem)
        positive := h.positive
        history := h.history.erase }
  · intro k hk
    refine withId_filter ?_
    rintro image rfl
    simpa using hk

theorem moves_dropHistory (exceeds : Screen → Bool) (ids : List Nat) :
    Moves s (s.dropHistory exceeds ids) := by
  induction ids generalizing s with
  | nil => exact .refl h
  | cons id ids ih =>
    rw [dropHistory]
    split
    · exact (moves_forget h id s.kittyPlacements).next ih
    · exact .refl h

theorem moves_enforceLimits : Moves s s.enforceLimits := by
  unfold enforceLimits
  extract_lets s₁ s₂ s₃
  have h₁ : Moves s s₁ := moves_dropImages h rfl
  have h₂ : Moves s₁ s₂ := by
    unfold s₂
    split
    · exact moves_dropImages h₁.sound rfl
    · exact .refl h₁.sound
  have h₃ : Moves s s₃ := (h₁.trans h₂).next (moves_dropHistory · _ _)
  exact (h₃.placements _).compact

/-- A new image gets the next id, and is logged if it is in the viewport. -/
theorem moves_addImage (protocol : ImageProtocol) (payload : ImagePayload) (position : ImagePosition)
    (cellSize : ImageCellSize) (pixelSize : ImagePixelSize) :
    Moves s (s.addImage protocol payload position cellSize pixelSize) := by
  unfold addImage
  let image : PaneImage := { id := s.nextId, protocol, payload, position, cellSize, pixelSize }
  let t : Screen := { s with
    nextId := s.nextId + 1
    sequence := s.sequence + 1
    history := s.history.insert s.nextId (image, (position.row : Int)) }
  have hhistory : TreeMap.All (fun id e => e.1.id = id ∧ id < s.nextId + 1) t.history := by
    refine TreeMap.All.insert ?_ ⟨rfl, lt_succ_self _⟩
    exact h.history.imp fun id e _ he => ⟨he.1, lt_succ_of_lt he.2⟩
  have hmove : Moves s (if position.row < s.viewportHeight then
      { t with changeLog := s.changeLog ++ [.added (s.sequence + 1) image], images := s.images ++ [image] }
        else t) := by
    by_cases hrow : position.row < s.viewportHeight
    · rw [if_pos hrow]
      have hfresh : ∀ x ∈ s.images, x.id ≠ s.nextId := fun x hx heq => lt_irrefl _ (heq ▸ h.known x hx)
      refine ⟨?_, le_succ _, advances_logged [.added (s.sequence + 1) image] rfl rfl ?_ ?_⟩
      · refine ⟨h.limit, ?_, ?_, le_add_left _ _, hhistory⟩
        · rw [map_append, nodup_append]
          refine ⟨h.unique, by simp, ?_⟩
          intro id hid id' hid'
          obtain ⟨x, hx, rfl⟩ := mem_map.mp hid
          rw [map_singleton, mem_singleton] at hid'
          exact hid' ▸ hfresh x hx
        · intro x hx
          rcases mem_append.mp hx with hx | hx
          · exact lt_succ_of_lt (h.known x hx)
          · cases mem_singleton.mp hx
            exact lt_succ_self _
      · intro e he
        cases mem_singleton.mp he
        rfl
      · intro id hid
        have hne : image.id ≠ id := hid _ (mem_singleton_self _)
        have hnone : withId [image] id = none := withId_eq_none.mpr fun x hx => by
          cases mem_singleton.mp hx; exact hne
        rw [withId_append, hnone, Option.or_none]
    · rw [if_neg hrow]
      refine moves_quiet rfl rfl (le_succ _) (le_succ _) ⟨h.limit, h.unique, ?_, le_add_left _ _, hhistory⟩
      intro x hx
      exact lt_succ_of_lt (h.known x hx)
  exact hmove.compact.next moves_enforceLimits

/-! ## Projections -/

theorem sound_projection
    (hp : s.projectViewport codec offset height = .ok projected) :
    (projected.map PaneImage.id).Nodup ∧ ∀ image ∈ projected, image.id < s.nextId := by
  unfold projectViewport at hp
  split at hp
  · cases hp
    exact ⟨nodup_nil, nofun⟩
  · have hsub := projected_ids hp
    have hkeys : (s.history.toList.map fun e => e.2.1.id) = s.history.toList.map Prod.fst := by
      refine map_congr_left ?_
      intro e he
      exact (h.history e.1 e.2 (ExtTreeMap.mem_toList_iff_getElem?_eq_some.mp he)).1
    rw [hkeys] at hsub
    refine ⟨TreeMap.nodup_keys_toList.sublist hsub, ?_⟩
    intro image himage
    obtain ⟨e, he, hid⟩ := mem_map.mp (hsub.subset (mem_map_of_mem himage))
    rw [← hid]
    exact (h.history e.1 e.2 (ExtTreeMap.mem_toList_iff_getElem?_eq_some.mp he)).2

/-- Whatever is shown before or after is logged. -/
theorem moves_showProjection (hunique : (projected.map PaneImage.id).Nodup)
    (hknown : ∀ image ∈ projected, image.id < s.nextId) : Moves s (s.showProjection projected) := by
  refine .compact ⟨⟨h.limit, hunique, hknown, h.positive, h.history⟩, le_rfl,
    advances_shown rfl rfl fun old hmem hnone => ?_⟩
  exact mem_filter.mpr ⟨hmem, by simpa using withId_eq_none.mp hnone⟩

theorem moves_scrollUp (codec : Codec) (lines : Nat) : Moves s (s.scrollUp codec lines) := by
  unfold scrollUp
  split
  · exact .refl h
  · dsimp only
    let moved : Screen := { s with history := s.history.map fun _ (e : PaneImage × Int) =>
      (e.1, saturate (e.2 - lines)) }
    have hsound : moved.Sound := by
      refine { h with history := ?_ }
      intro id e he
      rw [ExtTreeMap.getElem?_map] at he
      obtain ⟨e', he', rfl⟩ := Option.map_eq_some_iff.mp he
      exact h.history id e' he'
    split
    · exact .refl h
    · rename_i projected hp
      obtain ⟨hunique, hknown⟩ := sound_projection hsound hp
      have hquiet : Moves s moved := moves_quiet rfl rfl le_rfl le_rfl hsound
      exact hquiet.trans (moves_showProjection hsound hunique hknown)

theorem moves_commit
    (hp : s.projectViewport codec 0 height = .ok projected) (viewportHeight : Nat) :
    Moves s { s.commitAlternateProjection projected with viewportHeight } := by
  have hmove : Moves s (s.commitAlternateProjection projected) := by
    unfold commitAlternateProjection
    split
    · exact .refl h
    · obtain ⟨hunique, hknown⟩ := sound_projection h hp
      exact moves_showProjection h hunique hknown
  exact hmove.next (moves_uploads · rfl le_rfl)

theorem moves_remapMain {map : Int → Nat → Except Unit (Int × Nat)}
    (hmap : s.remapMain codec height map = .ok t) : Moves s t := by
  obtain ⟨positions, hpositions, hrest⟩ := bind_eq_ok.mp hmap
  obtain ⟨projected, hp, hshown⟩ := bind_eq_ok.mp hrest
  cases hshown
  let moved : Screen := { s with history := s.history.insertMany positions }
  have hsound : moved.Sound := by
    refine { h with history := h.history.insertMany ?_ }
    intro e he
    obtain ⟨entry, hentry, hmoved⟩ := mem_of_mapM hpositions he
    have hkept := h.history entry.1 entry.2 (ExtTreeMap.mem_toList_iff_getElem?_eq_some.mp hentry)
    obtain ⟨p, -, hmoved⟩ := bind_eq_ok.mp hmoved
    cases hmoved
    exact hkept
  obtain ⟨hunique, hknown⟩ := sound_projection hsound hp
  have hquiet : Moves s moved := moves_quiet rfl rfl le_rfl le_rfl hsound
  exact (hquiet.trans (moves_showProjection hsound hunique hknown)).next (moves_uploads · rfl le_rfl)

/-! ## Removals -/

theorem moves_evictHistory (retainedRows : Nat) : Moves s (s.evictHistory retainedRows) := by
  refine moves_quiet rfl rfl ?_ le_rfl { h with history := h.history.filter }
  unfold evictHistory
  dsimp only
  split
  · exact le_succ _
  · exact le_rfl

theorem moves_hideAll : Moves s s.hideAll :=
  ⟨{ h with unique := nodup_nil, known := nofun }, le_rfl, advances_shown rfl (append_nil _).symm fun _ hmem _ => hmem⟩

theorem moves_clearDisplay : Moves s s.clearDisplay := by
  refine .compact ((moves_hideAll h).next fun hhide => ?_)
  exact moves_quiet rfl rfl le_rfl le_rfl { hhide with history := h.history.filter }

theorem moves_clear : Moves s s.clear := by
  have hempty : Moves s { s.hideAll with history := ∅ } :=
    (moves_hideAll h).next fun hhide => moves_quiet rfl rfl le_rfl le_rfl { hhide with history := .empty }
  exact hempty.compact.next (moves_uploads · rfl le_rfl)

theorem moves_removeImage (id : Nat) : Moves s (s.removeImage id) := by
  unfold removeImage
  dsimp only
  split
  · exact (moves_forget h id (s.kittyPlacements.filter fun _ retained => retained ≠ id)).compact
  · next hheld =>
    rw [not_or, not_not] at hheld
    -- nothing of the image is shown or retained
    have hsame : (s.images.filter fun image => image.id ≠ id) = s.images :=
      filter_sublist.eq_of_length hheld.1
    refine moves_quiet hsame rfl le_rfl le_rfl ⟨h.limit, ?_, ?_, h.positive, h.history.erase⟩
    · exact nodup_filter h.unique _
    · intro image hmem
      exact h.known image (mem_of_mem_filter hmem)

theorem moves_removeImages (ids : List Nat) : Moves s (s.removeImages ids) := by
  induction ids generalizing s with
  | nil => exact .refl h
  | cons id ids ih => exact (moves_removeImage h id).next ih

/-! ## Kitty commands -/

theorem moves_releaseUploads (ids : List Nat) : Moves s (s.releaseUploads ids) :=
  moves_uploads h rfl le_rfl

theorem moves_trimUploads (passes : Nat) : Moves s (trimUploads passes s) := by
  induction passes generalizing s with
  | zero => exact .refl h
  | succ passes ih =>
    rw [trimUploads]
    dsimp only
    split
    · exact .refl h
    · split
      · exact .refl h
      · exact (moves_releaseUploads h [_]).next ih

variable (imageId : Nat) (format : KittyFormat) (data : Bytes) (width height : Nat)

theorem moves_finishTransmission :
    Moves s (s.finishTransmission imageId format data width height).1 := by
  unfold finishTransmission
  dsimp only
  split
  · exact moves_uploads h rfl le_rfl
  · split
    · exact moves_uploads h rfl le_rfl
    · exact moves_uploads h rfl (le_succ _)

theorem moves_extendTransmission :
    Moves s (s.extendTransmission imageId format data width height).1 := by
  unfold extendTransmission
  dsimp only
  split
  · exact moves_uploads h rfl le_rfl
  · exact moves_uploads h rfl le_rfl

theorem moves_removePlacement (key : Nat × Nat) (retained : Nat) :
    Moves s ({ s with kittyPlacements := s.kittyPlacements.erase key }.removeImage retained) := by
  exact ((Moves.refl h).placements _).next (moves_removeImage · retained)

theorem moves_deletePlacement (placementId : Nat) : Moves s (s.deletePlacement imageId placementId) := by
  unfold deletePlacement
  split
  · exact moves_removePlacement h _ _
  · exact .refl h

variable (codec) (cellPixelWidth cellPixelHeight : Nat)

theorem moves_place (placement : KittyPlacement) :
    Moves s (s.place codec placement cellPixelWidth cellPixelHeight).1 := by
  unfold place
  split
  · exact .refl h
  · rename_i transmitted _
    split
    · exact .refl h
    · rename_i payload _
      dsimp only
      have hreplaced := moves_deletePlacement h placement.imageId placement.placementId
      have hadd := hreplaced.trans (moves_addImage hreplaced.sound .kittyGraphics payload placement.position
        (placementCells placement.cellSize { width := transmitted.width, height := transmitted.height }
          cellPixelWidth cellPixelHeight) { width := transmitted.width, height := transmitted.height })
      split
      · exact hadd.placements _
      · exact hadd

theorem moves_delete (specifier : KittyDeleteSpecifier) : Moves s (s.delete specifier) := by
  cases specifier with
  | all | byImageId => exact moves_removeImages h _
  | allAndData => exact (moves_removeImages h s.kittyPlacements.values).next (moves_releaseUploads · _)
  | byImageIdAndData id => exact (moves_releaseUploads h [id]).next (moves_removeImages · _)
  | byPlacementId imageId placementId => exact moves_deletePlacement h imageId placementId
  | byPlacementIdAndData imageId placementId =>
    have hmove := moves_deletePlacement h imageId placementId
    unfold delete
    dsimp only
    split
    · exact hmove
    · exact hmove.next (moves_releaseUploads · _)

theorem moves_handleKittyCommand (command : KittyCommand) :
    Moves s (s.handleKittyCommand codec command cellPixelWidth cellPixelHeight) := by
  have htrim : ∀ handled : Handled, Moves s handled.1 →
      Moves s (if handled.2 then handled.1.trimKittyUploads else handled.1) := by
    intro handled hmove
    split
    · exact hmove.next (moves_trimUploads · _)
    · exact hmove
  cases command with
  | transmit imageId format data width height moreChunks =>
    cases moreChunks with
    | false => exact htrim _ (moves_finishTransmission h imageId format data width height)
    | true => exact htrim _ (moves_extendTransmission h imageId format data width height)
  | place placement => exact htrim _ (moves_place codec h cellPixelWidth cellPixelHeight placement)
  | delete specifier => exact htrim (s.delete specifier, true) (moves_delete h specifier)
  | query imageId => exact htrim (s, true) (.refl h)

theorem moves_handleEvent (event : ImageEvent) :
    Moves s (s.handleEvent codec event cellPixelWidth cellPixelHeight) := by
  cases event with
  | sixelImage data position pixelSize => exact moves_addImage h _ _ _ _ _
  | kittyCommand command => exact moves_handleKittyCommand codec h cellPixelWidth cellPixelHeight command
  | iTerm2Image data position =>
    unfold handleEvent
    dsimp only
    split
    · exact .refl h
    · split
      · exact .refl h
      · split
        · exact .refl h
        · exact moves_addImage h _ _ _ _ _

end Moves

/-! ## The registry -/

/-- Both screens are sound, and the ids of the hidden one were given out before. -/
structure ImageRegistry.Sound (r : ImageRegistry) : Prop where
  screen : r.screen.Sound
  normal : ∀ normal ∈ r.normalScreen, normal.Sound ∧ normal.nextId ≤ r.screen.nextId

theorem sound_new (maxImages maxBytes : Nat) : (new maxImages maxBytes).Sound :=
  ⟨rfl, nodup_nil, nofun, le_rfl, .empty⟩

theorem ImageRegistry.sound_new (maxImages maxBytes viewportHeight : Nat) :
    (ImageRegistry.new maxImages maxBytes viewportHeight).Sound :=
  ⟨{ Image.sound_new maxImages maxBytes with }, nofun⟩

section Registry

variable {r : ImageRegistry}

/-- An operation that keeps the registry sound and logs what it changes of the shown images. -/
def Logs (r t : ImageRegistry) : Prop := t.Sound ∧ Moves r.screen t.screen

theorem ImageRegistry.Sound.shown (h : r.Sound) {screen : Screen} (hmove : Moves r.screen screen) :
    Logs r { r with screen } := by
  refine ⟨⟨hmove.sound, ?_⟩, hmove⟩
  intro normal hnormal
  exact ⟨(h.normal normal hnormal).1, le_trans (h.normal normal hnormal).2 hmove.nextId⟩

theorem sound_kept {screen normal : Screen} (hmove : Moves r.screen screen) (hnormal : normal.Sound)
    (hnext : normal.nextId ≤ screen.nextId) : Logs r ⟨screen, some normal⟩ :=
  ⟨⟨hmove.sound, fun _ h => Option.some.inj h ▸ ⟨hnormal, hnext⟩⟩, hmove⟩

theorem remapMain_nextId {codec : Codec} {s t : Screen} {height : Nat} {map : Int → Nat → Except Unit (Int × Nat)}
    (h : s.remapMain codec height map = .ok t) : t.nextId = s.nextId := by
  obtain ⟨positions, -, hrest⟩ := bind_eq_ok.mp h
  obtain ⟨projected, -, hshown⟩ := bind_eq_ok.mp hrest
  cases hshown
  unfold showProjection compactChangeLog
  dsimp only
  split <;> rfl

variable (h : r.Sound)
include h

theorem setAlternateScreen_moves (alternate : Bool) :
    Logs r (r.setAlternateScreen alternate) := by
  unfold ImageRegistry.setAlternateScreen
  split
  · let fresh : Screen := { new r.screen.maxImages r.screen.maxBytes with viewportHeight := r.screen.viewportHeight }
    have hfresh : fresh.Sound := { sound_new r.screen.maxImages r.screen.maxBytes with }
    have hmove : Moves r.screen (ImageRegistry.switchTo fresh r.screen) := moves_switchTo hfresh h.screen.positive
    exact sound_kept hmove { h.screen with } hmove.nextId
  · rename_i normal hnormal
    have hkept := h.normal normal hnormal
    have hmove := moves_switchTo hkept.1 hkept.2
    exact ⟨⟨hmove.sound, nofun⟩, hmove⟩
  · exact ⟨h, .refl h.screen⟩

theorem resizeAlternateViewport_moves (codec : Codec) (height : Nat) :
    Logs r (r.resizeAlternateViewport codec height) := by
  unfold ImageRegistry.resizeAlternateViewport
  split
  · split
    · exact h.shown (moves_quiet rfl rfl le_rfl le_rfl { h.screen with })
    · exact ⟨h, .refl h.screen⟩
  · rename_i normal hnormal
    split
    · exact ⟨h, .refl h.screen⟩
    · rename_i projected hp
      have hkept := h.normal normal hnormal
      have hmove := moves_commit h.screen hp height
      split
      · exact sound_kept hmove { hkept.1 with } (le_trans hkept.2 hmove.nextId)
      · exact sound_kept hmove hkept.1 (le_trans hkept.2 hmove.nextId)

theorem remapPositions_moves (codec : Codec) (height : Nat) (map : Int → Nat → Except Unit (Int × Nat)) :
    Logs r (r.remapPositions codec height map) := by
  unfold ImageRegistry.remapPositions
  split
  · split
    · exact ⟨h, .refl h.screen⟩
    · rename_i screen hmap
      exact h.shown (moves_remapMain h.screen hmap)
  · rename_i normal hnormal
    split
    · rename_i projected remapped hp hmap
      have hkept := h.normal normal hnormal
      have hmove := moves_commit h.screen hp height
      refine sound_kept hmove (moves_remapMain hkept.1 hmap).sound ?_
      rw [remapMain_nextId hmap]
      exact le_trans hkept.2 hmove.nextId
    · exact ⟨h, .refl h.screen⟩

theorem evictMainHistory_moves (retainedRows : Nat) :
    Logs r (r.evictMainHistory retainedRows) := by
  unfold ImageRegistry.evictMainHistory
  split
  · rename_i normal hnormal
    have hkept := h.normal normal hnormal
    exact sound_kept (.refl h.screen) (moves_evictHistory hkept.1 retainedRows).sound hkept.2
  · exact h.shown (moves_evictHistory h.screen retainedRows)

theorem apply_moves (codec : Codec) (op : Op) :
    Logs r (r.apply codec op) := by
  cases op with
  | handleEvent event w h' => exact h.shown (moves_handleEvent codec h.screen w h' event)
  | scrollUp lines => exact h.shown (moves_scrollUp h.screen codec lines)
  | resizeAlternateViewport height => exact resizeAlternateViewport_moves h codec height
  | remapPositions height map => exact remapPositions_moves h codec height map
  | setAlternateScreen alternate => exact setAlternateScreen_moves h alternate
  | evictMainHistory retainedRows => exact evictMainHistory_moves h retainedRows
  | evictHistory retainedRows => exact h.shown (moves_evictHistory h.screen retainedRows)
  | clearDisplay => exact h.shown (moves_clearDisplay h.screen)
  | clear => exact h.shown (moves_clear h.screen)
  | reset =>
    have hmove := moves_clear h.screen
    exact ⟨⟨hmove.sound, nofun⟩, hmove⟩

end Registry

/-! ## Polls -/

/-- The first entry of the log is not above the client's number, so the delta comes from the log. -/
def Covered (s : Screen) (since : Nat) : Prop := ∀ e ∈ s.changeLog.head?, e.sequence ≤ since

/-- The client holds the images as of its number, each once. -/
structure Synced (r : ImageRegistry) (client : Client) : Prop where
  registry : r.Sound
  unique : (client.images.map PaneImage.id).Nodup
  empty : client.sequence = 0 → client.images = []
  follows : Follows (withId client.images) client.sequence r.screen.source

theorem mem_touched {since id : Nat} :
    id ∈ (((s.changeLog.filter fun e => e.sequence > since).map imageId).dedup).mergeSort ↔
      id ∈ ChangeLog.touched s.source.log since := by
  rw [(mergeSort_perm _ _).mem_iff, mem_dedup]
  simp only [ChangeLog.touched, source, mem_map, mem_filter, decide_eq_true_eq]
  constructor
  · rintro ⟨e, ⟨he, hlt⟩, rfl⟩
    exact ⟨(e.sequence, e.imageId), ⟨⟨e, he, rfl⟩, hlt⟩, rfl⟩
  · rintro ⟨-, ⟨⟨e, he, rfl⟩, hlt⟩, rfl⟩
    exact ⟨e, ⟨he, hlt⟩, rfl⟩

section Polls

variable {r : ImageRegistry} {client : Client}

theorem Synced.apply (h : Synced r client) (codec : Codec) (op : Op) : Synced (r.apply codec op) client := by
  obtain ⟨hsound, hmove⟩ := apply_moves h.registry codec op
  exact { h with registry := hsound, follows := h.follows.advance hmove.advances }

theorem readded_ids (images : List PaneImage) (touched : List Nat) :
    ((touched.filterMap fun id => withId images id).map PaneImage.id).Sublist touched := by
  induction touched with
  | nil => exact List.Sublist.refl _
  | cons id touched ih =>
    cases hfound : withId images id with
    | none =>
      rw [filterMap_cons_none hfound]
      exact ih.cons _
    | some image =>
      rw [filterMap_cons_some hfound, map_cons]
      have hid : image.id = id := by simpa using find?_some hfound
      rw [hid]
      exact ih.cons_cons _

variable {images : List PaneImage}

theorem withId_readded (h : (images.map PaneImage.id).Nodup) {touched : List Nat}
    (hnodup : touched.Nodup) (id : Nat) :
    withId (touched.filterMap fun id => withId images id) id = if id ∈ touched then withId images id else none := by
  have hreadded := hnodup.sublist (readded_ids images touched)
  by_cases hid : id ∈ touched
  · rw [if_pos hid]
    ext image
    rw [withId_eq_some hreadded, mem_filterMap]
    constructor
    · rintro ⟨⟨k, -, hk⟩, rfl⟩
      rwa [((withId_eq_some h).mp hk).2]
    · intro hfound
      exact ⟨⟨id, hid, hfound⟩, ((withId_eq_some h).mp hfound).2⟩
  · rw [if_neg hid, withId_eq_none]
    rintro image himage rfl
    exact hid ((readded_ids images touched).subset (mem_map_of_mem himage))

/-- What is touched is replaced by what the registry has; the rest was right before. -/
theorem withId_receive {known : List PaneImage} (h : (images.map PaneImage.id).Nodup)
    (hknown : (known.map PaneImage.id).Nodup) {touched : List Nat} (hnodup : touched.Nodup)
    (hright : ∀ id, id ∉ touched → withId known id = withId images id) :
    withId ((known.filter fun image => !touched.contains image.id) ++ touched.filterMap fun id => withId images id) =
      withId images ∧ (((known.filter fun image => !touched.contains image.id) ++
      touched.filterMap fun id => withId images id).map PaneImage.id).Nodup := by
  constructor
  · funext id
    rw [withId_append, withId_readded h hnodup]
    by_cases hid : id ∈ touched
    · have hgone : withId (known.filter fun image => !touched.contains image.id) id = none := by
        rw [withId_eq_none]
        rintro image himage rfl
        simp [hid] at himage
      rw [hgone, if_pos hid, Option.none_or]
    · have hkept : withId (known.filter fun image => !touched.contains image.id) id = withId known id := by
        refine withId_filter ?_
        rintro image rfl
        simpa using hid
      rw [hkept, if_neg hid, Option.or_none, hright id hid]
  · rw [map_append, nodup_append]
    refine ⟨nodup_filter hknown _, hnodup.sublist (readded_ids images touched), ?_⟩
    rintro id hold id' hnew rfl
    obtain ⟨image, himage, rfl⟩ := mem_map.mp hold
    have hmem := (readded_ids images touched).subset hnew
    simp [hmem] at himage

theorem Synced.updated (h : Synced r client) {updated : Client} (hsequence : updated.sequence = r.screen.sequence)
    (hpositive : updated.sequence ≠ 0) (hunique : (updated.images.map PaneImage.id).Nodup)
    (hitems : withId updated.images = withId r.screen.images) : Synced r updated := by
  refine ⟨h.registry, hunique, fun hzero => absurd hzero hpositive, ?_⟩
  rw [hitems, hsequence]
  exact ChangeLog.follows_items h.follows.ordered

theorem withId_nil (h : withId images = fun _ => none) : images = [] := by
  cases images with
  | nil => rfl
  | cons image images =>
    have hnone := congrFun h image.id
    rw [withId_eq_none] at hnone
    exact absurd rfl (hnone image mem_cons_self)

/-- The first poll sends every image. -/
theorem Synced.poll_first (h : Synced r client) (hzero : client.sequence = 0) :
    Synced r (client.poll r) ∧ withId (client.poll r).images = withId r.screen.images := by
  have hempty := h.empty hzero
  by_cases himages : r.screen.images = []
  · have hsame : client.poll r = client := by
      simp [poll, deltaSince, receive, hzero, himages]
    rw [hsame]
    exact ⟨h, by rw [hempty, himages]⟩
  · have hpositive : r.screen.sequence ≠ 0 := by
      intro hseq
      -- nothing has happened yet, so the client is right that nothing is shown
      have hfollows := h.follows
      rw [hzero, ← hseq] at hfollows
      have hitems : withId client.images = withId r.screen.images :=
        Follows.current (s := r.screen.source) hfollows
      exact himages (withId_nil (by rw [← hitems, hempty]; rfl))
    have hpoll : client.poll r = { images := r.screen.images, sequence := r.screen.sequence } := by
      simp [poll, deltaSince, receive, hzero, himages, hempty]
    rw [hpoll]
    exact ⟨h.updated rfl hpositive h.registry.screen.unique rfl, rfl⟩

/-- A poll that the log still covers brings the client up to date. -/
theorem Synced.poll_logged (h : Synced r client) (hpositive : client.sequence ≠ 0)
    (hcovered : Covered r.screen client.sequence) :
    Synced r (client.poll r) ∧ withId (client.poll r).images = withId r.screen.images := by
  have hseen : client.sequence ≤ r.screen.sequence := h.follows.seen
  by_cases hcurrent : client.sequence ≥ r.screen.sequence
  · have hsame : client.poll r = client := by
      simp [poll, deltaSince, receive, hpositive, hcurrent]
    have hfollows := h.follows
    rw [le_antisymm hseen hcurrent] at hfollows
    rw [hsame]
    exact ⟨h, Follows.current (s := r.screen.source) hfollows⟩
  · let touched :=
      (((r.screen.changeLog.filter fun e => e.sequence > client.sequence).map ChangeLogEntry.imageId).dedup).mergeSort
    have hnodup : touched.Nodup := (mergeSort_perm _ _).nodup_iff.mpr (nodup_dedup _)
    have hoverlap : ¬client.sequence < (r.screen.changeLog.head?.map ChangeLogEntry.sequence).getD 0 := by
      cases hhead : r.screen.changeLog.head? with
      | none => simp
      | some e => simpa using hcovered e hhead
    let delta : ImageDelta :=
      { added := touched.filterMap fun id => withId r.screen.images id, removed := touched,
        sequence := r.screen.sequence }
    have hdelta : r.screen.deltaSince client.sequence = delta := by
      unfold deltaSince
      rw [if_neg hpositive, if_neg hcurrent]
      rw [if_neg hoverlap]
      rfl
    have hright : ∀ id, id ∉ touched → withId client.images id = withId r.screen.images id := by
      intro id hid
      refine h.follows.right ?_ id fun hmem => hid (mem_touched.mpr hmem)
      intro e he
      simp only [source, head?_map, Option.mem_map] at he
      obtain ⟨entry, hentry, rfl⟩ := he
      exact hcovered entry hentry
    unfold poll
    rw [hdelta]
    by_cases hnone : touched = []
    · -- nothing the client shows was touched, and it keeps its number
      have hsame : client.receive delta = client := by
        simp [receive, delta, hnone]
      rw [hsame]
      refine ⟨h, funext fun id => hright id ?_⟩
      simp [hnone]
    · obtain ⟨hitems, hunique⟩ := withId_receive h.registry.screen.unique h.unique hnodup hright
      have hreceive : client.receive delta =
          { images := (client.images.filter fun image => !touched.contains image.id) ++ delta.added
            sequence := r.screen.sequence } := by
        unfold receive
        rw [if_pos (by simp [delta, hnone])]
      rw [hreceive]
      exact ⟨h.updated rfl (by dsimp only; omega) hunique hitems, hitems⟩

end Polls

/-- What happens between a registry and one client. -/
inductive Input where
  | op (op : Op)
  | poll

def advance (codec : Codec) (p : ImageRegistry × Client) : Input → Option (ImageRegistry × Client)
  | .op op => some (p.1.apply codec op, p.2)
  | .poll => some (p.1, p.2.poll p.1)

/-- A poll is the client's first, or the log still reaches back to its number. -/
def Reachable (p : ImageRegistry × Client) : Input → Prop
  | .op _ => True
  | .poll => p.2.sequence = 0 ∨ Covered p.1.screen p.2.sequence

theorem Synced.poll {r : ImageRegistry} {client : Client} (h : Synced r client) (hok : Reachable (r, client) .poll) :
    Synced r (client.poll r) ∧ withId (client.poll r).images = withId r.screen.images := by
  by_cases hzero : client.sequence = 0
  · exact h.poll_first hzero
  · exact h.poll_logged hzero (hok.resolve_left hzero)

variable (maxImages maxBytes viewportHeight : Nat)

def start : ImageRegistry × Client :=
  (ImageRegistry.new maxImages maxBytes viewportHeight, { images := [], sequence := 0 })

theorem synced_start : Synced (start maxImages maxBytes viewportHeight).1
    (start maxImages maxBytes viewportHeight).2 := by
  refine ⟨ImageRegistry.sound_new _ _ _, nodup_nil, fun _ => rfl, ⟨?_, nofun⟩, le_rfl, fun _ _ _ => rfl⟩
  exact List.Pairwise.nil

theorem synced_run {codec : Codec} {p q : ImageRegistry × Client} (h : Run (advance codec) Reachable p q)
    (hp : Synced p.1 p.2) : Synced q.1 q.2 := by
  refine h.invariant (I := fun p => Synced p.1 p.2) ?_ hp
  rintro ⟨r, client⟩ i s' hsynced hok hstep
  cases i with
  | op op => cases hstep; exact hsynced.apply codec op
  | poll => cases hstep; exact (hsynced.poll hok).1

/-- After each poll the client holds the registry's images, each once. -/
theorem images_converge (codec : Codec) (maxImages maxBytes viewportHeight : Nat) {r : ImageRegistry} {client : Client}
    (h : Run (advance codec) Reachable (start maxImages maxBytes viewportHeight) (r, client))
    (hpoll : Reachable (r, client) .poll) :
    (client.poll r).images.Perm r.screen.images ∧ ((client.poll r).images.map PaneImage.id).Nodup := by
  have hsynced : Synced r client := synced_run h (synced_start _ _ _)
  obtain ⟨hafter, hitems⟩ := hsynced.poll hpoll
  exact ⟨perm_of_withId hafter.unique hsynced.registry.screen.unique hitems, hafter.unique⟩

namespace Sample

def codec : Codec :=
  { crop := fun _ _ _ => .error (), encodeProjectedPayload := fun _ => .error (), encodePng := fun _ => none
    parseBody := fun _ => none, estimatePixelSize := fun _ => none }

def draw (row : Nat) : Op := .handleEvent (.sixelImage [0x71] { row, col := 0 } { width := 8, height := 16 }) 8 16

def image (id row : Nat) : PaneImage :=
  { id, protocol := .sixel, payload := { raw := some [0x71], pixels := none }, position := { row, col := 0 }
    cellSize := { rows := 1, cols := 1 }, pixelSize := { width := 8, height := 16 } }

def drawn : ImageRegistry := (start 10 0 24).1.apply codec (draw 0)

def seen : Client := { images := [image 1 0], sequence := 1 }

theorem poll_drawn : (start 10 0 24).2.poll drawn = seen := by decide +kernel

theorem run_seen {ok : ImageRegistry × Client → Input → Prop} (hop : ∀ p op, ok p (.op op))
    (hpoll : ok (drawn, (start 10 0 24).2) .poll) : Run (advance codec) ok (start 10 0 24) (drawn, seen) := by
  have hdraw : Run (advance codec) ok (start 10 0 24) (drawn, (start 10 0 24).2) :=
    (Run.refl _).tail (i := .op (draw 0)) (hop _ _) rfl
  refine hdraw.tail hpoll ?_
  rfl

/-- A second image comes with the next poll, whose delta is read off the log. -/
theorem second_image :
    (seen.poll (drawn.apply codec (draw 2))).images.Perm (drawn.apply codec (draw 2)).screen.images ∧
      ((seen.poll (drawn.apply codec (draw 2))).images.map PaneImage.id).Nodup := by
  have hseen : Run (advance codec) Reachable (start 10 0 24) (drawn, seen) := run_seen (fun _ _ => trivial) (.inl rfl)
  refine images_converge codec 10 0 24 (hseen.tail (i := .op (draw 2)) trivial rfl) (.inr ?_)
  have hhead : (drawn.apply codec (draw 2)).screen.changeLog.head? = some (.added 1 (image 1 0)) := by decide +kernel
  intro e he
  rw [hhead] at he
  cases he
  exact le_rfl

def toggle (r : ImageRegistry) : ImageRegistry := (r.setAlternateScreen true).setAlternateScreen false

theorem toggle_eq {s : Screen} {shown : PaneImage} (himages : s.images = [shown])
    (hlength : s.changeLog.length < 1000) :
    toggle { screen := s, normalScreen := none } =
      { screen := compactChangeLog { s with
          sequence := s.sequence + 2
          changeLog := s.changeLog ++ [.removed (s.sequence + 1) shown.id, .added (s.sequence + 2) shown] }
        normalScreen := none } := by
  have hquiet : ¬s.changeLog.length + 1 > 1000 := by omega
  simp [toggle, ImageRegistry.setAlternateScreen, ImageRegistry.switchTo, compactChangeLog, new, himages, hquiet]

variable (sequence : Nat) (changeLog : List ChangeLogEntry) (n : Nat)

def changes : List ChangeLogEntry :=
  .added 1 (image 1 0) :: (List.range n).flatMap fun i => [.removed (2 * i + 2) 1, .added (2 * i + 3) (image 1 0)]

theorem changes_succ : changes (n + 1) = changes n ++ [.removed (2 * n + 2) 1, .added (2 * n + 3) (image 1 0)] := by
  simp [changes, range_succ, flatMap_append]

theorem length_changes : (changes n).length = 2 * n + 1 := by
  induction n with
  | zero => rfl
  | succ n ih =>
    rw [changes_succ, length_append, ih]
    rfl

def cycled : Nat → ImageRegistry
  | 0 => drawn
  | n + 1 => toggle (cycled n)

def logged : Screen := { drawn.screen with sequence, changeLog }

theorem drawn_eq : drawn = { screen := logged 1 (changes 0), normalScreen := none } := by
  have hsequence : drawn.screen.sequence = 1 := by decide +kernel
  have hlog : drawn.screen.changeLog = changes 0 := by decide +kernel
  rfl

theorem logged_images : (logged sequence changeLog).images = [image 1 0] := by
  rfl

theorem logged_limit : (logged sequence changeLog).maxChangeLog = 1000 := by
  rfl

theorem cycled_succ {n : Nat} (hn : n < 500) (h : cycled n =
    { screen := logged (2 * n + 1) (changes n), normalScreen := none }) :
    cycled (n + 1) =
      { screen := (logged (2 * n + 3) (changes (n + 1))).compactChangeLog, normalScreen := none } := by
  have hlength : (logged (2 * n + 1) (changes n)).changeLog.length < 1000 := by
    show (changes n).length < 1000
    rw [length_changes]
    omega
  rw [cycled, h, toggle_eq (logged_images _ _) hlength, changes_succ]
  rfl

/-- Up to the 500th program nothing is dropped from the log. -/
theorem cycled_eq {n : Nat} (hn : n < 500) : cycled n =
    { screen := logged (2 * n + 1) (changes n), normalScreen := none } := by
  induction n with
  | zero => exact drawn_eq
  | succ n ih =>
    have hkept : ¬(changes (n + 1)).length > 1000 := by rw [length_changes]; omega
    rw [cycled_succ (by omega) (ih (by omega))]
    exact congrArg (fun screen => ImageRegistry.mk screen none) (if_neg hkept)

variable {changeLog : List ChangeLogEntry}

theorem compact_logged (sequence : Nat) (h : changeLog.length = 1001) :
    (logged sequence changeLog).compactChangeLog = logged sequence (changeLog.drop 501) := by
  have hlength : (logged sequence changeLog).changeLog.length = 1001 := h
  unfold compactChangeLog
  rw [hlength, logged_limit]
  rfl

theorem cycled_full : (cycled 500).screen = logged 1001 ((changes 500).drop 501) := by
  rw [cycled_succ (by omega) (cycled_eq (by omega)), compact_logged _ (length_changes 500)]

/-- A log that starts after the client's number is not used. -/
theorem delta_dropped {sequence : Nat} (hsequence : 1 < sequence)
    (hdropped : 1 < ((changeLog.head?).map ChangeLogEntry.sequence).getD 0) :
    (logged sequence changeLog).deltaSince 1 = { added := [image 1 0], removed := [], sequence } := by
  unfold deltaSince
  rw [if_neg (show ¬1 ≥ (logged sequence changeLog).sequence from not_le.mpr hsequence)]
  exact if_pos hdropped

theorem run_cycled (n : Nat) : Run (advance codec) (fun _ _ => True) (drawn, seen) (cycled n, seen) := by
  induction n with
  | zero => exact .refl _
  | succ n ih =>
    refine (ih.tail (i := .op (.setAlternateScreen true)) trivial rfl).tail
      (i := .op (.setAlternateScreen false)) trivial ?_
    rfl

/-- After 500 full-screen programs the log no longer reaches back to the client: it is sent the image
again, and holds it twice. -/
theorem doubled : Run (advance codec) (fun _ _ => True) (start 10 0 24) (cycled 500, seen) ∧
      (cycled 500).screen.images = [image 1 0] ∧ (seen.poll (cycled 500)).images = [image 1 0, image 1 0] := by
  refine ⟨(run_seen (fun _ _ => trivial) trivial).trans (run_cycled 500), ?_, ?_⟩
  · rw [cycled_full, logged_images]
  · have hdropped : 1 < ((((changes 500).drop 501).head?).map ChangeLogEntry.sequence).getD 0 := by decide +kernel
    unfold poll
    rw [cycled_full, show seen.sequence = 1 from rfl, delta_dropped (by decide) hdropped]
    rfl

end Sample
end Bmux.Image
