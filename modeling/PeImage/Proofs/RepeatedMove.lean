/-
Moving an image again after a move has failed.

A move that the image does not allow changes nothing, and stays forbidden whatever is written and
wherever else the image is moved. A move that fails later has stored the base already, so that a
second one finds the image at that base and does nothing, with success.

* `Image.isRelocatable_of_updatedFrom`, `Image.imageBase_run`: writes and moves do not change where
  an image may be moved, and leave it only at bases where it may;
* `Image.relocate_run_of_not_isRelocatable`, `Image.relocate_stored`: what becomes of the two ways
  in which a move fails;
* `Image.relocate_again`: what a failed move means for the next ones, and what it takes to succeed;
* `Image.relocate_twice_unknownImage`: a move that fails, and succeeds when it is tried again.
-/
import PeImage.Proofs.Updates

namespace PeImage

namespace Image

open Memory

variable {image updated : Image} {base : UInt64} {updates : List Operation}

/-! ### Where an image may be moved -/

/-- Writes and moves do not change where an image may be moved. -/
lemma isRelocatable_of_updatedFrom (h : UpdatedFrom updated image) (base : UInt64) :
    updated.isRelocatable base = image.isRelocatable base := by
  rw [h.frame]
  rfl

/-- They leave the image at its base, or at one where it may be moved. -/
lemma imageBase_run (h : Reachable image) (hu : ∀ op ∈ updates, op.isUpdate = true) :
    (image.run updates).optional.imageBase = image.optional.imageBase ∨
      image.isRelocatable (image.run updates).optional.imageBase = true := by
  induction updates generalizing image with
  | nil => exact .inl rfl
  | cons op rest ih =>
      rw [List.forall_mem_cons] at hu
      have hstep : UpdatedFrom (image.perform op) image :=
        updatedFrom_run h (List.forall_mem_singleton.mpr hu.1)
      have hbase : (image.perform op).optional.imageBase = image.optional.imageBase ∨
          image.isRelocatable (image.perform op).optional.imageBase = true := by
        cases op with
        | write a src =>
            left
            show (image.write a src).1.optional.imageBase = _
            rw [write_frame]
        | relocate base =>
            show (image.relocate base).1.optional.imageBase = _ ∨
              image.isRelocatable (image.relocate base).1.optional.imageBase = true
            rcases image.relocate_frame base with hmove | ⟨hr, pages, hmove⟩
            · exact .inl (by rw [hmove])
            · exact .inr (by rw [hmove]; exact hr)
        | _ => cases hu.1
      have hrun : image.run (op :: rest) = (image.perform op).run rest := rfl
      rw [hrun]
      rcases ih (h.perform op) hu.2 with hsame | hr
      · rwa [hsame]
      · rw [isRelocatable_of_updatedFrom hstep] at hr
        exact .inr hr

/-! ### Failing -/

/-- A move that the image does not allow does nothing. -/
lemma relocate_of_not_isRelocatable (hne : base ≠ image.optional.imageBase)
    (hr : image.isRelocatable base = false) : image.relocate base = (image, false) := by
  rw [relocate_eq, if_neg hne, if_pos (.inr hr)]

/-- Writes and moves do not make an image allow it. -/
lemma relocate_run_of_not_isRelocatable (h : Reachable image)
    (hne : base ≠ image.optional.imageBase) (hr : image.isRelocatable base = false)
    (hu : ∀ op ∈ updates, op.isUpdate = true) :
    (image.run updates).relocate base = (image.run updates, false) := by
  refine relocate_of_not_isRelocatable ?_ ?_
  · -- the image never gets to a base that it does not allow
    rintro rfl
    rcases imageBase_run h hu with hsame | hyes
    · exact hne hsame
    · rw [hr] at hyes
      cases hyes
  · rw [isRelocatable_of_updatedFrom (updatedFrom_run h hu), hr]

/-- A move that a mapped image allows stores the base, whether it succeeds or not, and trying it
again does nothing. -/
lemma relocate_stored (hne : base ≠ image.optional.imageBase) (hp : image.pageCount ≠ 0)
    (hr : image.isRelocatable base = true) :
    (image.relocate base).1.optional.imageBase = base ∧
      ((image.relocate base).1.relocate base).1 = (image.relocate base).1 ∧
      ((image.relocate base).1.relocate base).2 = true := by
  have hbase : (image.relocate base).1.optional.imageBase = base := by
    have hyes : ¬ (image.pageCount = 0 ∨ image.isRelocatable base = false) := by
      simp [hp, hr]
    rw [relocate_eq, if_neg hne, if_neg hyes]
    cases image.relocationDirectory? <;> rfl
  have hself := (image.relocate base).1.relocate_self
  rw [hbase] at hself
  exact ⟨hbase, by rw [hself], by rw [hself]⟩

/-- **Moving again.** Let a move of a mapped image to some base fail. If the image does not allow
it, nothing was changed, and it fails again after any writes and moves. If the image allows it, the
base was stored, and trying it again does nothing, with success. A move to another base succeeds
only if the directory is accepted, and then all of its fixups are carried out. -/
theorem relocate_again (h : Reachable image) (hp : image.pageCount ≠ 0) (base : UInt64) :
    ((image.relocate base).2 = false → image.isRelocatable base = false →
      (image.relocate base).1 = image ∧
        ∀ updates : List Operation, (∀ op ∈ updates, op.isUpdate = true) →
          (image.run updates).relocate base = (image.run updates, false)) ∧
    ((image.relocate base).2 = false → image.isRelocatable base = true →
      (image.relocate base).1.optional.imageBase = base ∧
        ((image.relocate base).1.relocate base).1 = (image.relocate base).1 ∧
        ((image.relocate base).1.relocate base).2 = true) ∧
    ((image.relocate base).2 = true → base ≠ image.optional.imageBase →
      image.isRelocatable base = true ∧ ∃ d, image.Accepts (image.storeBase base) d ∧
        image.relocate base = (image.rebased base
          ((image.storeBase base).move (base - image.optional.imageBase)
            (image.directoryFixups (image.storeBase base) d).1).pages, true)) := by
  have hne (hfail : (image.relocate base).2 = false) : base ≠ image.optional.imageBase := by
    rintro rfl
    rw [relocate_self] at hfail
    cases hfail
  refine ⟨fun hfail hr => ?refused, fun hfail hr => ?stored, fun hdone hother => ?accepted⟩
  case refused =>
    refine ⟨?_, fun updates hu => relocate_run_of_not_isRelocatable h (hne hfail) hr hu⟩
    rw [relocate_of_not_isRelocatable (hne hfail) hr]
  case stored => exact relocate_stored (hne hfail) hp hr
  case accepted =>
    obtain ⟨d, ha⟩ := accepts_of_relocate hother hdone
    have hr : image.isRelocatable base = true := by
      by_contra hno
      rw [relocate_of_not_isRelocatable hother (Bool.eq_false_iff.mpr hno)] at hdone
      cases hdone
    exact ⟨hr, d, ha, ha.relocate_eq hother ((isRelocatable_iff base).mp hr).2⟩

/-- A block with an entry of an unknown kind in front of a fixup. -/
def unknownFile : ByteArray :=
  movableFile 0 ⟨312, 12⟩ [0, 0x10, 0, 0, 12, 0, 0, 0, 0x10, 0x70, 0x20, 0x30]

def unknownImage : Image := (loadFile unknownFile).1

/-- What the file spells. -/
lemma spelled_unknownFile :
    Movable unknownFile ⟨312, 12⟩ ∧
      (unknownImage.optional.imageBase = 0x400000 ∧ unknownImage.baseAddress = 116 ∧
        unknownImage.layout = .narrow ∧ unknownImage.isRelocatable 0x410000 = true ∧
          unknownImage.isRelocatable 0x100000000 = false) ∧
      unknownImage.frontFixups ⟨312, 12⟩ unknownFile = ([], false) := by
  decide +kernel

lemma front_unknownImage : unknownImage.Front ⟨312, 12⟩ unknownFile :=
  spelled_unknownFile.1.front

lemma headers_unknownImage : unknownImage.optional.imageBase = 0x400000 ∧
    unknownImage.baseAddress = 116 ∧ unknownImage.layout = .narrow ∧
      unknownImage.isRelocatable 0x410000 = true ∧
      unknownImage.isRelocatable 0x100000000 = false :=
  spelled_unknownFile.2.1

/-- The unknown entry stands in front of the fixup, whatever base is stored. -/
lemma directoryFixups_unknownImage (base : UInt64) :
    unknownImage.directoryFixups (unknownImage.storeBase base) ⟨312, 12⟩ = ([], false) := by
  obtain ⟨-, haddress, hlayout, -⟩ := headers_unknownImage
  have hfront := front_unknownImage
  have hs := disjoint_directoryStretch hfront.directory (by rw [haddress, hlayout]; decide)
  rw [directoryFixups_storeBase hfront.wellFormed hs hfront.directory, hfront.directoryFixups_eq]
  exact spelled_unknownFile.2.2

lemma relocate_unknownImage : unknownImage.relocate 0x410000 =
    (unknownImage.rebased 0x410000 (unknownImage.storeBase 0x410000).pages, false) := by
  obtain ⟨hbase, -, -, hr, -⟩ := headers_unknownImage
  have hfront := front_unknownImage
  have hyes : ¬ (unknownImage.pageCount = 0 ∨ unknownImage.isRelocatable 0x410000 = false) := by
    simp [hfront.pageCount, hr]
  rw [relocate_eq, hbase, if_neg (by decide), if_neg hyes, hfront.directory]
  dsimp only
  rw [applyDirectory_eq, if_neg hfront.size, directoryFixups_unknownImage]
  rfl

/-- No writes and moves allow a base of more than 32 bits, and the move that fails at the unknown
entry counts as done when it is tried again. -/
theorem relocate_again_unknownImage :
    (∀ updates : List Operation, (∀ op ∈ updates, op.isUpdate = true) →
      (unknownImage.run updates).relocate 0x100000000 = (unknownImage.run updates, false)) ∧
    (unknownImage.relocate 0x410000).1.optional.imageBase = 0x410000 ∧
      ((unknownImage.relocate 0x410000).1.relocate 0x410000).2 = true := by
  obtain ⟨hbase, -, -, hr, hno⟩ := headers_unknownImage
  have hreachable : Reachable unknownImage := reachable_loadFile unknownFile
  have hp := front_unknownImage.pageCount
  have hrefused : (unknownImage.relocate 0x100000000).2 = false := by
    rw [relocate_of_not_isRelocatable _ hno]
    rw [hbase]
    decide
  have hfailed : (unknownImage.relocate 0x410000).2 = false := by
    rw [relocate_unknownImage]
  obtain ⟨hbase', -, hdone⟩ := (relocate_again hreachable hp 0x410000).2.1 hfailed hr
  exact ⟨((relocate_again hreachable hp 0x100000000).1 hrefused hno).2, hbase', hdone⟩

/-- Two moves to a base at which neither of them puts the image. -/
theorem relocate_twice_unknownImage :
    Reachable unknownImage ∧ unknownImage.pageCount ≠ 0 ∧
      (unknownImage.relocate 0x410000).2 = false ∧
      ((unknownImage.relocate 0x410000).1.relocate 0x410000).2 = true ∧
      ∀ r ∉ unknownImage.baseStretch,
        ((unknownImage.relocate 0x410000).1.relocate 0x410000).1.memory.flat r =
          unknownImage.memory.flat r := by
  obtain ⟨hbase, -, -, hr, -⟩ := headers_unknownImage
  have hfront := front_unknownImage
  have hne : (0x410000 : UInt64) ≠ unknownImage.optional.imageBase := by
    rw [hbase]
    decide
  obtain ⟨-, hsame, hdone⟩ := relocate_stored hne hfront.pageCount hr
  have hreachable : Reachable unknownImage := reachable_loadFile unknownFile
  have hleft : Agree unknownImage.baseStretchᶜ (unknownImage.relocate 0x410000).1.memory
      unknownImage.memory := by
    refine agree_relocate hfront.wellFormed disjoint_compl_left fun d hd f hf => ?_
    obtain rfl : d = ⟨312, 12⟩ := Option.some.inj (hd.symm.trans hfront.directory)
    rw [directoryFixups_unknownImage] at hf
    cases hf
  refine ⟨hreachable, hfront.pageCount, ?_, hdone, ?_⟩
  · rw [relocate_unknownImage]
  · rw [hsame]
    exact hleft.flat

end Image

end PeImage
