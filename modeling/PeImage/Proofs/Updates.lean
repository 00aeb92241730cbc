/-
What writes and moves keep of an image.

Once an image is loaded, writes and moves change its contents and its base. The pages stay as many
as they were, and those without access stay without.

* `Image.UpdatedFrom`: what they keep;
* `Image.agree_write_memory`, `Image.agree_relocate`: where one write and one move leave the bytes
  as they are;
* `Image.updatedFrom_run`: any number of them, one after the other;
* `Image.Reachable.run`: what they lead to is reachable where its beginning is.
-/
import PeImage.Proofs.Rebase

namespace PeImage

/-- A page has access if its first address does. -/
lemma Memory.isAccessibleAt_page (m : Memory) (p : ℕ) :
    m.isAccessibleAt (p * pageSize) = ((m.pages[p]?).map Page.isAccessible).getD false := by
  rw [isAccessibleAt, Nat.mul_div_cancel p pageSize_pos]
  cases m.pages[p]? <;> rfl

namespace Image

open Memory

variable {image updated : Image} {base : UInt64} {s : Set ℕ}

/-- Nothing was changed but the base and the bytes in the pages, of which there are as many as
before, and the same ones have access. -/
structure UpdatedFrom (updated image : Image) : Prop where
  frame : updated = { image with
    optional := { image.optional with imageBase := updated.optional.imageBase }
    contents := updated.contents }
  pageCount : updated.pageCount = image.pageCount
  isAccessible : ∀ p,
    (updated.page? p).map Page.isAccessible = (image.page? p).map Page.isAccessible

namespace UpdatedFrom

lemma refl (image : Image) : UpdatedFrom image image := ⟨rfl, rfl, fun _ => rfl⟩

lemma trans {image' : Image} (h : UpdatedFrom updated image') (h' : UpdatedFrom image' image) :
    UpdatedFrom updated image := by
  refine ⟨?_, h.pageCount.trans h'.pageCount, fun p => (h.isAccessible p).trans (h'.isAccessible p)⟩
  have hframe := h.frame
  rw [h'.frame] at hframe
  exact hframe

/-- Memories that agree, if only on no byte at all, have the same pages with access. -/
lemma of_agree (hframe : updated = { image with
      optional := { image.optional with imageBase := updated.optional.imageBase }
      contents := updated.contents })
    (h : Agree s updated.memory image.memory) : UpdatedFrom updated image := by
  have hsize : updated.pages.size = image.pages.size :=
    Nat.eq_of_mul_eq_mul_left pageSize_pos h.tableEnd
  refine ⟨hframe, hsize, fun p => ?_⟩
  have hacc : ((updated.pages[p]?).map Page.isAccessible).getD false =
      ((image.pages[p]?).map Page.isAccessible).getD false := by
    have hpage := h.accessible (p * pageSize)
    rwa [isAccessibleAt_page, isAccessibleAt_page] at hpage
  rw [page?, page?]
  by_cases hp : p < image.pages.size
  · have hp' : p < updated.pages.size := hsize ▸ hp
    rw [Array.getElem?_eq_getElem hp, Array.getElem?_eq_getElem hp'] at hacc ⊢
    exact congrArg some hacc
  · rw [Array.getElem?_eq_none (by omega), Array.getElem?_eq_none (by omega)]

end UpdatedFrom

/-! ### One step -/

lemma agree_write_memory (hm : image.memory.WellFormed) {a : UInt32} {src : ByteArray}
    (hs : Disjoint s (Set.Ico a.toNat (a.toNat + src.size))) :
    Agree s (image.write a src).1.memory image.memory := by
  cases hc : image.contents with
  | mapped pages =>
      have hpages : image.pages = pages := by rw [Image.pages, hc]
      have hmemory : image.memoryOf pages = image.memory := by rw [memory, hpages]
      simp only [write, hc, hmemory]
      exact agree_write hm hs
  | raw file =>
      have hpages : image.pages = #[] := by rw [Image.pages, hc]
      have hmemory : image.memory = image.memoryOf #[] := by rw [memory, hpages]
      simp only [write, hc]
      cases image.rawOffset? file a with
      | none => exact .refl s _
      | some off =>
          rw [hmemory]
          exact .refl s _
  | unmapped =>
      simp only [write, hc]
      exact .refl s _

/-- A directory leaves what its fixups leave. -/
lemma agree_applyDirectory {m : Memory} {d : Directory} (hm : m.WellFormed)
    (hs : ∀ f ∈ (image.directoryFixups m d).1, Disjoint s f.stretch) (difference : UInt64) :
    Agree s (image.applyDirectory m difference d).1 m := by
  rw [applyDirectory_eq]
  split_ifs
  · exact .refl s m
  · exact agree_move hm hs

/-- **What a move leaves**, whether it succeeds or not: whatever is neither in the stored base nor
in a fixup that the directory spells after the base is stored. -/
theorem agree_relocate (hm : image.memory.WellFormed) (hbase : Disjoint s image.baseStretch)
    (hs : ∀ d, image.relocationDirectory? = some d →
      ∀ f ∈ (image.directoryFixups (image.storeBase base) d).1, Disjoint s f.stretch) :
    Agree s (image.relocate base).1.memory image.memory := by
  have hstored : Agree s (image.storeBase base) image.memory :=
    (agree_storeBase hm base).mono hbase.subset_compl_right
  rw [relocate_eq]
  split_ifs
  · exact .refl s _
  · exact .refl s _
  · cases hd : image.relocationDirectory? with
    | none => exact hstored
    | some d =>
        have happlied := agree_applyDirectory (wellFormed_storeBase hm base) (hs d hd)
          (base - image.optional.imageBase)
        have hlimit : (image.applyDirectory (image.storeBase base)
            (base - image.optional.imageBase) d).1.limit = image.memory.limit :=
          happlied.limit
        dsimp only [Prod.map]
        rw [memory_rebased image base hlimit]
        exact happlied.trans hstored

lemma updatedFrom_write (hm : image.memory.WellFormed) (a : UInt32) (src : ByteArray) :
    UpdatedFrom (image.write a src).1 image := by
  refine .of_agree ?_ (agree_write_memory hm (Set.empty_disjoint _))
  rw [write_frame]

lemma updatedFrom_relocate (hm : image.memory.WellFormed) (base : UInt64) :
    UpdatedFrom (image.relocate base).1 image := by
  refine .of_agree ?_ (agree_relocate hm (Set.empty_disjoint _) fun _ _ f _ => Set.empty_disjoint _)
  rcases image.relocate_frame base with hmove | ⟨-, pages, hmove⟩
  · rw [hmove]
  · rw [hmove]
    rfl

/-! ### Many steps -/

lemma Reachable.perform (h : Reachable image) (op : Operation) : Reachable (image.perform op) := by
  obtain ⟨config, history, rfl⟩ := h
  exact ⟨config, history ++ [op], List.foldl_append⟩

lemma Reachable.run (h : Reachable image) (updates : List Operation) :
    Reachable (image.run updates) := by
  obtain ⟨config, history, rfl⟩ := h
  exact ⟨config, history ++ updates, List.foldl_append⟩

lemma Reachable.of_load {file : ByteArray} (h : image.load file = (updated, .ok ())) :
    Reachable updated := ⟨image.config, [.load .contents file], congrArg Prod.fst h⟩

/-- **Any number of writes and moves** keep what one of them keeps. -/
theorem updatedFrom_run (h : Reachable image) {updates : List Operation}
    (hu : ∀ op ∈ updates, op.isUpdate = true) : UpdatedFrom (image.run updates) image := by
  induction updates generalizing image with
  | nil => exact .refl image
  | cons op rest ih =>
      rw [List.forall_mem_cons] at hu
      have hm : image.memory.WellFormed := h.allWhole
      have hstep : UpdatedFrom (image.perform op) image := by
        cases op with
        | write a src => exact updatedFrom_write hm a src
        | relocate base => exact updatedFrom_relocate hm base
        | _ => cases hu.1
      exact (ih (h.perform op) hu.2).trans hstep

end Image

end PeImage
