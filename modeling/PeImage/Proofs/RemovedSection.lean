/-
What is left of a tiling when a section is removed from it.

The sections behind a removed one move down by its virtual size. The memory that it took is that
size rounded up, or the size of its raw data, so that the others close up only where nothing was
rounded and no raw data stood in.

* `Image.TilesWithin`: the sections tile a part of the memory in whole units of alignment;
* `Tiles.map_moveDown`: the part of a tiling behind the section moves down;
* `SectionHeader.IsExact`: the virtual size of a section is the memory that it takes;
* `Image.closes_removeSection_iff`: all but the positions of the sections survives, and they close
  up exactly behind an exact section, or at the end of the table;
* `Image.gap_twoSectionsImage`: an image from which a section of less than a unit is removed.
-/
import PeImage.Image.Edit
import PeImage.Proofs.PageTable
import PeImage.Proofs.Tiling

namespace PeImage

namespace SectionHeader

/-- A section moved down by the sizes of another one. -/
def moveDown (removed s : SectionHeader) : SectionHeader :=
  { s with
    virtualAddress := s.virtualAddress - removed.virtualSize
    rawPointer := s.rawPointer - removed.rawSize }

/-- A section without its position in memory and in the file. -/
def unplaced (s : SectionHeader) : SectionHeader := { s with virtualAddress := 0, rawPointer := 0 }

/-- The virtual size of a section is the memory that it takes. -/
def IsExact (alignment : UInt32) (s : SectionHeader) : Prop :=
  alignment.toNat ∣ s.virtualSize.toNat ∧ (s.virtualSize = 0 → s.rawSize = 0)

variable {alignment : UInt32} {removed s : SectionHeader}

@[simp] lemma extent_moveDown : (removed.moveDown s).extent alignment = s.extent alignment := rfl

lemma virtualSize_le_extent (ha : 0 < alignment.toNat) (s : SectionHeader) :
    s.virtualSize.toNat ≤ s.extent alignment := by
  refine le_trans ?_ (le_roundUp ha _)
  rw [effectiveSize]
  split_ifs with hv
  · exact le_rfl
  · rw [not_not.mp hv]
    exact Nat.zero_le _

/-- A section is exact if its extent is its virtual size. -/
lemma isExact_iff (ha : 0 < alignment.toNat) :
    s.IsExact alignment ↔ s.extent alignment = s.virtualSize.toNat := by
  rw [IsExact, extent, effectiveSize]
  split_ifs with hv
  · constructor
    · rintro ⟨hd, -⟩
      exact roundUp_of_dvd ha hd
    · intro he
      exact ⟨he ▸ dvd_roundUp _ _, fun hz => absurd hz hv⟩
  · rw [not_not.mp hv]
    constructor
    · rintro ⟨-, hz⟩
      rw [hz rfl]
      exact roundUp_of_dvd ha (dvd_zero _)
    · intro he
      refine ⟨dvd_zero _, fun _ => UInt32.toNat_inj.mp ?_⟩
      exact Nat.eq_zero_of_le_zero ((le_roundUp ha _).trans he.le)

end SectionHeader

/-! ### The part that moves down -/

namespace Tiles

variable {size : SectionHeader → ℕ} {next : ℕ} {sections : List SectionHeader}

/-- A tiling that begins high enough moves down as a whole. -/
lemma map_moveDown {removed : SectionHeader} (hsize : ∀ s, size (removed.moveDown s) = size s)
    (h : Tiles size (next + removed.virtualSize.toNat) sections) :
    Tiles size next (sections.map removed.moveDown) := by
  induction sections generalizing next with
  | nil => trivial
  | cons s rest ih =>
      obtain ⟨ha, hr⟩ := h
      refine ⟨?_, ih ?_⟩
      · have hle : removed.virtualSize ≤ s.virtualAddress := by
          rw [UInt32.le_iff_toNat_le]
          omega
        show (s.virtualAddress - removed.virtualSize).toNat = next
        rw [UInt32.toNat_sub_of_le _ _ hle]
        omega
      · rw [hsize, Nat.add_right_comm]
        exact hr

end Tiles

namespace Image

open SectionHeader

variable {image : Image}

/-- The sections tile the memory from `start` on and end in front of `stop`, in units of an
alignment of whole pages. -/
@[mk_iff]
structure TilesWithin (image : Image) (start stop : ℕ) : Prop where
  isPowerOfTwo : image.optional.sectionAlignment.toNat.isPowerOfTwo
  pageSize_le : pageSize ≤ image.optional.sectionAlignment.toNat
  dvd_start : image.optional.sectionAlignment.toNat ∣ start
  tiles : Tiles (·.extent image.optional.sectionAlignment) start image.sections
  total_le : start + Tiles.total (·.extent image.optional.sectionAlignment) image.sections ≤ stop

instance (start stop : ℕ) : Decidable (image.TilesWithin start stop) :=
  decidable_of_iff _ (tilesWithin_iff image start stop).symm

lemma TilesWithin.dvd_virtualAddress {start stop : ℕ} (h : image.TilesWithin start stop) :
    ∀ s ∈ image.sections,
      image.optional.sectionAlignment.toNat ∣ s.virtualAddress.toNat :=
  h.tiles.dvd (fun _ _ => dvd_roundUp _ _) h.dvd_start

/-! ### Removing -/

/-- The sections that remain. -/
def remaining (image : Image) (i : ℕ) (removed : SectionHeader) : List SectionHeader :=
  image.sections.take i ++ (image.sections.drop (i + 1)).map removed.moveDown

variable {i start stop : ℕ} {s : SectionHeader}

lemma removeSection_eq (hs : image.section? i = some s) :
    image.removeSection i = .ok { image with sections := image.remaining i s } := by
  rw [removeSection, hs]
  rfl

/-- A table around one of its sections. -/
lemma sections_eq (hs : image.section? i = some s) :
    image.sections = image.sections.take i ++ s :: image.sections.drop (i + 1) := by
  obtain ⟨hi, rfl⟩ := List.getElem?_eq_some_iff.mp hs
  rw [← List.drop_eq_getElem_cons hi, List.take_append_drop]

/-- Sections in front of the removed one stay where they are. -/
lemma getElem?_remaining_of_lt (hs : image.section? i = some s) {j : ℕ} (hj : j < i) :
    (image.remaining i s)[j]? = image.sections[j]? := by
  obtain ⟨hi, -⟩ := List.getElem?_eq_some_iff.mp hs
  rw [remaining, List.getElem?_append_left (by rw [List.length_take]; omega),
    List.getElem?_take_of_lt hj]

/-- The section behind the removed one takes its place in the table. -/
lemma getElem?_remaining_self (hs : image.section? i = some s) :
    (image.remaining i s)[i]? = image.sections[i + 1]?.map s.moveDown := by
  obtain ⟨hi, -⟩ := List.getElem?_eq_some_iff.mp hs
  rw [remaining, List.getElem?_append_right (List.length_take_le ..), List.length_take,
    min_eq_left hi.le, Nat.sub_self, List.getElem?_map, List.getElem?_drop, Nat.add_zero]

/-- Nothing is lost of the remaining sections but their positions. -/
lemma map_unplaced_remaining (image : Image) (i : ℕ) (s : SectionHeader) :
    (image.remaining i s).map unplaced = (image.sections.eraseIdx i).map unplaced := by
  rw [remaining, List.eraseIdx_eq_take_drop_succ, List.map_append, List.map_append, List.map_map]
  rfl

/-- What the tiling says around the removed section. -/
lemma TilesWithin.split (h : image.TilesWithin start stop) (hs : image.section? i = some s) :
    let size := SectionHeader.extent image.optional.sectionAlignment
    let front := image.sections.take i
    Tiles size start front ∧ s.virtualAddress.toNat = start + Tiles.total size front ∧
      Tiles size (s.virtualAddress.toNat + size s) (image.sections.drop (i + 1)) := by
  have htiles := h.tiles
  rw [sections_eq hs, Tiles.append_iff] at htiles
  obtain ⟨hfront, haddress, hback⟩ := htiles
  refine ⟨hfront, haddress, ?_⟩
  rwa [haddress]

/-- The section behind the removed one begins where that one did exactly if that one is exact. -/
lemma TilesWithin.follower_iff (h : image.TilesWithin start stop) (hs : image.section? i = some s)
    {t : SectionHeader} (ht : image.section? (i + 1) = some t) :
    (s.moveDown t).virtualAddress = s.virtualAddress ↔
      s.IsExact image.optional.sectionAlignment := by
  have hpos := Nat.pos_of_isPowerOfTwo h.isPowerOfTwo
  obtain ⟨-, -, hback⟩ := h.split hs
  obtain ⟨hi, rfl⟩ := List.getElem?_eq_some_iff.mp ht
  rw [List.drop_eq_getElem_cons hi] at hback
  have hle := virtualSize_le_extent hpos s
  have hsub : s.virtualSize ≤ (image.sections[i + 1]).virtualAddress := by
    rw [UInt32.le_iff_toNat_le, hback.1]
    omega
  rw [isExact_iff hpos, ← UInt32.toNat_inj]
  show (image.sections[i + 1].virtualAddress - s.virtualSize).toNat = _ ↔ _
  rw [UInt32.toNat_sub_of_le _ _ hsub, hback.1]
  omega

/-- Behind an exact section the others close up. -/
lemma TilesWithin.remaining_of_isExact (h : image.TilesWithin start stop)
    (hs : image.section? i = some s) (he : s.IsExact image.optional.sectionAlignment) :
    Tiles (·.extent image.optional.sectionAlignment) start (image.remaining i s) := by
  obtain ⟨hfront, haddress, hback⟩ := h.split hs
  rw [isExact_iff (Nat.pos_of_isPowerOfTwo h.isPowerOfTwo)] at he
  rw [remaining, Tiles.append_iff, ← haddress]
  refine ⟨hfront, Tiles.map_moveDown (fun _ => rfl) ?_⟩
  rwa [← he]

/-- Nothing closes up behind the last section. -/
lemma TilesWithin.remaining_of_last (h : image.TilesWithin start stop)
    (hs : image.section? i = some s) (hlast : i + 1 = image.sections.length) :
    Tiles (·.extent image.optional.sectionAlignment) start (image.remaining i s) := by
  rw [remaining, hlast, List.drop_length, List.map_nil, List.append_nil]
  exact (h.split hs).1

/-- The remaining sections take no more memory. -/
lemma TilesWithin.total_remaining_le (h : image.TilesWithin start stop)
    (hs : image.section? i = some s) :
    start + Tiles.total (·.extent image.optional.sectionAlignment) (image.remaining i s) ≤
      stop := by
  have hle := h.total_le
  have hmap : Tiles.total (·.extent image.optional.sectionAlignment)
      ((image.sections.drop (i + 1)).map s.moveDown) =
        Tiles.total (·.extent image.optional.sectionAlignment) (image.sections.drop (i + 1)) := by
    simp [Tiles.total, Function.comp_def]
  rw [sections_eq hs, Tiles.total_append, Tiles.total_cons] at hle
  rw [remaining, Tiles.total_append, hmap]
  omega

/-- **What removing a section does to a tiling.** The remaining sections keep their order and all
but their positions, and those in front of the removed one keep these as well. The next section
takes the place of the removed one, and the remaining ones tile the memory in whole units, exactly
if there is no next section or the removed one was exact. -/
theorem closes_removeSection_iff (h : image.TilesWithin start stop)
    (hs : image.section? i = some s) :
    ∃ removed, image.removeSection i = .ok removed ∧
      removed = { image with sections := removed.sections } ∧
      removed.sections.map unplaced = (image.sections.eraseIdx i).map unplaced ∧
      (∀ j < i, removed.section? j = image.section? j) ∧
      (((∀ t, removed.section? i = some t → t.virtualAddress = s.virtualAddress) ∧
          removed.TilesWithin start stop ∧
          ∀ t ∈ removed.sections,
            removed.optional.sectionAlignment.toNat ∣ t.virtualAddress.toNat) ↔
        i + 1 = image.sections.length ∨ s.IsExact image.optional.sectionAlignment) := by
  have hnext := getElem?_remaining_self hs
  refine ⟨_, removeSection_eq hs, rfl, map_unplaced_remaining image i s,
    fun j hj => getElem?_remaining_of_lt hs hj, ?_, ?_⟩
  · rintro ⟨hfollower, -⟩
    cases ht : image.section? (i + 1) with
    | none =>
        have hi := (List.getElem?_eq_some_iff.mp hs).1
        have hlength := List.getElem?_eq_none_iff.mp ht
        exact .inl (by omega)
    | some t =>
        rw [show image.sections[i + 1]? = some t from ht] at hnext
        exact .inr ((h.follower_iff hs ht).mp (hfollower _ hnext))
  · intro hcase
    have htiles : Tiles (·.extent image.optional.sectionAlignment) start
        (image.remaining i s) :=
      hcase.elim (h.remaining_of_last hs) (h.remaining_of_isExact hs)
    have hwithin : TilesWithin { image with sections := image.remaining i s } start stop :=
      ⟨h.isPowerOfTwo, h.pageSize_le, h.dvd_start, htiles, h.total_remaining_le hs⟩
    refine ⟨?_, hwithin, hwithin.dvd_virtualAddress⟩
    intro t ht
    rw [show (image.remaining i s)[i]? = some t from ht] at hnext
    obtain ⟨t', ht', rfl⟩ := Option.map_eq_some_iff.mp hnext.symm
    have hi := (List.getElem?_eq_some_iff.mp ht').1
    exact (h.follower_iff hs ht').mpr (hcase.resolve_left (by omega))

/-- A file with two sections, of which the first one has the given size. -/
def twoSectionsFile (size : UInt32) : ByteArray :=
  smallFile 0x1000 0x3000
    [{ virtualSize := size, virtualAddress := 0x1000, rawSize := 8, rawPointer := 264,
       characteristics := 0x40000000 },
     { virtualSize := 0x1000, virtualAddress := 0x2000, rawSize := 4, rawPointer := 272,
       characteristics := 0x40000000 }]
    [1, 2, 3, 4, 5, 6, 7, 8, 9, 10, 11, 12]

/-- The image of that file. -/
def twoSectionsImage (size : UInt32) : Image := (loadFile (twoSectionsFile size)).1

/-- A section of one page leaves room for the next one. -/
theorem closes_twoSectionsImage :
    (twoSectionsImage 0x1000).isMapped = true ∧
      (twoSectionsImage 0x1000).TilesWithin 0x1000 0x3000 ∧
      ∃ removed, (twoSectionsImage 0x1000).removeSection 0 = .ok removed ∧
        removed.TilesWithin 0x1000 0x3000 ∧
        ∀ t, removed.section? 0 = some t → t.virtualAddress = 0x1000 := by
  have hload : (twoSectionsImage 0x1000).isMapped = true ∧
      (twoSectionsImage 0x1000).TilesWithin 0x1000 0x3000 ∧
      (twoSectionsImage 0x1000).optional.sectionAlignment = 0x1000 ∧
      ((twoSectionsImage 0x1000).section? 0).map (fun s => (s.virtualAddress, s.virtualSize)) =
        some (0x1000, 0x1000) := by
    decide +kernel
  generalize twoSectionsImage 0x1000 = image at hload ⊢
  obtain ⟨hmapped, hwithin, hsa, hfirst⟩ := hload
  obtain ⟨s, hs, hfields⟩ := Option.map_eq_some_iff.mp hfirst
  obtain ⟨haddress, hsize⟩ := Prod.mk.inj hfields
  have hexact : s.IsExact 0x1000 := by
    rw [IsExact, hsize]
    exact ⟨dvd_rfl, fun hz => absurd hz (by decide)⟩
  obtain ⟨removed, hremoved, -, -, -, hcloses⟩ := closes_removeSection_iff hwithin hs
  obtain ⟨hfollower, hrest, -⟩ := hcloses.mpr (.inr (hsa ▸ hexact))
  exact ⟨hmapped, hwithin, removed, hremoved, hrest, haddress ▸ hfollower⟩

/-- Behind a section of less than a page the next one moves down by less than a page. -/
theorem gap_twoSectionsImage :
    (twoSectionsImage 0x100).isMapped = true ∧
      (twoSectionsImage 0x100).TilesWithin 0x1000 0x3000 ∧
      ((twoSectionsImage 0x100).removeSection 0).map (·.sections.map (·.virtualAddress)) =
        .ok [0x1F00] := by
  decide +kernel

end Image

end PeImage
