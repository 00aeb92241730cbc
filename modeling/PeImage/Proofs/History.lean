/-
What an operation leaves of an image.

* `Image.Reachable.induct`: what holds of nothing loaded, and is kept by every operation, holds of
  every reachable image;
* `Image.write_frame`, `Image.relocate_frame`: a write changes the contents, a move also the base,
  and `Image.relocate_eq`: what a move does;
* `Image.splitSection_eq_ok_iff`: when a split succeeds, and with what;
* `Image.EditedFrom`: an edit keeps the contents, the register, the rules, and of the optional
  header the layout and the base, and `Image.editedFrom_perform`, `Image.editedFrom_run`: every edit
  does, and so do many;
* `Image.capture_frame`: a capture reads headers and sections, and leaves no contents;
* `Image.loadTo_frame`: a load leaves of these what was captured;
* `Image.perform_load`: a load of any kind ends where a load from nothing ends, or it is refused
  before one begins, or it leaves everything as it is;
* `Image.Reachable.invariant`: so an invariant has to hold of what a load from nothing leaves, and
  to be kept by writes, moves and edits.
-/
import PeImage.Image.History
import Mathlib

namespace PeImage

namespace Image

variable {image : Image}

/-- **Induction over histories**: what holds of nothing loaded, and is kept by every operation,
holds of every reachable image. -/
theorem Reachable.induct {P : Image → Prop} (hempty : ∀ config, P (empty config))
    (hstep : ∀ image op, P image → P (image.perform op)) (h : Reachable image) : P image := by
  obtain ⟨config, history, rfl⟩ := h
  have hrun : ∀ image, P image → P (image.run history) := by
    induction history with
    | nil => exact fun _ h => h
    | cons op rest ih => exact fun image h => ih _ (hstep image op h)
  exact hrun _ (hempty config)

/-! ### Writes and moves -/

/-- A write changes the contents only. -/
lemma write_frame (image : Image) (a : UInt32) (src : ByteArray) :
    (image.write a src).1 =
      { image with contents := (image.write a src).1.contents } := by
  unfold write
  split
  · rfl
  · split <;> rfl
  · rfl

lemma contents_of_pageCount (hp : image.pageCount ≠ 0) : image.contents = .mapped image.pages := by
  unfold pageCount pages at hp
  unfold pages
  split at hp
  · next pages hc =>
    rw [hc]
  · exact absurd rfl hp
  · exact absurd rfl hp

/-- The memory with another base stored in the headers. -/
def storeBase (image : Image) (base : UInt64) : Memory :=
  (image.memory.write image.baseAddress.toNat (encode image.layout.addressSize base.toNat)).1

/-- The image with another base and other pages. -/
def rebased (image : Image) (base : UInt64) (pages : Array Page) : Image :=
  { image with
    optional := { image.optional with imageBase := base }
    contents := .mapped pages }

/-- **What a move does**: nothing where there are no pages, or the image may not be moved; else it
stores the base, and then applies the directory if there is one. -/
theorem relocate_eq (image : Image) (base : UInt64) :
    image.relocate base =
      if base = image.optional.imageBase then (image, true)
      else if image.pageCount = 0 ∨ image.isRelocatable base = false then (image, false)
      else match image.relocationDirectory? with
        | none => (image.rebased base (image.storeBase base).pages, false)
        | some d =>
          (image.applyDirectory (image.storeBase base) (base - image.optional.imageBase) d).map
            (fun m => image.rebased base m.pages) id := by
  have hempty : image.pages.isEmpty = true ↔ image.pageCount = 0 := by
    simp only [Array.isEmpty, decide_eq_true_iff, pageCount]
  unfold relocate
  dsimp only
  refine if_congr Iff.rfl rfl ?_
  by_cases hp : image.pageCount = 0
  · rw [if_pos (.inl hp)]
    rw [← hempty] at hp
    split
    · next hc =>
      rw [pages, hc] at hp
      rw [hp, Bool.true_or, if_pos rfl]
    · rfl
    · rfl
  · have hc := contents_of_pageCount hp
    rw [← hempty, Bool.not_eq_true] at hp
    simp only [hc, hp, Bool.false_or, Bool.not_eq_true', ← hempty, Bool.false_eq_true, false_or]
    refine if_congr Iff.rfl rfl ?_
    cases image.relocationDirectory? with
    | none => rfl
    | some d => rfl

/-- A move to the base that the image has leaves everything as it is. -/
lemma relocate_self (image : Image) : image.relocate image.optional.imageBase = (image, true) := by
  rw [relocate_eq, if_pos rfl]

/-- A move leaves the image as it is, or changes its base and its pages. -/
lemma relocate_frame (image : Image) (base : UInt64) :
    (image.relocate base).1 = image ∨
      image.isRelocatable base = true ∧
        ∃ pages, (image.relocate base).1 = image.rebased base pages := by
  rw [relocate_eq]
  split_ifs with _ hno
  · exact .inl rfl
  · exact .inl rfl
  · rw [not_or, Bool.not_eq_false] at hno
    refine .inr ⟨hno.2, ?_⟩
    split <;> exact ⟨_, rfl⟩

/-! ### Edits -/

/-- A split succeeds exactly if the image has alignments and the offset is a multiple of the
section alignment within the virtual size of a section. -/
lemma splitSection_eq_ok_iff {split : Image} {i : ℕ} {front back : String} {off : UInt32} :
    image.splitSection i front back off = .ok split ↔
      image.optional.fileAlignment ≠ 0 ∧ image.optional.sectionAlignment ≠ 0 ∧
        ∃ s, image.section? i = some s ∧ off &&& (image.optional.sectionAlignment - 1) = 0 ∧
          off < s.virtualSize ∧
          { image with sections := image.sections.take i ++
              frontPart s front off :: backPart s back off :: image.sections.drop (i + 1) } =
            split := by
  unfold splitSection requireAlignments
  split_ifs with hfa hsa
  · simp [hfa]
  · simp [hsa]
  · cases hs : image.section? i with
    | none => simp
    | some s =>
        by_cases hin : off &&& (image.optional.sectionAlignment - 1) = 0 ∧ off < s.virtualSize
        · simp [hfa, hsa, hin, UInt32.not_le.mpr hin.2]
        · have hguard :
              off &&& (image.optional.sectionAlignment - 1) ≠ 0 ∨ off ≥ s.virtualSize := by
            rwa [Classical.not_and_iff_not_or_not, UInt32.not_lt] at hin
          simp only [if_pos hguard]
          simp [← and_assoc, hin]

/-- What an edit keeps: everything but the headers, and of these the layout and the base. -/
structure EditedFrom (edited image : Image) : Prop where
  config : edited.config = image.config
  latch : edited.latch = image.latch
  dos : edited.dos = image.dos
  contents : edited.contents = image.contents
  layout : edited.layout = image.layout
  imageBase : edited.optional.imageBase = image.optional.imageBase

namespace EditedFrom

lemma refl (image : Image) : EditedFrom image image := ⟨rfl, rfl, rfl, rfl, rfl, rfl⟩

lemma trans {image₁ image₂ image₃ : Image} (h : EditedFrom image₃ image₂)
    (h' : EditedFrom image₂ image₁) : EditedFrom image₃ image₁ :=
  ⟨h.config.trans h'.config, h.latch.trans h'.latch, h.dos.trans h'.dos,
    h.contents.trans h'.contents, h.layout.trans h'.layout, h.imageBase.trans h'.imageBase⟩

/-- An edit that may fail leaves the image as it was, or edited. -/
lemma orElse {result : Except Fault Image}
    (h : ∀ edited, result = .ok edited → EditedFrom edited image) :
    EditedFrom (image.orElse result) image := by
  cases result with
  | ok edited => exact h edited rfl
  | error fault => exact refl image

/-- Changing one section is an edit. -/
lemma modifySection {edited : Image} {i : ℕ} {f : SectionHeader → SectionHeader}
    (h : image.modifySection i f = .ok edited) : EditedFrom edited image := by
  unfold Image.modifySection at h
  split_ifs at h
  cases h
  exact ⟨rfl, rfl, rfl, rfl, rfl, rfl⟩

lemma setDirectory {edited : Image} {i : ℕ} {rva size : Option UInt32}
    (h : image.setDirectory i rva size = .ok edited) : EditedFrom edited image := by
  unfold Image.setDirectory at h
  split_ifs at h
  cases h
  exact ⟨rfl, rfl, rfl, rfl, rfl, rfl⟩

lemma addSection {edited : Image} {name : String} {size : UInt32}
    (h : image.addSection name size = .ok edited) : EditedFrom edited image := by
  unfold Image.addSection at h
  split at h
  · cases h
  · split_ifs at h
    cases h
    exact ⟨rfl, rfl, rfl, rfl, rfl, rfl⟩

lemma splitSection {edited : Image} {i : ℕ} {front back : String} {off : UInt32}
    (h : image.splitSection i front back off = .ok edited) : EditedFrom edited image := by
  obtain ⟨-, -, s, -, -, -, rfl⟩ := splitSection_eq_ok_iff.mp h
  exact ⟨rfl, rfl, rfl, rfl, rfl, rfl⟩

lemma removeSection {edited : Image} {i : ℕ} (h : image.removeSection i = .ok edited) :
    EditedFrom edited image := by
  unfold Image.removeSection at h
  split at h
  · cases h
  · cases h
    exact ⟨rfl, rfl, rfl, rfl, rfl, rfl⟩

lemma enlargeLastSection (image : Image) (increment : UInt32) :
    EditedFrom (image.enlargeLastSection increment) image := by
  unfold Image.enlargeLastSection
  split
  · exact refl image
  · exact ⟨rfl, rfl, rfl, rfl, rfl, rfl⟩

/-- The magic number that is written back names the layout that it had. -/
lemma makeValid (image : Image) : EditedFrom image.makeValid image := by
  refine ⟨rfl, rfl, rfl, rfl, ?_, rfl⟩
  have hmagic : image.makeValid.optional.magic = image.layout.magic := rfl
  show image.makeValid.optional.layout = image.layout
  unfold OptionalHeader.layout
  rw [hmagic]
  cases image.layout <;> rfl

end EditedFrom

/-- **Every edit** keeps contents, register, rules, layout and base. -/
theorem editedFrom_perform (image : Image) {op : Operation} (h : op.isEdit = true) :
    EditedFrom (image.perform op) image := by
  cases op with
  | load | loadSource | loadEntry | loadStream | write | relocate => cases h
  | setSymbolTable | setCharacteristics | setEntryPoint | setCode =>
      exact ⟨rfl, rfl, rfl, rfl, rfl, rfl⟩
  | setDirectory i rva size => exact .orElse fun _ => .setDirectory
  | addSection name size => exact .orElse fun _ => .addSection
  | setSectionName | setSectionMemory | setSectionData | setSectionCharacteristics =>
      exact .orElse fun _ => .modifySection
  | splitSection i front back off => exact .orElse fun _ => .splitSection
  | enlargeLastSection increment => exact .enlargeLastSection image increment
  | removeSection i => exact .orElse fun _ => .removeSection
  | makeValid => exact .makeValid image

/-- So does a list of edits. -/
lemma editedFrom_run (image : Image) {edits : List Operation}
    (h : ∀ op ∈ edits, op.isEdit = true) : EditedFrom (image.run edits) image := by
  induction edits generalizing image with
  | nil => exact .refl image
  | cons op rest ih =>
      rw [List.forall_mem_cons] at h
      exact (ih (image.perform op) h.2).trans (editedFrom_perform image h.1)

/-! ### Loads -/

/-- A capture of the NT headers leaves rules, DOS header, sections and contents as they are. -/
lemma captureNtHeaders_frame (image : Image) (file : ByteArray) :
    (image.captureNtHeaders file).1.config = image.config ∧
      (image.captureNtHeaders file).1.dos = image.dos ∧
      (image.captureNtHeaders file).1.sections = image.sections ∧
      (image.captureNtHeaders file).1.contents = image.contents := by
  dsimp only [captureNtHeaders]
  split_ifs <;> exact ⟨rfl, rfl, rfl, rfl⟩

/-- A capture of the section table changes the register and the sections only. -/
lemma captureSectionTable_frame (image : Image) (file : ByteArray) :
    (image.captureSectionTable file).1 = { image with
      latch := (image.captureSectionTable file).1.latch
      sections := (image.captureSectionTable file).1.sections } := by
  unfold captureSectionTable
  split_ifs <;> rfl

/-- A capture keeps the rules and leaves no contents, whether it fails or not. -/
lemma capture_frame (config : Config) (file : ByteArray) :
    (capture config file).1.config = config ∧
      (capture config file).1.contents = .unmapped := by
  dsimp only [capture]
  split_ifs
  · exact ⟨rfl, rfl⟩
  · exact ⟨rfl, rfl⟩
  · split
    · exact ⟨rfl, rfl⟩
    · have hnt := captureNtHeaders_frame { empty config with dos := DosHeader.ofBytes file } file
      split
      · next nt fault hcapture =>
        rw [hcapture] at hnt
        exact ⟨hnt.1, hnt.2.2.2⟩
      · next nt hcapture =>
        rw [hcapture] at hnt
        have ht := captureSectionTable_frame nt file
        dsimp only at hnt ⊢
        rw [ht]
        exact ⟨hnt.1, hnt.2.2.2⟩

/-- What is captured goes by the given rules. -/
lemma config_of_capture {config : Config} {file : ByteArray} {captured : Image}
    {result : Except Fault ByteArray} (h : capture config file = (captured, result)) :
    captured.config = config := by
  have hframe := (capture_frame config file).1
  rwa [h] at hframe

/-- Building pages changes the register only. -/
lemma buildPages_frame (image : Image) (file : ByteArray) :
    (image.buildPages file).1 = { image with latch := (image.buildPages file).1.latch } := by
  unfold buildPages
  split_ifs
  · split <;> rfl
  · dsimp only [granularPages]
    split
    · rfl
    · split_ifs
      · rfl
      · rfl
      · split <;> rfl

/-- A load changes nothing of what is captured but the register and the contents. -/
lemma loadTo_frame (image : Image) (extent : Extent) (file : ByteArray) :
    (image.loadTo extent file).1 = { (capture image.config file).1 with
      latch := (image.loadTo extent file).1.latch
      contents := (image.loadTo extent file).1.contents } := by
  unfold loadTo
  split
  · next hc => rw [hc]
  · next captured F hc =>
    rw [hc]
    cases extent with
    | headers => rfl
    | contents =>
        have hframe := buildPages_frame captured F
        dsimp only [mapContents]
        split_ifs
        · split
          · next built pages hb =>
            rw [hb] at hframe
            dsimp only at hframe
            rw [hframe]
            rfl
          · next built fault hb =>
            rw [hb] at hframe
            dsimp only at hframe
            rw [hframe]
        · rfl

/-- A load of the headers that does not fail is a capture. -/
lemma capture_of_loadHeaders {loaded : Image} {file : ByteArray}
    (h : image.loadHeaders file = (loaded, .ok ())) :
    ∃ F, capture image.config file = (loaded, .ok F) := by
  rw [loadHeaders, loadTo] at h
  split at h
  · cases h
  · next captured F hc =>
    cases h
    exact ⟨F, hc⟩

/-- A load of a source is one of its bytes, or leaves nothing loaded. -/
lemma loadSource_cases (image : Image) (source : Source) :
    (∃ extent file, (image.loadSource source).1 = (image.loadTo extent file).1) ∨
      ∃ latch, (image.loadSource source).1 = { empty image.config with latch := latch } := by
  unfold loadSource
  dsimp only
  split_ifs
  · exact .inr ⟨{}, rfl⟩
  · cases (DosHeader.ofBytes source.bytes).verify source.size with
    | error cause => exact .inr ⟨_, rfl⟩
    | ok => exact .inl ⟨.contents, source.bytes, rfl⟩

/-- So does a load of a stream, of which all but the last way out are failures. -/
lemma loadStream_cases (image : Image) (stream : Stream) (off : ℕ) :
    (∃ extent file, (image.loadStream stream off).1 = (image.loadTo extent file).1) ∨
      ∃ latch, (image.loadStream stream off).1 = { empty image.config with latch := latch } := by
  unfold loadStream
  dsimp only
  split
  · exact .inr ⟨_, rfl⟩
  · split_ifs
    · exact .inr ⟨_, rfl⟩
    · exact .inr ⟨_, rfl⟩
    · exact .inr ⟨_, rfl⟩
    · split
      · exact .inr ⟨_, rfl⟩
      · split
        · exact .inr ⟨_, rfl⟩
        · split
          · exact .inr ⟨_, rfl⟩
          · exact .inl ⟨.contents, _, rfl⟩

/-- The ways in which a load of any kind can go. -/
lemma perform_load (image : Image) {op : Operation} (he : op.isEdit = false)
    (hu : op.isUpdate = false) :
    (∃ extent file, image.perform op = (image.loadTo extent file).1) ∨
      (∃ latch, image.perform op = { empty image.config with latch := latch }) ∨
        image.perform op = image := by
  cases op with
  | load extent file => exact .inl ⟨extent, file, rfl⟩
  | loadSource source => exact (image.loadSource_cases source).imp_right .inl
  | loadEntry entry =>
      cases entry with
      | file bytes => exact (image.loadSource_cases ⟨bytes⟩).imp_right .inl
      | directory | missing => exact .inr (.inr rfl)
  | loadStream stream off => exact (image.loadStream_cases stream off).imp_right .inl
  | write | relocate => cases hu
  | _ => cases he

/-! ### Invariants -/

/-- **Invariants**: what holds of nothing loaded and of whatever a load from nothing leaves, and is
kept by writes, moves and edits, holds of every reachable image. -/
theorem Reachable.invariant {P : Image → Prop}
    (hempty : ∀ config latch, P { empty config with latch := latch })
    (hload : ∀ (image : Image) extent file, P (image.loadTo extent file).1)
    (hwrite : ∀ (image : Image) a src, P image → P (image.write a src).1)
    (hrelocate : ∀ (image : Image) base, P image → P (image.relocate base).1)
    (hedit : ∀ image edited, EditedFrom edited image → P image → P edited)
    (h : Reachable image) : P image := by
  refine h.induct (fun config => hempty config _) fun image op ih => ?_
  by_cases he : op.isEdit = true
  · exact hedit image _ (editedFrom_perform image he) ih
  rw [Bool.not_eq_true] at he
  by_cases hu : op.isUpdate = true
  · cases op with
    | write a src => exact hwrite image a src ih
    | relocate base => exact hrelocate image base ih
    | _ => cases hu
  · rw [Bool.not_eq_true] at hu
    rcases perform_load image he hu with ⟨extent, file, hop⟩ | ⟨latch, hop⟩ | hop
    · rw [hop]
      exact hload image extent file
    · rw [hop]
      exact hempty image.config latch
    · rwa [hop]

end Image

end PeImage
