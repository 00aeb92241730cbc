/-
Histories in machine words: nothing that is done to an image stops the program.

* `Image.performChecked`, `Image.runChecked`: operations one after the other, any of which may stop;
* `Image.performChecked_eq`: one operation on a reachable image goes through, if the file header can
  count the sections;
* `Image.pageCount_le_of_reachable`: a reachable image has no more pages than addresses reach;
* `Image.AnswersChecked`: every question about an image is answered, and
  `Image.answersChecked_of_reachable`: those about reachable images are;
* `Image.fitsCount_run`: without splits the file header can always count the sections;
* `Image.run_never_stops`: so every history goes through, from nothing loaded to an image with whole
  pages that answers every question.
-/
import PeImage.Proofs.Checked.Comparison
import PeImage.Proofs.Checked.Edit
import PeImage.Proofs.Checked.Load
import PeImage.Proofs.Checked.Relocation
import PeImage.Proofs.Rebase
import PeImage.Proofs.Updates

namespace PeImage

open Checked

/-- What a machine can hold of the operation: a buffer that is written has fewer than `2 ^ 63`
bytes. -/
def Operation.Fits : Operation → Prop
  | .write _ src => src.size < 2 ^ 63
  | _ => True

namespace Image

variable {image : Image}

/-! ### Operations -/

/-- The image after an operation. -/
def performChecked (image : Image) : Operation → Checked Image
  | .load extent file => do return (← image.loadToChecked extent file).1
  | .loadSource source => do return (← image.loadSourceChecked source).1
  | .loadEntry entry => do return (← image.loadEntryChecked entry).1
  | .loadStream stream off => do return (← image.loadStreamChecked stream off).1
  | .write a src => do return (← image.writeChecked a src).1
  | .relocate base => do return (← image.relocateChecked base).1
  | .setSymbolTable offset => return image.setSymbolTable offset
  | .setCharacteristics bits => return image.setCharacteristics bits
  | .setEntryPoint a => return image.setEntryPoint a
  | .setCode size base => return image.setCode size base
  | .setDirectory i rva size => do return image.orElse (← image.setDirectoryChecked i rva size)
  | .addSection name size => do return image.orElse (← image.addSectionChecked name size)
  | .setSectionName i name => return image.orElse (image.setSectionName i name)
  | .setSectionMemory i address size => return image.orElse (image.setSectionMemory i address size)
  | .setSectionData i pointer size => return image.orElse (image.setSectionData i pointer size)
  | .setSectionCharacteristics i bits =>
    return image.orElse (image.setSectionCharacteristics i bits)
  | .splitSection i front back off => do
    return image.orElse (← image.splitSectionChecked i front back off)
  | .enlargeLastSection increment => return image.enlargeLastSection increment
  | .removeSection i => do return image.orElse (← image.removeSectionChecked i)
  | .makeValid => image.makeValidChecked

/-- The image after a list of operations. -/
def runChecked (image : Image) (history : List Operation) : Checked Image :=
  history.foldlM performChecked image

/-- **One operation goes through.** -/
theorem performChecked_eq (h : Reachable image) (hcount : image.FitsCount) {op : Operation}
    (hop : op.Fits) : image.performChecked op = .ok (image.perform op) := by
  have hw := h.allWhole
  have hlength : image.sections.length < 2 ^ 63 :=
    lt_of_le_of_lt hcount (show maxSectionCount < 2 ^ 63 by decide)
  cases op with
  | load extent file =>
      rw [performChecked, loadToChecked_eq]
      rfl
  | loadSource source =>
      rw [performChecked, loadSourceChecked_eq]
      rfl
  | loadEntry entry =>
      rw [performChecked, loadEntryChecked_eq]
      rfl
  | loadStream stream off =>
      rw [performChecked, loadStreamChecked_eq]
      rfl
  | write a src =>
      rw [performChecked, writeChecked_eq hw a hop]
      rfl
  | relocate base =>
      rw [performChecked, relocateChecked_eq hw]
      rfl
  | setDirectory i rva size =>
      rw [performChecked, setDirectoryChecked_eq]
      rfl
  | addSection name size =>
      rw [performChecked, addSectionChecked_eq]
      rfl
  | splitSection i front back off =>
      rw [performChecked, splitSectionChecked_eq image hlength]
      rfl
  | removeSection i =>
      rw [performChecked, removeSectionChecked_eq image hlength]
      rfl
  | makeValid => exact makeValidChecked_eq image
  | setSymbolTable | setCharacteristics | setEntryPoint | setCode | setSectionName
  | setSectionMemory | setSectionData | setSectionCharacteristics | enlargeLastSection => rfl

/-! ### Questions -/

/-- A reachable image has no more pages than addresses reach. -/
lemma pageCount_le_of_reachable (h : Reachable image) : image.pageCount ≤ 2 ^ 20 := by
  suffices hinv : AllWhole image.pages ∧ image.pageCount ≤ 2 ^ 20 from hinv.2
  refine h.invariant (P := fun image => AllWhole image.pages ∧ image.pageCount ≤ 2 ^ 20) ?empty
    ?load ?write ?relocate ?edit
  case empty => exact fun _ _ => ⟨allWhole_empty, Nat.zero_le _⟩
  case load =>
    refine fun image extent file => ⟨allWhole_loadTo image extent file, ?_⟩
    rcases pages_loadTo image extent file with hnone | ⟨captured, F, built, hbuild⟩
    · rw [pageCount, hnone]
      exact Nat.zero_le _
    · exact size_of_buildPages hbuild
  case write =>
    exact fun image a src hi =>
      ⟨allWhole_write hi.1 a src, (updatedFrom_write hi.1 a src).pageCount.trans_le hi.2⟩
  case relocate =>
    exact fun image base hi =>
      ⟨allWhole_relocate hi.1 base, (updatedFrom_relocate hi.1 base).pageCount.trans_le hi.2⟩
  case edit =>
    intro image edited hedit hi
    have hpages : edited.pages = image.pages := by rw [pages, hedit.contents, pages]
    rw [pageCount, hpages]
    exact hi

/-- Every question about the image is answered: reads and strings, of which the lengths are words,
translations between addresses and offsets, pages, comparisons with a reference, and the dump. -/
structure AnswersChecked (image : Image) : Prop where
  read : ∀ a n, n < 2 ^ 63 → image.readChecked a n = .ok (image.read a n)
  readRaw : ∀ a n, n < 2 ^ 63 → image.readRawChecked a n = .ok (image.readRaw a n)
  stringLength : ∀ a (n : UInt32),
    image.stringLengthChecked a n.toNat = .ok (image.stringLength a n.toNat)
  readString : ∀ a (n : UInt32),
    image.readStringChecked a n.toNat = .ok (image.readString a n.toNat)
  readPointer : ∀ a, image.readPointerChecked a = .ok (image.readPointer a)
  readCountedString : ∀ a, image.readCountedStringChecked a = .ok (image.readCountedString a)
  fileOffset : ∀ a, image.fileOffsetChecked? a = .ok (image.fileOffset? a)
  address : ∀ off, image.addressChecked? off = .ok (image.address? off)
  pageAt : ∀ a, image.pageAtChecked? a = .ok (image.pageAt? a)
  fieldOffset : ∀ field, image.fieldOffsetChecked field = .ok (image.fieldOffset field)
  addressSize : div image.bits 8 = .ok image.layout.addressSize
  protection : ∀ bits,
    PageProtection.ofCharacteristicsChecked bits = .ok (PageProtection.ofCharacteristics bits)
  terminated : ∀ rules file off,
    readTerminatedChecked rules file off = .ok (readTerminated rules file off)
  compare : ∀ reference accessible,
    image.compareChecked reference accessible = .ok (image.compare reference accessible)
  dump : image.dumpChecked = .ok image.dump

theorem answersChecked_of_reachable (h : Reachable image) (hcount : image.FitsCount) :
    image.AnswersChecked where
  read a _ hn := readChecked_eq h.allWhole a hn
  readRaw a _ hn := readRawChecked_eq image a hn
  stringLength a n := stringLengthChecked_eq h.allWhole a (n.toNat_lt.trans (by decide))
  readString a n := readStringChecked_eq h.allWhole a (n.toNat_lt.trans (by decide))
  readPointer a := readPointerChecked_eq h.allWhole a
  readCountedString a := readCountedStringChecked_eq h.allWhole a
  fileOffset a := fileOffsetChecked?_eq image a
  address off := addressChecked?_eq image off
  pageAt a := pageAtChecked?_eq image a
  fieldOffset field := fieldOffsetChecked_eq image field
  addressSize := by
    rw [div_eq (by decide), bits, Nat.mul_div_cancel_left _ (by decide)]
  protection bits := PageProtection.ofCharacteristicsChecked_eq bits
  terminated rules file off := readTerminatedChecked_eq rules file off
  compare reference accessible := compareChecked_eq h.allWhole hcount reference accessible
  dump := dumpChecked_eq h.allWhole (pageCount_le_of_reachable h)

/-! ### Histories -/

/-- Without splits the sections never become too many. -/
lemma fitsCount_run (h : image.FitsCount) {history : List Operation}
    (hno : ∀ op ∈ history, ∀ image : Image, ¬ image.SplitsFull op) :
    (image.run history).FitsCount := by
  induction history generalizing image with
  | nil => exact h
  | cons op rest ih =>
      rw [List.forall_mem_cons] at hno
      exact ih ((fitsCount_perform_iff h op).mpr (hno.1 image)) hno.2

/-- **Nothing that is done to an image stops the program**: every history of loads of any bytes,
writes, moves and edits goes through, as long as the file header can count the sections of each
image along it, and ends in an image with whole pages that answers every question. -/
theorem run_never_stops (config : Config) (history : List Operation)
    (hops : ∀ op ∈ history, op.Fits)
    (hcount : ∀ before, before <+: history → ((empty config).run before).FitsCount) :
    (empty config).runChecked history = .ok ((empty config).run history) ∧
      AllWhole ((empty config).run history).pages ∧
      ((empty config).run history).AnswersChecked := by
  have hreach (history : List Operation) : Reachable ((empty config).run history) :=
    ⟨config, history, rfl⟩
  refine ⟨?_, (hreach history).allWhole, answersChecked_of_reachable (hreach history)
    (hcount history (List.prefix_refl history))⟩
  refine foldlM_eq (fun image rest => Reachable image ∧ (∀ op ∈ rest, op.Fits) ∧
    ∀ before, before <+: rest → (image.run before).FitsCount) ?_ ⟨hreach [], hops, hcount⟩
  rintro image op rest ⟨hr, hops, hcount⟩
  rw [List.forall_mem_cons] at hops
  refine ⟨performChecked_eq hr (hcount [] List.nil_prefix) hops.1, hr.perform op, hops.2, ?_⟩
  intro before hbefore
  exact hcount (op :: before) (List.cons_prefix_cons.mpr ⟨rfl, hbefore⟩)

/-- A load, a move, a write, and edits of the sections. -/
def mixedHistory : List Operation :=
  [.load .contents kindsFile, .relocate 0x10000000, .write 0x138 (zeros 4), .makeValid,
   .addSection "last" 0x1800, .removeSection 0]

theorem run_never_stops_mixedHistory :
    (empty (.ofVersion .generic)).runChecked mixedHistory =
        .ok ((empty (.ofVersion .generic)).run mixedHistory) ∧
      ((empty (.ofVersion .generic)).run mixedHistory).AnswersChecked := by
  have hops : ∀ op ∈ mixedHistory, op.Fits := by
    simp [mixedHistory, Operation.Fits, size_zeros]
  have hno : ∀ op ∈ mixedHistory, ∀ image : Image, ¬ image.SplitsFull op := by
    simp [mixedHistory, SplitsFull]
  have hrun := run_never_stops (.ofVersion .generic) mixedHistory hops fun before hbefore =>
    fitsCount_run (Nat.zero_le _) fun op hop => hno op (hbefore.subset hop)
  exact ⟨hrun.1, hrun.2.2⟩

end Image

end PeImage
