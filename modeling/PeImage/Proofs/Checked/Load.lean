/-
Loading in machine words.

* `loadToChecked_eq`: a load goes through, of whatever bytes, since captures do and so does mapping;
* `loadSourceChecked_eq`, `loadEntryChecked_eq`: so do loads of bytes in memory and of files, of
  which the first 64 bytes are cut out and looked at first;
* `loadStreamChecked_eq`: and loads from streams, whatever length the stream claims.
-/
import PeImage.Proofs.Checked.Mapping
import PeImage.Proofs.Checked.SectionTable
import PeImage.Proofs.EntryPoints

namespace PeImage

open Checked

namespace Image

/-! ### Bytes -/

/-- Maps a captured image. -/
def mapContentsChecked (image : Image) (file : ByteArray) :
    Checked (Image × Except Fault Unit) := do
  if image.isMappable then
    match ← image.buildPagesChecked file with
    | (image, .ok pages) => return (image.takeContents file pages, .ok ())
    | (image, .error fault) => return (image, .error fault)
  else return (image.takeContents file #[], .ok ())

/-- Loads a file to the given extent. -/
def loadToChecked (image : Image) (extent : Extent) (file : ByteArray) :
    Checked (Image × Except Fault Unit) := do
  match ← captureChecked image.config file with
  | (image, .error fault) => return (image, .error fault)
  | (image, .ok file) =>
    match extent with
    | .headers => return (image, .ok ())
    | .contents => image.mapContentsChecked file

lemma mapContentsChecked_eq (image : Image) (file : ByteArray) :
    image.mapContentsChecked file = .ok (image.mapContents file) := by
  rw [mapContentsChecked, mapContents]
  split_ifs
  · rw [buildPagesChecked_eq, ok_bind]
    generalize image.buildPages file = built
    obtain ⟨built, fault | pages⟩ := built <;> rfl
  · rfl

/-- **Every load goes through**, of whatever bytes. -/
theorem loadToChecked_eq (image : Image) (extent : Extent) (file : ByteArray) :
    image.loadToChecked extent file = .ok (image.loadTo extent file) := by
  rw [loadToChecked, captureChecked_eq, ok_bind, loadTo]
  generalize capture image.config file = captured
  obtain ⟨captured, fault | file⟩ := captured
  · rfl
  · cases extent with
    | headers => rfl
    | contents => exact mapContentsChecked_eq captured file

/-! ### Sources and files -/

/-- Loads an image from a source. -/
def loadSourceChecked (image : Image) (source : Source) : Checked (Image × Except Fault Unit) := do
  let blank := empty image.config
  if source.size ≤ DosHeader.size then return (blank, .error .invalidFile)
  else
    let header ← slice source.bytes 0 (← add 64 0 DosHeader.size)
    match (DosHeader.ofBytes header).verify source.size with
    | .error cause => return (blank.refuse cause, .error .invalidFile)
    | .ok () => blank.loadToChecked .contents source.bytes

/-- Loads an image from what a path leads to. -/
def loadEntryChecked (image : Image) (entry : DiskEntry) : Checked (Image × Except Fault Unit) :=
  match entry.toSource with
  | .ok source => image.loadSourceChecked source
  | .error fault => return (image, .error fault)

lemma loadSourceChecked_eq (image : Image) (source : Source) :
    image.loadSourceChecked source = .ok (image.loadSource source) := by
  have hheader : DosHeader.size = 64 := rfl
  rw [loadSourceChecked, loadSource]
  split_ifs with hsmall
  · rfl
  · have hin : DosHeader.size ≤ source.bytes.size := (Nat.lt_of_not_le hsmall).le
    have hdos : DosHeader.ofBytes (source.bytes.extract 0 DosHeader.size) =
        DosHeader.ofBytes source.bytes :=
      DosHeader.ofBytes_congr fun i hi => by
        rw [byteAt_extract, if_pos (by omega), Nat.zero_add]
    rw [add_eq (by omega), ok_bind, Nat.zero_add, slice_eq (Nat.zero_le _) hin, ok_bind, hdos]
    cases (DosHeader.ofBytes source.bytes).verify source.size with
    | error cause => rfl
    | ok => exact loadToChecked_eq _ _ _

lemma loadEntryChecked_eq (image : Image) (entry : DiskEntry) :
    image.loadEntryChecked entry = .ok (image.loadEntry entry) := by
  rw [loadEntryChecked, loadEntry]
  cases entry.toSource with
  | ok source => exact loadSourceChecked_eq image source
  | error fault => rfl

/-! ### Streams -/

/-- Loads an image from a stream, in which it begins at `off`. -/
def loadStreamChecked (image : Image) (stream : Stream) (off : ℕ) :
    Checked (Image × Except Fault Unit) := do
  let blank := empty image.config
  match stream.seek 0 with
  | .error fault => return (blank, .error fault)
  | .ok () =>
    if off > stream.claimedSize then return (blank, .error .invalidFile)
    else
      let size ← sub stream.claimedSize off
      if size > maxFileSize then return (blank.record .fileTooBig, .error .fileTooBig)
      else if size ≤ DosHeader.size then return (blank, .error .invalidFile)
      else
        match readDosHeader stream off with
        | .error fault => return (blank, .error fault)
        | .ok dos =>
          match dos.verify size with
          | .error cause => return (blank.refuse cause, .error .invalidFile)
          | .ok () =>
            match readFileBytes stream off size with
            | .error fault => return (blank, .error fault)
            | .ok file => blank.loadToChecked .contents file

lemma loadStreamChecked_eq (image : Image) (stream : Stream) (off : ℕ) :
    image.loadStreamChecked stream off = .ok (image.loadStream stream off) := by
  rw [loadStreamChecked, loadStream]
  dsimp only
  cases stream.seek 0 with
  | error fault => rfl
  | ok =>
      dsimp only
      by_cases hout : off > stream.claimedSize
      · rw [if_pos hout, if_pos hout]
        rfl
      rw [if_neg hout, if_neg hout, sub_eq (Nat.le_of_not_lt hout), ok_bind]
      split_ifs
      · rfl
      · rfl
      · cases readDosHeader stream off with
        | error fault => rfl
        | ok dos =>
            dsimp only
            cases dos.verify (stream.claimedSize - off) with
            | error cause => rfl
            | ok =>
                dsimp only
                cases readFileBytes stream off (stream.claimedSize - off) with
                | error fault => rfl
                | ok file => exact loadToChecked_eq _ _ _

end Image

end PeImage
