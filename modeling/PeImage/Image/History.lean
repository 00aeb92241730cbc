/-
Histories: what a user of an image can do to it, one thing after another.

* `Operation`: a load, a write, a move or an edit.
* `Image.perform`, `Image.run`: the image after one operation, and after a list of them. What an
  operation answers is left out; an operation that fails still leaves an image behind.
* `Reachable`: the images that some history leads to.
-/
import PeImage.Image.Comparison
import PeImage.Image.Edit
import PeImage.Image.Relocation
import PeImage.Image.Source

namespace PeImage

/-- Something that can change an image. -/
inductive Operation where
  /-- Loading a file to an extent. -/
  | load (extent : Extent) (file : ByteArray)
  /-- Loading from bytes in memory. -/
  | loadSource (source : Source)
  /-- Loading what a path leads to. -/
  | loadEntry (entry : DiskEntry)
  /-- Loading from a position of a stream. -/
  | loadStream (stream : Stream) (off : Nat)
  /-- Writing bytes at an address. -/
  | write (a : UInt32) (src : ByteArray)
  /-- Moving the image to a base. -/
  | relocate (base : UInt64)
  /-- Setting the offset of the symbol table. -/
  | setSymbolTable (offset : UInt32)
  /-- Setting the characteristics of the file. -/
  | setCharacteristics (bits : UInt16)
  /-- Setting the address of the entry point. -/
  | setEntryPoint (a : UInt32)
  /-- Setting size and address of the code. -/
  | setCode (size base : Option UInt32)
  /-- Setting a directory. -/
  | setDirectory (i : Nat) (rva size : Option UInt32)
  /-- Adding a section. -/
  | addSection (name : String) (size : UInt32)
  /-- Renaming a section. -/
  | setSectionName (i : Nat) (name : String)
  /-- Setting where a section is in memory. -/
  | setSectionMemory (i : Nat) (address size : Option UInt32)
  /-- Setting where a section is in the file. -/
  | setSectionData (i : Nat) (pointer size : Option UInt32)
  /-- Setting the characteristics of a section. -/
  | setSectionCharacteristics (i : Nat) (bits : UInt32)
  /-- Splitting a section. -/
  | splitSection (i : Nat) (front back : String) (off : UInt32)
  /-- Growing the last section. -/
  | enlargeLastSection (increment : UInt32)
  /-- Removing a section. -/
  | removeSection (i : Nat)
  /-- Recomputing the headers. -/
  | makeValid

namespace Operation

/-- Whether an operation edits the headers. -/
def isEdit : Operation → Bool
  | .load .. | .loadSource _ | .loadEntry _ | .loadStream .. | .write .. | .relocate _ => false
  | _ => true

/-- Whether an operation changes the contents that are loaded already. -/
def isUpdate : Operation → Bool
  | .write .. | .relocate _ => true
  | _ => false

end Operation

namespace Image

/-- The edited image, or the image as it was where the edit failed. -/
def orElse (image : Image) : Except Fault Image → Image
  | .ok edited => edited
  | .error _ => image

/-- The image after an operation. -/
def perform (image : Image) : Operation → Image
  | .load extent file => (image.loadTo extent file).1
  | .loadSource source => (image.loadSource source).1
  | .loadEntry entry => (image.loadEntry entry).1
  | .loadStream stream off => (image.loadStream stream off).1
  | .write a src => (image.write a src).1
  | .relocate base => (image.relocate base).1
  | .setSymbolTable offset => image.setSymbolTable offset
  | .setCharacteristics bits => image.setCharacteristics bits
  | .setEntryPoint a => image.setEntryPoint a
  | .setCode size base => image.setCode size base
  | .setDirectory i rva size => image.orElse (image.setDirectory i rva size)
  | .addSection name size => image.orElse (image.addSection name size)
  | .setSectionName i name => image.orElse (image.setSectionName i name)
  | .setSectionMemory i address size => image.orElse (image.setSectionMemory i address size)
  | .setSectionData i pointer size => image.orElse (image.setSectionData i pointer size)
  | .setSectionCharacteristics i bits => image.orElse (image.setSectionCharacteristics i bits)
  | .splitSection i front back off => image.orElse (image.splitSection i front back off)
  | .enlargeLastSection increment => image.enlargeLastSection increment
  | .removeSection i => image.orElse (image.removeSection i)
  | .makeValid => image.makeValid

/-- The image after a list of operations. -/
def run (image : Image) (history : List Operation) : Image := history.foldl perform image

/-- Some history leads from nothing to the image. -/
def Reachable (image : Image) : Prop := ∃ config history, (empty config).run history = image

end Image

end PeImage
