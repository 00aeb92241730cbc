import PeImage.Alignment.Rounding
import PeImage.Bytes.Integer
import PeImage.Image.History
import PeImage.Memory.Scan
import PeImage.Memory.Update
import PeImage.Proofs.Acceptance
import PeImage.Proofs.DirectoryEntries
import PeImage.Proofs.EntryPoints
import PeImage.Proofs.FlatImage
import PeImage.Proofs.FlatTranslation
import PeImage.Proofs.MoveFrame
import PeImage.Proofs.Rebase
import PeImage.Proofs.RepeatedMove
import PeImage.Proofs.Translation
import PeImage.Proofs.RoundTrip
import PeImage.Proofs.SectionCount
import PeImage.Proofs.Comparison
import PeImage.Proofs.Checked.Words
import PeImage.Proofs.Checked.Access
import PeImage.Proofs.Checked.Comparison
import PeImage.Proofs.Checked.Headers
import PeImage.Proofs.Checked.SectionTable
import PeImage.Proofs.Checked.Mapping
import PeImage.Proofs.Checked.Load
import PeImage.Proofs.Checked.Relocation
import PeImage.Proofs.Checked.Edit
import PeImage.Proofs.Checked.History
import PeImage.Proofs.AddedSection
import PeImage.Proofs.RemovedSection
import PeImage.Proofs.FailedLoad
import PeImage.Proofs.BaseField
import PeImage.Proofs.ResizedSection
import PeImage.Proofs.Recomputed
import PeImage.Proofs.FilledFrontier
import PeImage.Proofs.AcceptedLayout
import PeImage.Proofs.MovedData
import PeImage.Proofs.EncodedDirectory
import PeImage.Proofs.AdjustedHalf
import PeImage.Proofs.HeaderVerdict
import PeImage.Proofs.CapturedTable
import PeImage.Proofs.CutFile
import PeImage.Proofs.ConsumedImage
import PeImage.Proofs.PresentDirectories
import PeImage.Proofs.ScannedStrings
import PeImage.Proofs.ServedRaw
import PeImage.Proofs.HeaderStorage
import PeImage.Proofs.PublishedOffsets
import PeImage.Proofs.SectionNames
import PeImage.Proofs.MovedBundle
