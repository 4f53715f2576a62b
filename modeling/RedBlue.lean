import RedBlue.Session.Run
import RedBlue.Session.Survey
import RedBlue.Proofs.Groups
import RedBlue.Proofs.Registers
import RedBlue.Proofs.Passes
import RedBlue.Proofs.Chains
import RedBlue.Proofs.Ranges
import RedBlue.Proofs.Regions
import RedBlue.Proofs.Rows
import RedBlue.Proofs.Acceptance
import RedBlue.Proofs.Agreement
import RedBlue.Proofs.Noninterference
import RedBlue.Proofs.Pixels
import RedBlue.Proofs.RowBytes
import RedBlue.Proofs.Images
import RedBlue.Proofs.ImagePixels
import RedBlue.Proofs.ImagesAsRows
import RedBlue.Proofs.Steps
import RedBlue.Proofs.Settling
import RedBlue.Proofs.Surveys
import RedBlue.Proofs.Refusals
import RedBlue.Proofs.Effects
import RedBlue.Proofs.RowPixels
import RedBlue.Proofs.PixelSlices
import RedBlue.Proofs.PixelPlaces
import RedBlue.Proofs.Forms
import RedBlue.Proofs.Undoing
import RedBlue.Proofs.ImageRoundTrips
import RedBlue.Proofs.Spans
import RedBlue.Proofs.Shares
import RedBlue.Proofs.Links
