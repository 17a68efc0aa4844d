import SlotSafe.Main
import SlotSafe.Proofs.AcceptedSnapshots
import SlotSafe.Proofs.Additions
import SlotSafe.Proofs.AlignmentLaws
import SlotSafe.Proofs.AlikeRuns
import SlotSafe.Proofs.Bases
import SlotSafe.Proofs.BoldPlaces
import SlotSafe.Proofs.BuiltDocuments
import SlotSafe.Proofs.ChangesInPlace
import SlotSafe.Proofs.ClosedLayouts
import SlotSafe.Proofs.ContractLookup
import SlotSafe.Proofs.CostMatrix
import SlotSafe.Proofs.Coverage
import SlotSafe.Proofs.Declarations
import SlotSafe.Proofs.DecoderSteps
import SlotSafe.Proofs.Deletions
import SlotSafe.Proofs.DirectLayouts
import SlotSafe.Proofs.EscapedTexts
import SlotSafe.Proofs.ExpectedEndings
import SlotSafe.Proofs.ExplainedVerdicts
import SlotSafe.Proofs.ExtractedTexts
import SlotSafe.Proofs.Files
import SlotSafe.Proofs.FirstCheapest
import SlotSafe.Proofs.FoldedTexts
import SlotSafe.Proofs.FullLayouts
import SlotSafe.Proofs.Histories
import SlotSafe.Proofs.Inheritance
import SlotSafe.Proofs.Insertions
import SlotSafe.Proofs.Joins
import SlotSafe.Proofs.JsonRoundTrip
import SlotSafe.Proofs.KeyRoundTrip
import SlotSafe.Proofs.LexedBlocks
import SlotSafe.Proofs.LexedTexts
import SlotSafe.Proofs.LogSettings
import SlotSafe.Proofs.MarkRuns
import SlotSafe.Proofs.MovedBlocks
import SlotSafe.Proofs.NestedLayouts
import SlotSafe.Proofs.ParsedNodes
import SlotSafe.Proofs.Positions
import SlotSafe.Proofs.Readings
import SlotSafe.Proofs.RenamedCompilations
import SlotSafe.Proofs.Reordering
import SlotSafe.Proofs.SavedExtractions
import SlotSafe.Proofs.Snapshots
import SlotSafe.Proofs.SourceLines
import SlotSafe.Proofs.SourceReferences
import SlotSafe.Proofs.StandIns
import SlotSafe.Proofs.Success
import SlotSafe.Proofs.Tables
import SlotSafe.Proofs.YamlRoundTrip
import SlotSafe.Proofs.YamlSnapshots
