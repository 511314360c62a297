import JsxTracking.Main
import JsxTracking.Host.Store
import JsxTracking.Proofs.Splicing
import JsxTracking.Proofs.MarkerRemoval
import JsxTracking.Proofs.HandleScope
import JsxTracking.Proofs.ValueScope
import JsxTracking.Proofs.OutputAgreement
import JsxTracking.Proofs.Restoration
import JsxTracking.Proofs.Parentheses
import JsxTracking.Proofs.SharedRegistry
import JsxTracking.Proofs.HeldTexts
import JsxTracking.Proofs.Isolation
import JsxTracking.Proofs.RecordBook
import JsxTracking.Proofs.GeneratedScopes
import JsxTracking.Proofs.Hygiene
import JsxTracking.Proofs.UnmarkedModules
import JsxTracking.Proofs.SharedDirectory
import JsxTracking.Proofs.ShownOnce
import JsxTracking.Proofs.ClickBinding
import JsxTracking.Proofs.ComponentPlaces
import JsxTracking.Proofs.RejectedSources
import JsxTracking.Proofs.SourceOrder
import JsxTracking.Proofs.OutputFiles
import JsxTracking.Proofs.HandleSequence
import JsxTracking.Proofs.ForwardedReference
import JsxTracking.Proofs.InjectedImports
import JsxTracking.Proofs.FirstExit
import JsxTracking.Proofs.HoistedCalls
import JsxTracking.Proofs.OutOfScope
import JsxTracking.Proofs.MovedOperators
import JsxTracking.Proofs.RecordPaths
import JsxTracking.Proofs.Retraction
import JsxTracking.Proofs.FailedRecords
import JsxTracking.Proofs.SummaryRecovery
import JsxTracking.Proofs.ScannedMarkers
import JsxTracking.Proofs.SummaryEntries
import JsxTracking.Proofs.SpelledOptions
import JsxTracking.Proofs.SharedHandles
import JsxTracking.Proofs.SpliceOrder
import JsxTracking.Proofs.NormalPaths
