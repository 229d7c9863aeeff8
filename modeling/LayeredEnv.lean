import LayeredEnv.Description
import LayeredEnv.Main
import LayeredEnv.Proofs.Provenance
import LayeredEnv.Session
import LayeredEnv.Proofs.ImportIndependence
import LayeredEnv.Proofs.KeptResults
import LayeredEnv.Proofs.SideTables
import LayeredEnv.Proofs.OriginTable
import LayeredEnv.Proofs.EnvironmentLayer
import LayeredEnv.Proofs.PlainSplice
import LayeredEnv.Proofs.RequirementMeaning
import LayeredEnv.Proofs.RenderedFiles
import LayeredEnv.Proofs.MoreDefaults
import LayeredEnv.Proofs.AppendedLine
import LayeredEnv.Proofs.ReadLog
import LayeredEnv.Proofs.LeafTruth
import LayeredEnv.Proofs.EnvironmentOrigin
import LayeredEnv.Proofs.ActionsAgree
import LayeredEnv.Proofs.WrittenRequirements
import LayeredEnv.Proofs.ExportedValues
import LayeredEnv.Proofs.ConversionStage
import LayeredEnv.Proofs.ShownEnvironment
import LayeredEnv.Proofs.KeyNames
import LayeredEnv.Proofs.RepeatedPresets
import LayeredEnv.Proofs.TypedValues
import LayeredEnv.Proofs.SharedNames
import LayeredEnv.Proofs.CommandLookup
import LayeredEnv.Proofs.LineAccount
import LayeredEnv.Proofs.ReexportedValues
