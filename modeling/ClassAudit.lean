import ClassAudit.Access
import ClassAudit.Analysis
import ClassAudit.Assembly.ClassDraft
import ClassAudit.Assembly.Layout
import ClassAudit.Assembly.PoolBuilder
import ClassAudit.Assembly.Source
import ClassAudit.Assembly.Step
import ClassAudit.Batch
import ClassAudit.Binary
import ClassAudit.Bytecode.Body
import ClassAudit.Bytecode.Instruction
import ClassAudit.Bytecode.MemberName
import ClassAudit.Bytecode.Opcode
import ClassAudit.ClassFile.Code
import ClassAudit.ClassFile.ConstantPool
import ClassAudit.ClassFile.Cursor
import ClassAudit.ClassFile.Decode
import ClassAudit.ClassFile.Descriptor
import ClassAudit.ClassFile.Malformed
import ClassAudit.ClassFile.Model
import ClassAudit.ClassFile.Parse
import ClassAudit.ClassFile.StackMap
import ClassAudit.CommandLine.Command
import ClassAudit.CommandLine.Completion
import ClassAudit.CommandLine.Flags
import ClassAudit.CommandLine.Help
import ClassAudit.CommandLine.Program
import ClassAudit.CommandLine.Script
import ClassAudit.Config.Basic
import ClassAudit.Config.FromToml
import ClassAudit.Config.FromYaml
import ClassAudit.Config.Lines
import ClassAudit.Config.Parse
import ClassAudit.Config.Plan
import ClassAudit.Config.Validity
import ClassAudit.Detectors.AdapterPattern
import ClassAudit.Detectors.Catalogue
import ClassAudit.Detectors.Collaboration
import ClassAudit.Detectors.CyclicDependency
import ClassAudit.Detectors.DeadCode
import ClassAudit.Detectors.DecoratorPattern
import ClassAudit.Detectors.DemeterPrinciple
import ClassAudit.Detectors.DependencyGraph
import ClassAudit.Detectors.DependencyInversionPrinciple
import ClassAudit.Detectors.EqualsHashCode
import ClassAudit.Detectors.FeatureEnvy
import ClassAudit.Detectors.HollywoodPrinciple
import ClassAudit.Detectors.MissingImplementation
import ClassAudit.Detectors.ObserverPattern
import ClassAudit.Detectors.OpenClosedPrinciple
import ClassAudit.Detectors.SingleResponsibilityPrinciple
import ClassAudit.Detectors.StrategyPattern
import ClassAudit.Detectors.TemporalCoupling
import ClassAudit.Detectors.UnusedVariables
import ClassAudit.Files.Path
import ClassAudit.Files.Tree
import ClassAudit.Finding
import ClassAudit.Golden.Case
import ClassAudit.Golden.ClassOutline
import ClassAudit.Golden.Pairing
import ClassAudit.Golden.Verdict
import ClassAudit.Lint.Context
import ClassAudit.Lint.Registry
import ClassAudit.Lint.Run
import ClassAudit.Lint.Suppression
import ClassAudit.Main
import ClassAudit.Output.Duration
import ClassAudit.Output.Json
import ClassAudit.Output.Summary
import ClassAudit.Output.Timestamp
import ClassAudit.Platform
import ClassAudit.Proofs.ArgumentPlaces
import ClassAudit.Proofs.AssemblyText
import ClassAudit.Proofs.BatchAccounts
import ClassAudit.Proofs.BodyLayout
import ClassAudit.Proofs.BodyMarkers
import ClassAudit.Proofs.BodyRoundTrip
import ClassAudit.Proofs.BoundedSearches
import ClassAudit.Proofs.CallChains
import ClassAudit.Proofs.ClassRoundTrip
import ClassAudit.Proofs.ClassWriting
import ClassAudit.Proofs.CodeRoundTrip
import ClassAudit.Proofs.Cohesion
import ClassAudit.Proofs.Constructions
import ClassAudit.Proofs.CutDescriptors
import ClassAudit.Proofs.DeadCodeSoundness
import ClassAudit.Proofs.DependencyNodes
import ClassAudit.Proofs.DependencyRelation
import ClassAudit.Proofs.DescriptorBytes
import ClassAudit.Proofs.DescriptorGrammar
import ClassAudit.Proofs.DirectivePattern
import ClassAudit.Proofs.DirectiveRoundTrip
import ClassAudit.Proofs.DraftRoundTrip
import ClassAudit.Proofs.Emission
import ClassAudit.Proofs.EnviedClass
import ClassAudit.Proofs.ExactPairing
import ClassAudit.Proofs.FaultOffsets
import ClassAudit.Proofs.FindingOrder
import ClassAudit.Proofs.FrameRoundTrip
import ClassAudit.Proofs.GlobMeaning
import ClassAudit.Proofs.InheritedMethods
import ClassAudit.Proofs.InjectedFields
import ClassAudit.Proofs.JobRuns
import ClassAudit.Proofs.LineAttribution
import ClassAudit.Proofs.LineForms
import ClassAudit.Proofs.LineMerging
import ClassAudit.Proofs.LoadRuns
import ClassAudit.Proofs.LocalNames
import ClassAudit.Proofs.LowerCase
import ClassAudit.Proofs.MarkerTransparency
import ClassAudit.Proofs.Monitors
import ClassAudit.Proofs.NameSearch
import ClassAudit.Proofs.Ordering
import ClassAudit.Proofs.PackageIsolation
import ClassAudit.Proofs.PairingOrder
import ClassAudit.Proofs.ParameterSlots
import ClassAudit.Proofs.PassAgreement
import ClassAudit.Proofs.Planning
import ClassAudit.Proofs.PoolGrammar
import ClassAudit.Proofs.PoolGrowth
import ClassAudit.Proofs.PoolLookup
import ClassAudit.Proofs.PoolRequests
import ClassAudit.Proofs.PoolTable
import ClassAudit.Proofs.PrefixFree
import ClassAudit.Proofs.Preparation
import ClassAudit.Proofs.QuotedText
import ClassAudit.Proofs.ReaderAccesses
import ClassAudit.Proofs.ReaderTriples
import ClassAudit.Proofs.Reading
import ClassAudit.Proofs.Remarking
import ClassAudit.Proofs.RoundedShares
import ClassAudit.Proofs.SearchRuns
import ClassAudit.Proofs.SelectedFindings
import ClassAudit.Proofs.Selection
import ClassAudit.Proofs.SharedConstants
import ClassAudit.Proofs.Separators
import ClassAudit.Proofs.Signatures
import ClassAudit.Proofs.Sites
import ClassAudit.Proofs.StepDecoding
import ClassAudit.Proofs.StepMeaning
import ClassAudit.Proofs.StoredMembers
import ClassAudit.Proofs.StringConstants
import ClassAudit.Proofs.StrongComponents
import ClassAudit.Proofs.SuppressionMarks
import ClassAudit.Proofs.TableBounds
import ClassAudit.Proofs.TextRoundTrip
import ClassAudit.Proofs.UnusedMembers
import ClassAudit.Proofs.Utf8RoundTrip
import ClassAudit.Proofs.WriteOutcomes
import ClassAudit.Rounding
import ClassAudit.Text.Base64
import ClassAudit.Text.Basic
import ClassAudit.Text.Blank
import ClassAudit.Text.Columns
import ClassAudit.Text.Decimal
import ClassAudit.Text.Grapheme
import ClassAudit.Text.Letter
import ClassAudit.Text.LowerCase
import ClassAudit.Text.ModifiedUtf8
import ClassAudit.Text.Number
import ClassAudit.Text.Printable
import ClassAudit.Text.Quoted
import ClassAudit.Text.Utf8
import ClassAudit.Toml.Document
import ClassAudit.Toml.Fault
import ClassAudit.Toml.Key
import ClassAudit.Toml.Reader
import ClassAudit.Toml.Scalar
import ClassAudit.Toml.Tables
import ClassAudit.Yaml.Cursor
import ClassAudit.Yaml.Decode
import ClassAudit.Yaml.Event
import ClassAudit.Yaml.Node
import ClassAudit.Yaml.Resolve
import ClassAudit.Yaml.Scalar
import ClassAudit.Yaml.Source
import ClassAudit.Yaml.Token
