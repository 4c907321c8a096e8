import ClasspathAudit.ClassFile.Scan
import ClasspathAudit.Descriptor
import ClasspathAudit.Reactor
import ClasspathAudit.Repository
import ClasspathAudit.Archive.Zip
import ClasspathAudit.FileSystem.Walk
import ClasspathAudit.Classification
import ClasspathAudit.ReferenceListing
import ClasspathAudit.Report.GitHub
import ClasspathAudit.Report.Human
import ClasspathAudit.Report.JUnit
import ClasspathAudit.Report.Json
import ClasspathAudit.Report.Suggestion
import ClasspathAudit.CommandLine.Reader
import ClasspathAudit.Discovery
import ClasspathAudit.Main
import ClasspathAudit.Proofs.ClassFile.PoolFormat
import ClasspathAudit.Proofs.ClassFile.AnnotationFormat
import ClasspathAudit.Proofs.ClassFile.InstructionFormat
import ClasspathAudit.Proofs.ClassFile.MemberFormat
import ClasspathAudit.Proofs.ClassFile.CodeFormat
import ClasspathAudit.Proofs.ClassFile.WholeFormat
import ClasspathAudit.Proofs.Classification.Indexing
import ClasspathAudit.Proofs.Classification.Recording
import ClasspathAudit.Proofs.Classification.Meaning
import ClasspathAudit.Proofs.Classification.Resolution
import ClasspathAudit.Proofs.Classification.Advice
import ClasspathAudit.Proofs.Descriptor.Entries
import ClasspathAudit.Proofs.Classification.AdvisedDescriptor
import ClasspathAudit.Proofs.Signature.Grammar
import ClasspathAudit.Proofs.Signature.Unambiguity
import ClasspathAudit.Proofs.Signature.Completeness
import ClasspathAudit.Proofs.Signature.Exactness
import ClasspathAudit.Proofs.ClassFile.SelfDelimitation
import ClasspathAudit.Proofs.DirectoryScan.Splitting
import ClasspathAudit.Proofs.Classification.Order
import ClasspathAudit.Proofs.Signature.Erasure
import ClasspathAudit.Proofs.Discovery.Closure
import ClasspathAudit.Proofs.Run.EarlyEnd
import ClasspathAudit.Proofs.Report.TestCases
import ClasspathAudit.Proofs.Report.Verdict
import ClasspathAudit.Proofs.Report.WellFormedness
import ClasspathAudit.Proofs.Report.Escaping
import ClasspathAudit.Proofs.Report.Commands
import ClasspathAudit.Proofs.Reference.Names
import ClasspathAudit.Proofs.ClassFile.InstructionWalk
import ClasspathAudit.Proofs.FileSystem.Lookup
import ClasspathAudit.Proofs.Classification.Places
import ClasspathAudit.Proofs.Classification.Siblings
import ClasspathAudit.Proofs.ClassFile.TextDecoding
import ClasspathAudit.Proofs.ClassFile.PoolIndexing
import ClasspathAudit.Proofs.Toml.Texts
import ClasspathAudit.Proofs.Toml.Documents
import ClasspathAudit.Proofs.Artifact.Labels
import ClasspathAudit.Proofs.Descriptor.Suggestion
import ClasspathAudit.Proofs.Signature.Lookahead
import ClasspathAudit.Proofs.Signature.ViablePrefix
import ClasspathAudit.Proofs.Signature.ByteReading
import ClasspathAudit.Proofs.Signature.Refusal
import ClasspathAudit.Proofs.ReferenceListing.Kinds
import ClasspathAudit.Proofs.Signature.FormatAcceptance
import ClasspathAudit.Proofs.Signature.FormatGrammar
import ClasspathAudit.Proofs.Descriptor.Validation
import ClasspathAudit.ClassFile.InPlace.Annotations
import ClasspathAudit.ClassFile.InPlace.Scan
import ClasspathAudit.Proofs.ClassFile.InPlace.Following
import ClasspathAudit.Proofs.ClassFile.InPlace.Pool
import ClasspathAudit.Proofs.ClassFile.InPlace.Code
import ClasspathAudit.Proofs.ClassFile.InPlace.Safety
import ClasspathAudit.Proofs.Repository.Layout
