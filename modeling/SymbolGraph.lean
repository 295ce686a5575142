import SymbolGraph.Builtin
import SymbolGraph.Conversion
import SymbolGraph.Conversion.Annotations
import SymbolGraph.Conversion.Depth
import SymbolGraph.Conversion.Identity
import SymbolGraph.Conversion.Members
import SymbolGraph.Conversion.Recall
import SymbolGraph.Conversion.Signature
import SymbolGraph.Decimal.Binary
import SymbolGraph.Decimal.Shortest
import SymbolGraph.Decimal.Text
import SymbolGraph.Declaration
import SymbolGraph.Diagnostic
import SymbolGraph.Distinct
import SymbolGraph.Draft
import SymbolGraph.Element
import SymbolGraph.Element.Access
import SymbolGraph.Element.Equality
import SymbolGraph.Element.Json
import SymbolGraph.Element.Kind
import SymbolGraph.Element.Members
import SymbolGraph.Failure
import SymbolGraph.Keyed
import SymbolGraph.Lookup
import SymbolGraph.Modifier
import SymbolGraph.Node
import SymbolGraph.Options
import SymbolGraph.Output
import SymbolGraph.Output.Dependencies
import SymbolGraph.Output.Disk
import SymbolGraph.Output.Folder
import SymbolGraph.Output.Memory
import SymbolGraph.Output.Path
import SymbolGraph.Proofs.Annotated
import SymbolGraph.Proofs.Arena
import SymbolGraph.Proofs.Assignability
import SymbolGraph.Proofs.Checked
import SymbolGraph.Proofs.ClassNames
import SymbolGraph.Proofs.ContainingFiles
import SymbolGraph.Proofs.Converted
import SymbolGraph.Proofs.Depths
import SymbolGraph.Proofs.ElementTexts
import SymbolGraph.Proofs.EncodedText
import SymbolGraph.Proofs.Erasure
import SymbolGraph.Proofs.Flattening
import SymbolGraph.Proofs.FolderFiles
import SymbolGraph.Proofs.Forests
import SymbolGraph.Proofs.GeneratedFiles
import SymbolGraph.Proofs.GeneratedPaths
import SymbolGraph.Proofs.Growth
import SymbolGraph.Proofs.JsonTexts
import SymbolGraph.Proofs.LaterDeclarations
import SymbolGraph.Proofs.Locations
import SymbolGraph.Proofs.MadeTypes
import SymbolGraph.Proofs.MembersAccounted
import SymbolGraph.Proofs.MemoryFiles
import SymbolGraph.Proofs.Mentioned
import SymbolGraph.Proofs.Names
import SymbolGraph.Proofs.NamesCarried
import SymbolGraph.Proofs.NearestFirst
import SymbolGraph.Proofs.Nullability
import SymbolGraph.Proofs.Origins
import SymbolGraph.Proofs.OwnSupertypes
import SymbolGraph.Proofs.PartSizes
import SymbolGraph.Proofs.Parts
import SymbolGraph.Proofs.Readings
import SymbolGraph.Proofs.Recalled
import SymbolGraph.Proofs.Resolution
import SymbolGraph.Proofs.StepwiseAssignment
import SymbolGraph.Proofs.Supertypes
import SymbolGraph.Proofs.Totality
import SymbolGraph.Proofs.Truncation
import SymbolGraph.Proofs.TypeAnswers
import SymbolGraph.Proofs.UnknownBounds
import SymbolGraph.Proofs.UnrelatedClasses
import SymbolGraph.Proofs.Validity
import SymbolGraph.QualifiedName
import SymbolGraph.Round
import SymbolGraph.SymbolTable
import SymbolGraph.SymbolTable.Search
import SymbolGraph.Text.Blank
import SymbolGraph.Text.Hex
import SymbolGraph.Text.Identifier
import SymbolGraph.Text.Json
import SymbolGraph.Text.Utf8
import SymbolGraph.Ty
import SymbolGraph.Ty.Operations
import SymbolGraph.TypeRef
import SymbolGraph.Vocabulary
import SymbolGraph.Walk
import SymbolGraph.Proofs.Substitution
import SymbolGraph.Proofs.VariablesLeft
import SymbolGraph.Proofs.NothingReplaced
import SymbolGraph.Proofs.ConstantTiers
import SymbolGraph.Proofs.OptionsRead
import SymbolGraph.Proofs.Boxing
import SymbolGraph.Proofs.SoundTypes
