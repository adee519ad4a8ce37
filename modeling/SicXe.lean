import SicXe.AddressTable
import SicXe.AddressingFlags
import SicXe.Bytes
import SicXe.CommandLine.Host
import SicXe.CommandLine.Options
import SicXe.CommandLine.Path
import SicXe.CommandLine.Run
import SicXe.CommandLine.World
import SicXe.Constant
import SicXe.Diagnostic
import SicXe.Directive
import SicXe.FileError
import SicXe.Instruction
import SicXe.Journal
import SicXe.Layout
import SicXe.LineFields
import SicXe.Listing
import SicXe.Literal
import SicXe.Main
import SicXe.ObjectCode
import SicXe.ObjectRecord
import SicXe.ObjectRecord.Packing
import SicXe.Operand
import SicXe.Operand.Read
import SicXe.Operator
import SicXe.Program
import SicXe.Proofs.Addresses
import SicXe.Proofs.AssembledSection
import SicXe.Proofs.Coverage
import SicXe.Proofs.Diagnostics
import SicXe.Proofs.Displacement
import SicXe.Proofs.HexNumeral
import SicXe.Proofs.LayoutStep
import SicXe.Proofs.LineAccounts
import SicXe.Proofs.LineNumbers
import SicXe.Proofs.LineOutcomes
import SicXe.Proofs.LiteralPool
import SicXe.Proofs.LiteralText
import SicXe.Proofs.ObjectFile
import SicXe.Proofs.PlainNames
import SicXe.Proofs.ProgramSections
import SicXe.Proofs.RecordOrder
import SicXe.Proofs.RecordText
import SicXe.Proofs.Relocations
import SicXe.Proofs.SectionIndependence
import SicXe.Proofs.SectionWorkers
import SicXe.Proofs.SkippedLines
import SicXe.Proofs.StatementCode
import SicXe.Proofs.SymbolValues
import SicXe.Proofs.TextImage
import SicXe.Proofs.Tiling
import SicXe.Proofs.WholeCode
import SicXe.Proofs.WrittenLiteral
import SicXe.ReadError
import SicXe.Register
import SicXe.Registry
import SicXe.Registry.Load
import SicXe.Registry.Standard
import SicXe.Section
import SicXe.StableSort
import SicXe.Statement
import SicXe.Text.Blank
import SicXe.Text.CodePoints
import SicXe.Text.ControlChar
import SicXe.Text.DecimalDigit
import SicXe.Text.Numeral
import SicXe.Text.Split
import SicXe.Text.WordChar
import SicXe.Token
import SicXe.Token.Scan
import SicXe.Proofs.Regeneration
import SicXe.Proofs.TokenText
import SicXe.Proofs.OperandText
import SicXe.Proofs.OpcodeByte
import SicXe.Proofs.Presentation
import SicXe.Proofs.RecordBreaks
import SicXe.Proofs.SymbolListing
import SicXe.Proofs.OperandReports
import SicXe.Proofs.LinkerNames
import SicXe.Proofs.NumberFields
import SicXe.Proofs.AddressTables
import SicXe.Proofs.KeptStatements
import SicXe.Proofs.SectionReports
import SicXe.Proofs.SymbolDefinitions
import SicXe.Proofs.PrefixStability
import SicXe.Proofs.FieldWidths
import SicXe.Proofs.LiteralReferences
import SicXe.Proofs.LiteralPlacement
import SicXe.Proofs.OperatorSizes
import SicXe.Proofs.SharedNames
import SicXe.Proofs.SectionRecords
import SicXe.Proofs.SourceBytes
import SicXe.Proofs.ArithmeticBounds
import SicXe.Proofs.TableHistory
import SicXe.Proofs.TokenSpans
import SicXe.Proofs.WordNumerals
import SicXe.Proofs.FileWrites
import SicXe.Proofs.CommandFiles
import SicXe.Proofs.RegistryLines
