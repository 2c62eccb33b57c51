import SvgPlot.Main
import SvgPlot.Traversal.Recursion
import SvgPlot.Proofs.DocumentOrder
import SvgPlot.Proofs.TokenTree
import SvgPlot.Proofs.CanonicalMarkup
import SvgPlot.Proofs.DepthLimit
import SvgPlot.Proofs.LimitChange
import SvgPlot.Proofs.CollapsedText
import SvgPlot.Proofs.SessionHistory
import SvgPlot.Proofs.VisitedElements
import SvgPlot.Proofs.MarkForm
import SvgPlot.Proofs.Conservation
import SvgPlot.Proofs.ElementByElement
import SvgPlot.Proofs.PageChange
import SvgPlot.Proofs.UnreadInput
import SvgPlot.Proofs.DecodedText
import SvgPlot.Proofs.EncodedText
import SvgPlot.Proofs.EntryPoints
import SvgPlot.Proofs.ExchangeDepth
import SvgPlot.Proofs.FiniteNumbers
import SvgPlot.Proofs.FileFormat
import SvgPlot.Proofs.StoppedRuns
import SvgPlot.Proofs.LoggedWarnings
import SvgPlot.Proofs.LengthGrammar
import SvgPlot.Proofs.NumeralValue
import SvgPlot.Proofs.ShownMarks
import SvgPlot.Proofs.StyleSinks
import SvgPlot.Proofs.ListedLines
import SvgPlot.Proofs.WrittenFiles
import SvgPlot.Proofs.CommandOutcomes
import SvgPlot.Proofs.CoordinateLists
import SvgPlot.Proofs.OpenedShapes
import SvgPlot.Proofs.StrayAmpersands
import SvgPlot.Proofs.QuotedText
import SvgPlot.Proofs.ReadListings
import SvgPlot.Proofs.FormatStability
import SvgPlot.Proofs.CanvasSides
import SvgPlot.Proofs.CountedMarks
import SvgPlot.Proofs.KeptReferences
