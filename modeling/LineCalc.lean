import LineCalc.Main
import LineCalc.Proofs.Conversion
import LineCalc.Proofs.TokenSpans
import LineCalc.Proofs.Selection
import LineCalc.Proofs.ReadBack
import LineCalc.Proofs.Dimension
import LineCalc.Proofs.Totals
import LineCalc.Proofs.Variables
import LineCalc.Proofs.Brackets
import LineCalc.Proofs.Resolution
import LineCalc.Proofs.Registration
import LineCalc.Proofs.RoundTrip
import LineCalc.Proofs.Document
import LineCalc.Proofs.Output
import LineCalc.Proofs.Multiples
import LineCalc.Proofs.Conservation
import LineCalc.Proofs.LongestName
import LineCalc.Proofs.Progress
import LineCalc.Proofs.PercentPhrases
import LineCalc.Proofs.Printing
import LineCalc.Proofs.Margins
import LineCalc.Proofs.UnitSizes
import LineCalc.Proofs.WholeAmounts
import LineCalc.Proofs.SumOrder
import LineCalc.Proofs.PercentOperators
import LineCalc.Proofs.DateArithmetic
import LineCalc.Proofs.Separators
import LineCalc.Proofs.Grouping
import LineCalc.Proofs.UnitGroups
import LineCalc.Proofs.UncheckedDivision
import LineCalc.Proofs.ConversionOrder
import LineCalc.Proofs.Averages
import LineCalc.Proofs.Literals
import LineCalc.Proofs.TableOrder
import LineCalc.Proofs.ResolvedWords
import LineCalc.Proofs.Reached
