import IntegerCalculator.Assignment
import IntegerCalculator.Expression
import IntegerCalculator.Line
import IntegerCalculator.Main
import IntegerCalculator.Options
import IntegerCalculator.Program
import IntegerCalculator.Session
import IntegerCalculator.Session.Run
import IntegerCalculator.Proofs.Tree
import IntegerCalculator.Proofs.Grammar
import IntegerCalculator.Proofs.OperatorRun
import IntegerCalculator.Proofs.Conversion
import IntegerCalculator.Proofs.StackHeight
import IntegerCalculator.Proofs.ConversionState
import IntegerCalculator.Proofs.LongestMatch
import IntegerCalculator.Proofs.TableDependence
import IntegerCalculator.Proofs.Rendering
import IntegerCalculator.Proofs.Context
import IntegerCalculator.Proofs.AssignmentLine
import IntegerCalculator.Proofs.Dialogue
import IntegerCalculator.Proofs.Resumption
import IntegerCalculator.Proofs.Restoration
import IntegerCalculator.Proofs.Compositional
import IntegerCalculator.Proofs.Observation
import IntegerCalculator.Proofs.EncodedText
import IntegerCalculator.Proofs.Layout
import IntegerCalculator.Proofs.Outcome
import IntegerCalculator.Proofs.ConversionShape
import IntegerCalculator.Proofs.OppositeSign
import IntegerCalculator.Proofs.GluedSign
import IntegerCalculator.Proofs.FirstFault
import IntegerCalculator.Proofs.AssignmentFaults
import IntegerCalculator.Proofs.MalformedPostfix
import IntegerCalculator.Proofs.Substitution
import IntegerCalculator.Proofs.MentionedNames
import IntegerCalculator.Proofs.SingleTerm
import IntegerCalculator.Proofs.Independence
import IntegerCalculator.Proofs.TokenDisplay
import IntegerCalculator.Proofs.PostfixText
import IntegerCalculator.Proofs.Verbosity
import IntegerCalculator.Proofs.Journal
import IntegerCalculator.Proofs.Journal
