import Fluxion.Position
import Fluxion.Expr.Basic
import Fluxion.Expr.Scale
import Fluxion.Expr.Product
import Fluxion.Expr.Tally
import Fluxion.Expr.Sum
import Fluxion.Expr.Weight
import Fluxion.Expr.Derivative
import Fluxion.Unicode.Ranges
import Fluxion.Unicode.Blank
import Fluxion.Unicode.Digit
import Fluxion.Unicode.Letter
import Fluxion.Text.Brackets
import Fluxion.Text.Atoms
import Fluxion.Text.Split
import Fluxion.Decimal.Digits
import Fluxion.Decimal.Binary64
import Fluxion.Decimal.Shortest
import Fluxion.Decimal.Text
import Fluxion.Decimal.Reading
import Fluxion.Literal
import Fluxion.Fault
import Fluxion.Context
import Fluxion.Parse
import Fluxion.Expr.Print
import Fluxion.Expr.Eval
import Fluxion.Number
import Fluxion.Polynomial
import Fluxion.Quadrature
import Fluxion.Matrix
import Fluxion.Determinant
import Fluxion.ScalarField
import Fluxion.Unicode.Hidden
import Fluxion.Text.Quoted
import Fluxion.Calculator.Value
import Fluxion.Calculator.Operators
import Fluxion.Calculator.Command
import Fluxion.Calculator.Session
import Fluxion.Text.Order
import Fluxion.Calculator.Shown
import Fluxion.Calculator.Construct
import Fluxion.Calculator.Samples
import Fluxion.Calculator.Table
import Fluxion.Proofs.Hereditary
import Fluxion.Proofs.Canonical
import Fluxion.Proofs.Differentiation
import Fluxion.Proofs.Interpretation
import Fluxion.Proofs.Computing
import Fluxion.Proofs.Soundness
import Fluxion.Proofs.RealValue
import Fluxion.Proofs.Jets
import Fluxion.Proofs.OuterDerivative
import Fluxion.Proofs.Slope
import Fluxion.Proofs.Characters
import Fluxion.Proofs.Scanning
import Fluxion.Proofs.Literals
import Fluxion.Proofs.Splitting
import Fluxion.Proofs.Grammar
import Fluxion.Proofs.Reading
import Fluxion.Proofs.Printing
import Fluxion.Proofs.RoundTrip
import Fluxion.Proofs.Rebuilding
import Fluxion.Proofs.Dimension
import Fluxion.Proofs.Operands
import Fluxion.Proofs.Failure
import Fluxion.Proofs.Mismatch
import Fluxion.Proofs.CheckedArithmetic
import Fluxion.Proofs.CheckedReading
import Fluxion.Proofs.Dependence
import Fluxion.Proofs.Rounding
import Fluxion.Proofs.Reshaping
import Fluxion.Proofs.Grouping
import Fluxion.Proofs.Powers
import Fluxion.Proofs.ChainRule
import Fluxion.Proofs.Fractions
import Fluxion.Proofs.MixedPartials
import Fluxion.Proofs.Linearity
import Fluxion.Proofs.Recursion
import Fluxion.Proofs.Descent
import Fluxion.Proofs.Growth
import Fluxion.Proofs.Candidates
import Fluxion.Proofs.AbsentVariables
import Fluxion.Proofs.LikeTerms
import Fluxion.Proofs.Cancelling
import Fluxion.Proofs.ExactCoefficients
import Fluxion.Proofs.PolynomialArithmetic
import Fluxion.Proofs.PolynomialRing
import Fluxion.Proofs.NearestDouble
import Fluxion.Proofs.EmptyPolynomial
import Fluxion.Proofs.ExactEvaluation
import Fluxion.Proofs.MidpointRule
import Fluxion.Proofs.Determinants
import Fluxion.Proofs.CharacteristicPolynomial
