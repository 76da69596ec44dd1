import ExactUnits.Quantity.Reader
import ExactUnits.Serial.Codec
import ExactUnits.Standard
import ExactUnits.Proofs.Conversion.Chain
import ExactUnits.Proofs.Monomial.Exponents
import ExactUnits.Proofs.Number.Power
import ExactUnits.Proofs.UnitOfMeasure.Algebra
import ExactUnits.Proofs.Registry.Forms
import ExactUnits.Proofs.Registry.Contents
import ExactUnits.Proofs.UnitOfMeasure.Composition
import ExactUnits.Proofs.Registry.Names
import ExactUnits.Proofs.Number.Written
import ExactUnits.Proofs.Normal.Plain
import ExactUnits.Proofs.Monomial.Written
import ExactUnits.Proofs.UnitOfMeasure.Bounded
import ExactUnits.Proofs.Vocabulary.Written
import ExactUnits.Proofs.Quantity.Scan
import ExactUnits.Proofs.Quantity.Written
import ExactUnits.Proofs.Registry.Written
import ExactUnits.Proofs.Registry.Standard
import ExactUnits.Proofs.Registry.Plain
import ExactUnits.Proofs.Text.Occurrence
import ExactUnits.Proofs.Text.Words
import ExactUnits.Proofs.Normal.Form
import ExactUnits.Proofs.UnitOfMeasure.Product
import ExactUnits.Proofs.Vocabulary.Joined
import ExactUnits.Proofs.Registry.Scale
import ExactUnits.Proofs.Conversion.Composite
import ExactUnits.Proofs.Conversion.Prefixed
import ExactUnits.Proofs.Quantity.Run
import ExactUnits.Proofs.Vocabulary.Faults
import ExactUnits.Proofs.Vocabulary.Extension
import ExactUnits.Proofs.Registry.Extension
import ExactUnits.Proofs.Number.Grammar
import ExactUnits.Proofs.Serial.Lossless
import ExactUnits.Proofs.Number.Fixed
import ExactUnits.Proofs.Monomial.Group
import ExactUnits.Proofs.UnitOfMeasure.Laws
import ExactUnits.Proofs.Monomial.Overflow
import ExactUnits.Proofs.Normal.Raised
import ExactUnits.Proofs.Vocabulary.Exponent
import ExactUnits.Proofs.Registry.Power
import ExactUnits.Proofs.Vocabulary.Affine
import ExactUnits.Proofs.Quantity.Glued
import ExactUnits.Proofs.Text.Gap
import ExactUnits.Proofs.Normal.Distribution
import ExactUnits.Proofs.Registry.Records
import ExactUnits.Proofs.Text.Cut
import ExactUnits.Proofs.Vocabulary.Conversion
import ExactUnits.Proofs.Monomial.Distinct
import ExactUnits.Proofs.Conversion.Shown
import ExactUnits.Proofs.Number.Laws
