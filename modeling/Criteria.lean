import Criteria.Main
import Criteria.Matrix.File
import Criteria.Schema.Document
import Criteria.Proofs.Soundness
import Criteria.Proofs.Meaning
import Criteria.Proofs.Whitelist
import Criteria.Proofs.Disguise
import Criteria.Proofs.Selection
import Criteria.Proofs.Rules
import Criteria.Proofs.Answers
import Criteria.Proofs.CalendarUnit
import Criteria.Proofs.DepthChecks
import Criteria.Proofs.WireForm
import Criteria.Proofs.Legible
import Criteria.Proofs.Foretold
import Criteria.Proofs.Traversal
import Criteria.Proofs.Operands
import Criteria.Proofs.Omission
import Criteria.Proofs.IsoParts
import Criteria.Proofs.TrailingZone
import Criteria.Proofs.WrittenMoment
import Criteria.Proofs.WholeDay
import Criteria.Proofs.WindowReach
import Criteria.Proofs.Findings
import Criteria.Proofs.Outline
import Criteria.Proofs.RoundTrip
import Criteria.Proofs.Comparand
import Criteria.Proofs.LocalDay
import Criteria.Proofs.Tables
import Criteria.Proofs.FieldFile
import Criteria.Proofs.SetOperand
import Criteria.Proofs.Paging
