import Reckoner.Main
import Reckoner.Proofs.Evaluation.Legality
import Reckoner.Proofs.Grammar.Acceptance
import Reckoner.Proofs.Grammar.ReadBack
import Reckoner.Proofs.Number.Exact
import Reckoner.Proofs.Number.Written
import Reckoner.Proofs.Number.Faithful
import Reckoner.Proofs.Run.Ending
import Reckoner.Proofs.Session.Agreement
import Reckoner.Proofs.Session.Prompt
import Reckoner.Proofs.Session.Writing
import Reckoner.Proofs.Source.Spacing
import Reckoner.Proofs.Source.Splitting
import Reckoner.Proofs.Run.Reprint
import Reckoner.Proofs.Grammar.Remainder
import Reckoner.Proofs.Session.Events
import Reckoner.Proofs.Run.Placement
import Reckoner.Proofs.Session.OneLine
import Reckoner.Proofs.Session.History
import Reckoner.Proofs.Evaluation.Typing
import Reckoner.Proofs.Grammar.Steps
import Reckoner.Proofs.Grammar.Interruption
import Reckoner.Proofs.Grammar.Verdict
import Reckoner.Proofs.Grammar.Lookahead
import Reckoner.Proofs.Grammar.Horizon
import Reckoner.Proofs.Grammar.Growth
import Reckoner.Proofs.Grammar.Limit
import Reckoner.Proofs.Grammar.Viability
import Reckoner.Proofs.Source.Position
import Reckoner.Proofs.Source.LineBreak
import Reckoner.Proofs.Source.Respelling
import Reckoner.Proofs.Source.Numeral
import Reckoner.Proofs.Grammar.Statements
import Reckoner.Proofs.Evaluation.Equality
import Reckoner.Proofs.Grammar.UniqueReading
import Reckoner.Proofs.Grammar.Returns
