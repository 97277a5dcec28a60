import Aventuria.Alchemy.Dilution
import Aventuria.Duration.Effect
import Aventuria.Formula.Cache
import Aventuria.HerbSearch
import Aventuria.Main
import Aventuria.Proofs.Alchemy.Advantage
import Aventuria.Proofs.Calendar.DatePattern
import Aventuria.Proofs.Calendar.Walk
import Aventuria.Proofs.Check.Rating
import Aventuria.Proofs.CommandLine.Reporting
import Aventuria.Proofs.Dice.Rollers
import Aventuria.Proofs.Dice.Rolling
import Aventuria.Proofs.Duration.Agreement
import Aventuria.Proofs.Duration.Evaluation
import Aventuria.Proofs.Formula.Caching
import Aventuria.Proofs.Formula.Lossless
import Aventuria.Proofs.Harvest.Asides
import Aventuria.Proofs.Harvest.Binding
import Aventuria.Proofs.Harvest.InTurn
import Aventuria.Proofs.Harvest.Nameless
import Aventuria.Proofs.Harvest.NumberWords
import Aventuria.Proofs.Harvest.Stages
import Aventuria.Proofs.Harvest.Totals
import Aventuria.Proofs.HerbSearch.Doubling
import Aventuria.Proofs.HerbSearch.NonNegative
import Aventuria.Proofs.Regeneration
import Aventuria.Proofs.Rounding.OneAndAHalf
import Aventuria.Proofs.Spell.Charges
import Aventuria.Proofs.Spell.Malformed
import Aventuria.Proofs.Spell.Storing
import Aventuria.Spell.Storage
import Aventuria.Proofs.Dice.Stepping
