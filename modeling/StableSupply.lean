import StableSupply.Binary64
import StableSupply.Main
import StableSupply.Simulation.World
import StableSupply.Proofs.Act
import StableSupply.Proofs.Ledger.Requests
import StableSupply.Proofs.Journal
import StableSupply.Proofs.Engine.Apply
import StableSupply.Proofs.Engine.Effect
import StableSupply.Proofs.Genesis
import StableSupply.Proofs.Ledger.Plain
import StableSupply.Proofs.Manager.Audit
import StableSupply.Proofs.Manager.Floor
import StableSupply.Proofs.Ledger.Encoding
import StableSupply.Proofs.Manager.News
import StableSupply.Proofs.Manager.Agreement
import StableSupply.Proofs.Manager.Peg
import StableSupply.Proofs.Genesis.Outcome
import StableSupply.Proofs.Manager.Durable
import StableSupply.Proofs.Events.Delivery
import StableSupply.Proofs.Ledger.Dirty
import StableSupply.Proofs.Engine.Checks
import StableSupply.Proofs.Manager.Lifecycle
import StableSupply.Proofs.Node.Treasury
import StableSupply.Proofs.Source.Figures
import StableSupply.Proofs.Source.Monotone
import StableSupply.Proofs.Journal.Append
import StableSupply.Proofs.Manager.Residue
import StableSupply.Proofs.Journal.Window
import StableSupply.Proofs.Genesis.Rejection
import StableSupply.Proofs.Manager.Observation
import StableSupply.Proofs.Node.Saved
import StableSupply.Proofs.Word.Codecs
