import StableSupply.Genesis
import StableSupply.Node.Config
import StableSupply.Scheduler

/-! # Starting from genesis

A node keeps its ledger in memory. It runs genesis on an empty one and puts a manager on top of it.
-/

namespace StableSupply

/-- Why a ledger is not set up. -/
inductive BootstrapError
  | config (cause : ConfigError)
  | genesis (cause : GenesisError)
  deriving DecidableEq

def BootstrapError.message : BootstrapError → String
  | config cause => cause.message
  | genesis cause => cause.message

/-- A committed ledger and what genesis did to it. -/
structure Bootstrap where
  ledger : Ledger
  report : Genesis.Report

namespace Bootstrap

variable [Digest]

/-- Runs genesis for the accounts of a configuration, at its time or else at `now`. -/
def run (c : Config) (now : UInt64) : Except BootstrapError Bootstrap := do
  let founder ← c.founder.mapError .config
  let reserve ← c.reserve.mapError .config
  let treasury ← c.treasury.mapError .config
  let seeding := Genesis.run (σ := OpenGate) ⟨founder, reserve, treasury⟩ .default .default .default
    (c.genesis.timestamp.getD now)
  match seeding.apply ⟨.empty, .mk⟩ with
  | (.ok report, access) => return ⟨access.ledger.commit, report⟩
  | (.error e, _) => throw (.genesis e)

/-- The manager that works on the ledger, before it is started. -/
def schedule (c : Config) (settings : ManagerSettings) (b : Bootstrap) (origin : Instant) :
    Schedule OpenGate PegBand.State where
  manager := .initial settings ⟨b.ledger, .mk⟩ (.initial (c.pegBand .default))
  worker := none
  clock := ⟨0, origin⟩

end Bootstrap

end StableSupply
