import StableSupply.Proofs.Genesis.Seeders
import StableSupply.Proofs.Slot.Radix

/-! # A seeded ledger

`Seeded` collects what the operations of a manager rely on where genesis has succeeded: the supply
starts at its initial value, no lower than the minimum, and the history is empty. -/

namespace StableSupply

/-- A ledger's state as genesis leaves it, as far as the supply and its history go. -/
structure Seeded [Digest] (token : StableToken) (s : State) : Prop where
  currentSupply : Slot.currentSupply.word s = token.initialSupply
  minimumSupply : Slot.minimumSupply.word s = token.minimumSupply
  historyCount : Slot.historyCount.word s = .zero
  floor : token.minimumSupply ≤ token.initialSupply

namespace Genesis

/-- Where genesis succeeds, what it leaves is as the runs of a manager need it. -/
theorem seeded_of_run {σ : Type} [Digest] [Gate σ] {stable : StableToken}
    (hsep : Digest.Separates stable) {accounts : Accounts} {value : ValueToken}
    {staking : Staking} {now : UInt64} {before after : Access σ} {report : Report}
    (h : (run accounts value stable staking now).apply before = (.ok report, after)) :
    Seeded stable after.ledger.state := by
  obtain ⟨hadmissible, ⟨funded, parameters, -, hencodes, hstate⟩, -⟩ :=
    (run_ensures accounts value stable staking now).of_ok h
  rw [hstate]
  refine ⟨?_, ?_, ?_, hadmissible.stable.supply⟩
  · exact hencodes.word_eq hsep funded _ (.amount stable.initialSupply)
      (by simp [settings, stableSettings, tokenSettings]) rfl
  · exact hencodes.word_eq hsep funded _ (.amount stable.minimumSupply)
      (by simp [settings, stableSettings, tokenSettings]) rfl
  · exact hencodes.word_eq hsep funded _ (.number 0)
      (by simp [settings, stableSettings, tokenSettings]) rfl

/-! ## A successful genesis -/

def sampleAccounts : Accounts := ⟨⟨1, by decide⟩, ⟨2, by decide⟩, ⟨3, by decide⟩⟩

/-- Genesis on an empty ledger, for three accounts and the token of `Radix.separates`. -/
def sample : Act (Access OpenGate) GenesisError Report :=
  @run _ Radix.digest _ sampleAccounts .default Radix.token .default 0

/-- The ledger it leaves. -/
def sampleAccess : Access OpenGate := (sample.apply ⟨.empty, {}⟩).2

/-- What genesis reports of the sample. -/
def sampleReport : Report where
  founder := sampleAccounts.founder
  founderBalance := units 12600000
  reserve := sampleAccounts.reserve
  reserveBalance := units 8400000
  treasury := sampleAccounts.treasury
  stableSupply := units 1000000
  minimumStableSupply := units 1
  genesisTime := 0

theorem sample_apply : sample.apply ⟨.empty, {}⟩ = (.ok sampleReport, sampleAccess) := by
  have hreport : (sample.apply ⟨.empty, {}⟩).1 = .ok sampleReport := by decide +kernel
  rw [← hreport, sampleAccess]

end Genesis

end StableSupply
