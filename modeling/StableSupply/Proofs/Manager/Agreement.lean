import StableSupply.Proofs.Genesis
import StableSupply.Proofs.Manager.Growth
import StableSupply.Proofs.Manager.Run
import StableSupply.Proofs.Metrics
import StableSupply.Simulation.Script

/-! # The history, the events and the counters agree

Where reversals are served, the adjustments handed to their subscribers in a run are those whose
records the history has grown by, and the counters have moved by the number of records of each kind,
of calls of the engine and of cycles. Within a cycle one update is handed on if its values were
recorded and none otherwise, and no adjustment comes before it (`Manager.run_agrees`). -/

namespace StableSupply

open Engine Gate

section Runs

variable {σ τ : Type} [Digest] [Gate σ]

/-! ## What a passage leaves -/

namespace Passage

variable {m m' : Manager σ τ} {noted : List Occurrence}

theorem grows (h : Passage m noted m') (hserves : ServesReverts σ) {token : StableToken}
    (hsep : Digest.Separates token) :
    Journal.Grows m.state ((noted.filterMap Occurrence.adjustment?).map (·.record)) m'.state :=
  (Journal.Grows.rest m.state).course hserves hsep h.course

/-- The counters of attempts move with the calls of the engine. -/
theorem adjustmentTotal (h : Passage m noted m') : m'.desk.metrics.adjustmentTotal =
    m.desk.metrics.adjustmentTotal + (noted.filterMap Occurrence.attempt?).length := by
  rw [Metrics.adjustmentTotal_eq, Metrics.adjustmentTotal_eq, h.attempts]

/-- The counters of cycles move with the cycles. -/
theorem cycleTotal (h : Passage m noted m') :
    m'.desk.metrics.cycleTotal = m.desk.metrics.cycleTotal + noted.count .cycle := by
  obtain ⟨counted, hlength, hcycles⟩ := h.cycles
  rw [Metrics.cycleTotal_eq, Metrics.cycleTotal_eq, hcycles, List.length_append, hlength,
    Nat.add_comm]

end Passage

/-! ## Agreement -/

namespace Manager

variable [DecisionSource τ]

/-- What a run has handed on and counted agrees with the history that it leaves: the adjustments
that were handed on are those whose records were appended, in their order, and each kind's counter
of applied adjustments has moved by the records of the kind, the counters of adjustments in all by
the calls of the engine, and those of cycles by the cycles.

A cycle is counted once, under its status. It hands on the update that was prepared, if one was,
once and ahead of an adjustment, and the slots then hold what the update tells. -/
theorem run_agrees (hserves : ServesReverts σ) (m : Manager σ τ) :
    (∀ events : List (Event σ τ),
      let m' := (m.run events).2
      let noted := m'.notedSince m
      let records := (noted.filterMap Occurrence.adjustment?).map (·.record)
      (∀ token, Digest.Separates token → Journal.Grows m.state records m'.state) ∧
      (∀ kind, m'.desk.metrics.adjustmentCount kind .applied =
        m.desk.metrics.adjustmentCount kind .applied + records.countP (·.kind = kind)) ∧
      m'.desk.metrics.adjustmentTotal =
        m.desk.metrics.adjustmentTotal + (noted.filterMap Occurrence.attempt?).length ∧
      m'.desk.metrics.cycleTotal = m.desk.metrics.cycleTotal + noted.count .cycle) ∧
    ∀ now,
      let m' := ((cycle now).apply m).2
      let noted := m'.notedSince m
      let prepared := (prepare now).apply m.begun
      noted.count .cycle = 1 ∧
      (∀ status, m'.desk.metrics.cycleCount status = m.desk.metrics.cycleCount status +
        if cycleStatus ((cycle now).apply m).1 = status then 1 else 0) ∧
      noted.filterMap Occurrence.update? = prepared.1.toOption.toList ∧
      (∀ before a after, noted = before ++ .adjustment a :: after → ∃ u, .update u ∈ before) ∧
      ∀ u, prepared.1 = .ok u → u.timestamp = now.unixSeconds ∧
        ((Slot.observed.map Slot.key).Nodup → u.HeldIn prepared.2.state) := by
  refine ⟨fun events => ?_, fun now => ?_⟩
  · obtain ⟨noted, hpassage, -⟩ := m.run_passage events
    dsimp only
    rw [hpassage.notedSince]
    refine ⟨fun token => hpassage.grows hserves, ?_, hpassage.adjustmentTotal, hpassage.cycleTotal⟩
    intro kind
    rw [hpassage.applied, List.countP_map]
    rfl
  · obtain ⟨noted, hpassage, hunfolds⟩ := cycle_unfolds now m
    dsimp only
    rw [hpassage.notedSince]
    refine ⟨?_, ?_, hunfolds.updates, ?_, ?_⟩
    · rw [List.count_cons_self, hunfolds.count_cycle]
    · intro status
      rw [Metrics.cycleCount, cycle_counted, List.count_cons]
      simp only [beq_iff_eq, Metrics.cycleCount]
    · intro before a after hnoted
      cases before with
      | nil => cases hnoted
      | cons first before =>
        obtain ⟨u, hu⟩ := hunfolds.update_before (List.cons.inj hnoted).2
        exact ⟨u, List.mem_cons_of_mem _ hu⟩
    · intro u hu
      obtain ⟨htime, s, hstate⟩ := (prepare_writes now m.begun).of_ok (Prod.ext hu rfl)
      refine ⟨htime, fun hkeys => ?_⟩
      rw [hstate]
      exact u.heldIn_setSlots hkeys s

end Manager

end Runs

/-! ## A run that agrees -/

namespace Manager

open Simulation

/-- A manager on the ledger of `Genesis.sample` whose source always decides on the same contraction.
Too few writes are served for two. -/
def strained : Manager ScarceGate Script :=
  .initial .default ⟨Genesis.sampleAccess.ledger, ⟨15⟩⟩
    { Script.initial with
      decision := ⟨.contraction, .ofWord (units 5), .ofWord (units 7), 0, .ofWord (units 999995), 0⟩ }

/-- Two cycles, each with the same decision. -/
def strainedEvents : List (Event ScarceGate Script) :=
  [.operation ⟨0⟩ .process, .operation ⟨0⟩ .process]

def strainedEnd : Manager ScarceGate Script :=
  (@run _ _ Radix.digest _ _ strained strainedEvents).2

/-- Of the adjustments handed on. -/
def strainedRecords : List HistoryRecord :=
  ((strainedEnd.notedSince strained).filterMap Occurrence.adjustment?).map (·.record)

/-- What the first cycle prepares. -/
def strainedUpdate : Except UpdateError ValueUpdate × Manager ScarceGate Script :=
  (@prepare _ _ Radix.digest _ _ ⟨0⟩).apply strained.begun

/-- Both cycles hand on an update and call the engine, and one adjustment is applied. -/
theorem run_agrees_strained :
    strainedRecords.map (·.kind) = [.contraction] ∧
    ((strainedEnd.notedSince strained).filterMap Occurrence.update?).length = 2 ∧
    @Journal.Grows Radix.digest strained.state strainedRecords strainedEnd.state ∧
    strainedEnd.desk.metrics.adjustmentCount .contraction .applied =
      strained.desk.metrics.adjustmentCount .contraction .applied + 1 ∧
    strainedEnd.desk.metrics.adjustmentTotal = strained.desk.metrics.adjustmentTotal + 2 ∧
    strainedEnd.desk.metrics.cycleTotal = strained.desk.metrics.cycleTotal + 2 ∧
    ∃ u, strainedUpdate.1 = .ok u ∧ @ValueUpdate.HeldIn Radix.digest u strainedUpdate.2.state := by
  have hserves : ServesReverts ScarceGate := fun _ _ => rfl
  have hkinds : strainedRecords.map (·.kind) = [.contraction] := by decide +kernel
  have hcount : strainedRecords.countP (·.kind = .contraction) = 1 := by decide +kernel
  have hupdates : ((strainedEnd.notedSince strained).filterMap Occurrence.update?).length = 2 := by
    decide +kernel
  have hattempts :
      ((strainedEnd.notedSince strained).filterMap Occurrence.attempt?).length = 2 := by
    decide +kernel
  have hcycles : (strainedEnd.notedSince strained).count .cycle = 2 := by decide +kernel
  have hkeys : (Slot.observed.map (@Slot.key Radix.digest)).Nodup := by decide +kernel
  obtain ⟨hrun, hcycle⟩ := @run_agrees _ _ Radix.digest _ _ hserves strained
  obtain ⟨hgrows, happlied, hadjustments, hcycleTotal⟩ := hrun strainedEvents
  refine ⟨hkinds, hupdates, ?_, ?_, ?_, ?_, ?_⟩
  · unfold strainedRecords strainedEnd
    exact hgrows _ Radix.separates
  · rw [← hcount]
    unfold strainedRecords strainedEnd
    exact happlied .contraction
  · rw [← hattempts]
    unfold strainedEnd
    exact hadjustments
  · rw [← hcycles]
    unfold strainedEnd
    exact hcycleTotal
  · have hprepared : strainedUpdate.1.isOk = true := by decide +kernel
    cases hupdate : strainedUpdate.1 with
    | error e =>
      rw [hupdate] at hprepared
      cases hprepared
    | ok u =>
      refine ⟨u, rfl, ?_⟩
      obtain ⟨-, -, -, -, hheld⟩ := hcycle ⟨0⟩
      exact (hheld u hupdate).2 hkeys

end Manager

end StableSupply
