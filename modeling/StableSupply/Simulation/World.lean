import StableSupply.Genesis
import StableSupply.Scheduler
import StableSupply.Simulation.Faults
import StableSupply.Simulation.Script

/-! # Rehearsals

A world is a manager with its scheduler, an engine and a notifier beside it that work on the same
ledger and source, subscriptions, and kept copies of the ledger. A rehearsal is a list of steps,
each of which is answered. -/

namespace StableSupply.Simulation

/-- The two notifiers of a world: the separate engine's and the manager's. -/
inductive Hub
  | separate
  | manager
  deriving DecidableEq

/-- The channel of a notifier that a subscription is to. -/
inductive Topic
  | updates
  | adjustments
  deriving DecidableEq

/-- A subscriber's hold on a channel; without a receiver it is at an end. -/
structure Subscription where
  hub : Hub
  topic : Topic
  receiver : Option Nat

/-- A ledger with its manager and clock, a second notifier, and what is kept under a name. -/
structure World where
  schedule : Schedule FaultGate AnySource
  /-- The manager reaches the ledger past the faults. -/
  plain : Bool
  hub : Notifier
  subscriptions : Table String Subscription
  copies : Table String State

/-! ## Steps and answers -/

/-- What can be done to a world. -/
inductive Step
  | setBalance (account : Address) (amount : Word)
  | balance (account : Address)
  | credit (account : Address) (amount : Word)
  | debit (account : Address) (amount : Word)
  | setSlot (owner : Address) (key : Hash) (word : Except WordError Word)
  | slot (owner : Address) (key : Hash)
  | slotCount (owner : Address)
  | root
  | commit
  | checkpoint
  | revert (id : Nat)
  | discard (id : Nat)
  | dirty
  | clearDirty
  | accounts
  | copy (name : String)
  | restore (name : String)
  | faults (faults : Faults)
  | down (down : Bool)
  | journalAppend (account : Address) (record : HistoryRecord)
  | journalCount (account : Address)
  | journalQuery (account : Address) (max : UInt64)
  | journalRead (account : Address) (index : UInt64)
  | engineApply (decision : Decision) (treasury : Address)
  | publishUpdate (update : ValueUpdate)
  | publishAdjustment (adjustment : AppliedAdjustment)
  | closeHub
  | hubClosed
  | subscribe (id : String) (hub : Hub) (topic : Topic)
  /-- Reads a subscription; a pending one is told apart from an ended one only if `waits`. -/
  | receive (id : String) (waits : Bool)
  | unsubscribe (id : String)
  | subscriptionActive (id : String)
  | dropSubscription (id : String)
  | manage (operation : Manager.Operation)
  | phase
  | values
  | token
  | sourceStart
  | sourceStop
  | sourceQuery
  | sourceLastUpdate
  | sourceSetCurrent (value : Word)
  | sourceSetTarget (value : Word)
  | sourceDecide (supply price : Word) (volatility : UInt8)
  | sourceFeasible (decision : Decision) (treasury minimum : Word)
  | script (change : ScriptChange)
  | lastAsked
  | setClock (wall : Instant)
  | advance (ms : Nat)
  | clock
  | seedValueToken (token : ValueToken) (founder reserve : Address)
  | seedStableToken (token : StableToken) (treasury : Address) (now : UInt64)
  | seedStaking (staking : Staking)
  | genesis (accounts : Genesis.Accounts) (value : ValueToken) (stable : StableToken)
      (staking : Staking) (now : UInt64)
  | metrics

/-- Every failure that a step may answer. -/
inductive Failure
  | word (cause : WordError)
  | ledger (cause : LedgerError)
  | journal (cause : JournalError)
  | adjustment (cause : AdjustmentError)
  | source (cause : SourceError)
  | update (cause : UpdateError)
  | genesis (cause : GenesisError)

/-- What comes of a step. -/
inductive Answer
  | done
  | nothing
  | pending
  | flag (b : Bool)
  | count (n : Nat)
  | quantity (n : UInt64)
  | amount (w : Word)
  | amounts (first second : Word)
  | word (w : Word)
  | hash (h : Hash)
  | addresses (accounts : List Address)
  | balances (entries : List (Address × Word))
  | record (r : HistoryRecord)
  | records (rs : List HistoryRecord)
  | decision (d : Decision)
  | feasibility (f : Feasibility)
  | outcome (o : Outcome)
  | update (u : ValueUpdate)
  | adjustment (a : AppliedAdjustment)
  | report (r : UpdateReport)
  | phase (p : Phase)
  | values (current target : Word) (damping : Share)
  | token (t : StableToken)
  | instant (t : Instant)
  | asked (a : Asked)
  | genesis (r : Genesis.Report)
  | metrics (m : Metrics)
  | failed (cause : Failure)

namespace World

/-- A world in which nothing has happened, with an empty ledger. -/
def initial (source : AnySource) (settings : ManagerSettings) (hubCapacity : Nat) (plain : Bool) :
    World where
  schedule :=
    { manager := .initial settings ⟨.empty, .initial⟩ source
      worker := none
      clock := ⟨0, .ofUnix 1700000000 0⟩ }
  plain
  hub := .ofCapacity hubCapacity
  subscriptions := .empty
  copies := .empty

/-! ## Parts of a world -/

abbrev Program (ε α : Type) := Act World ε α

def desk (w : World) : Desk FaultGate AnySource := w.schedule.manager.desk

def ledger (w : World) : Ledger := w.desk.access.ledger

def source (w : World) : AnySource := w.desk.source

def now (w : World) : Instant := w.schedule.clock.now

def moment (w : World) : Moment := w.schedule.manager.moment w.now

def setDesk (desk : Desk FaultGate AnySource) (w : World) : World :=
  { w with schedule := { w.schedule with manager := { w.schedule.manager with desk } } }

def setLedger (ledger : Ledger) (w : World) : World :=
  w.setDesk { w.desk with access := { w.desk.access with ledger } }

def setSource (source : AnySource) (w : World) : World := w.setDesk { w.desk with source }

/-- Changes the gate. -/
def setGate (change : FaultGate → FaultGate) (w : World) : World :=
  w.setDesk { w.desk with access := { w.desk.access with gate := change w.desk.access.gate } }

def notifier (w : World) : Hub → Notifier
  | .separate => w.hub
  | .manager => w.desk.notifier

def setNotifier (notifier : Notifier) (w : World) : Hub → World
  | .separate => { w with hub := notifier }
  | .manager => w.setDesk { w.desk with notifier }

variable {ε α : Type}

/-- An action on the ledger behind the faults. -/
def onAccess (act : Act (Access FaultGate) ε α) : Program ε α :=
  act.on (fun w => w.desk.access) fun access w => w.setDesk { w.desk with access }

/-- An action on the desk with the separate notifier. -/
def onSeparateDesk (act : Act (Desk FaultGate AnySource) ε α) : Program ε α :=
  act.on (fun w => { w.desk with notifier := w.hub }) fun desk w =>
    { w.setDesk { desk with notifier := w.desk.notifier } with hub := desk.notifier }

/-- Runs an action of the source outside of any cycle. -/
def onSource (act : Act AnySource ε α) : Program ε α := act.on source setSource

/-- An action of the manager, which in a plain world passes the faults by. -/
def onSchedule (act : Act (Schedule FaultGate AnySource) ε α) : Program ε α := do
  modify fun w => w.setGate fun g => { g with direct := w.plain }
  let result ← (act.on World.schedule fun schedule w => { w with schedule }).attempt
  modify (·.setGate fun g => { g with direct := false })
  result

/-- The answer of an action, or its failure. -/
def answering (convert : ε → Failure) (answer : α → Answer) (act : Program ε α) (w : World) :
    Answer × World :=
  match act.apply w with
  | (.ok a, w) => (answer a, w)
  | (.error e, w) => (.failed (convert e), w)

/-! ## Subscriptions -/

/-- Reads the next event for a receiver of a notifier. -/
def receiveFrom (n : Notifier) (receiver : Nat) : Topic → Reading Answer × Notifier
  | .updates =>
    match n.updates.receive receiver with
    | (.event u, updates) => (.event (.update u), { n with updates })
    | (.pending, updates) => (.pending, { n with updates })
    | (.ended, updates) => (.ended, { n with updates })
  | .adjustments =>
    match n.adjustments.receive receiver with
    | (.event a, adjustments) => (.event (.adjustment a), { n with adjustments })
    | (.pending, adjustments) => (.pending, { n with adjustments })
    | (.ended, adjustments) => (.ended, { n with adjustments })

/-- Takes a subscription from its channel. -/
def cancel (s : Subscription) (w : World) : World :=
  match s.receiver with
  | none => w
  | some receiver =>
    let n := w.notifier s.hub
    match s.topic with
    | .updates => w.setNotifier { n with updates := n.updates.unsubscribe receiver } s.hub
    | .adjustments =>
      w.setNotifier { n with adjustments := n.adjustments.unsubscribe receiver } s.hub

/-- Drops the subscription of a name, if there is one. -/
def forget (id : String) (w : World) : World :=
  match w.subscriptions.find? id with
  | some s => { w.cancel s with subscriptions := w.subscriptions.erase id }
  | none => w

/-- Subscribes under a name, in place of the subscription that had it. -/
def subscribe (id : String) (hub : Hub) (topic : Topic) (w : World) : Answer × World :=
  let w := w.forget id
  let n := w.notifier hub
  let (receiver, n) : Option Nat × Notifier :=
    match topic with
    | .updates =>
      let (receiver, updates) := n.updates.subscribe
      (receiver, { n with updates })
    | .adjustments =>
      let (receiver, adjustments) := n.adjustments.subscribe
      (receiver, { n with adjustments })
  let w := w.setNotifier n hub
  (.flag receiver.isSome,
    { w with subscriptions := w.subscriptions.insert id ⟨hub, topic, receiver⟩ })

/-- The next event of a subscription, if one can be had without waiting. -/
def receive (id : String) (waits : Bool) (w : World) : Answer × World :=
  match w.subscriptions.find? id with
  | none => (.nothing, w)
  | some s =>
    match s.receiver with
    | none => (.nothing, w)
    | some receiver =>
      match receiveFrom (w.notifier s.hub) receiver s.topic with
      | (.event answer, n) => (answer, w.setNotifier n s.hub)
      | (.pending, n) => (if waits then .pending else .nothing, w.setNotifier n s.hub)
      | (.ended, n) =>
        let w := w.setNotifier n s.hub
        (.nothing,
          { w with subscriptions := w.subscriptions.insert id { s with receiver := none } })

/-- Ends the subscription of a name, which stays on record. -/
def unsubscribe (id : String) (w : World) : World :=
  match w.subscriptions.find? id with
  | none => w
  | some s =>
    let w := w.cancel s
    { w with subscriptions := w.subscriptions.insert id { s with receiver := none } }

def isActive (id : String) (w : World) : Bool :=
  match w.subscriptions.find? id with
  | some s => s.receiver.isSome
  | none => false

/-! ## Taking a step -/

/-- The answer of a manager, as the answer of a step. -/
def managed : Manager.Answer → Answer
  | .done => .done
  | .noReport => .nothing
  | .report r => .report r
  | .outcome o => .outcome o
  | .records rs => .records rs

/-- A step on the ledger itself. -/
def ledgerStep (step : Ledger → Except LedgerError Ledger) (w : World) : Answer × World :=
  match step w.ledger with
  | .ok l => (.done, w.setLedger l)
  | .error e => (.failed (.ledger e), w)

variable [Digest]

/-- Takes one step. -/
def take (w : World) : Step → Answer × World
  | .setBalance account amount => (.done, w.setLedger (w.ledger.setBalance account amount))
  | .balance account => (.amount (w.ledger.state.balance account), w)
  | .credit account amount => w.ledgerStep (·.credit account amount)
  | .debit account amount => w.ledgerStep (·.debit account amount)
  | .setSlot owner key word =>
    match word with
    | .ok word => (.done, w.setLedger (w.ledger.setSlot owner key word))
    | .error e => (.failed (.word e), w)
  | .slot owner key => (.word (w.ledger.state.slot owner key), w)
  | .slotCount owner => (.count (w.ledger.state.slotCount owner), w)
  | .root => (.hash w.ledger.state.root, w)
  | .commit => (.hash w.ledger.state.root, w.setLedger w.ledger.commit)
  | .checkpoint =>
    let (id, l) := w.ledger.checkpoint
    (.count id, w.setLedger l)
  | .revert id => w.ledgerStep (·.revert id)
  | .discard id => (.done, w.setLedger (w.ledger.discard id))
  | .dirty => (.addresses w.ledger.dirty.keys, w)
  | .clearDirty => (.done, w.setLedger w.ledger.clearDirty)
  | .accounts => (.balances w.ledger.state.balances.entries, w)
  | .copy name => (.done, { w with copies := w.copies.insert name w.ledger.state })
  | .restore name =>
    match w.copies.find? name with
    | some saved => (.done, w.setLedger (w.ledger.restore saved))
    | none => (.nothing, w)
  | .faults faults => (.done, w.setGate fun g => { g with faults })
  | .down down => (.done, w.setGate fun g => { g with down })
  | .journalAppend account record =>
    answering .journal .record (onAccess (Journal.append account record)) w
  | .journalCount account => answering .journal .quantity (onAccess (Journal.count account)) w
  | .journalQuery account max =>
    answering .journal .records (onAccess (Journal.query account max)) w
  | .journalRead account index =>
    answering .journal .record (onAccess (Journal.read account index)) w
  | .engineApply decision treasury =>
    answering .adjustment .outcome (onSeparateDesk (Engine.apply w.moment decision treasury)) w
  | .publishUpdate update =>
    let (reached, hub) := w.hub.publishUpdate update
    (.count reached, { w with hub })
  | .publishAdjustment adjustment =>
    let (reached, hub) := w.hub.publishAdjustment adjustment
    (.count reached, { w with hub })
  | .closeHub => (.done, { w with hub := w.hub.close })
  | .hubClosed => (.flag (decide w.hub.IsClosed), w)
  | .subscribe id hub topic => w.subscribe id hub topic
  | .receive id waits => w.receive id waits
  | .unsubscribe id => (.done, w.unsubscribe id)
  | .subscriptionActive id => (.flag (w.isActive id), w)
  | .dropSubscription id => (.flag (w.subscriptions.find? id).isSome, w.forget id)
  | .manage operation => answering .update managed (onSchedule (Schedule.perform operation)) w
  | .phase => (.phase w.schedule.manager.phase, w)
  | .values =>
    (.values (DecisionSource.currentValue w.source) (DecisionSource.targetValue w.source)
      (DecisionSource.damping w.source), w)
  | .token => (.token (DecisionSource.token w.source), w)
  | .sourceStart => answering .source (fun _ => .done) (onSource DecisionSource.start) w
  | .sourceStop => (.done, w.setSource (DecisionSource.stop w.source))
  | .sourceQuery =>
    let latency := DecisionSource.latency w.source
    let (_, w) := (onSchedule (ε := Empty) (modify (·.wait latency))).apply w
    answering .source (fun _ => .done) (onSource (DecisionSource.query w.moment)) w
  | .sourceLastUpdate =>
    let (answer, source) := DecisionSource.lastUpdate w.source
    (answer.elim .nothing .instant, w.setSource source)
  | .sourceSetCurrent value =>
    (.done, w.setSource (DecisionSource.setCurrentValue w.moment value w.source))
  | .sourceSetTarget value =>
    match w.source with
    | .peg s => (.done, w.setSource (.peg (PegBand.setTarget w.now value s)))
    | .scripted _ => (.nothing, w)
  | .sourceDecide supply price volatility =>
    answering .source .decision
      (onSource (DecisionSource.decide w.moment supply price volatility)) w
  | .sourceFeasible decision treasury minimum =>
    let (answer, source) :=
      DecisionSource.feasible w.moment decision treasury minimum w.source
    (.feasibility answer, w.setSource source)
  | .script change =>
    match w.source with
    | .scripted s => (.done, w.setSource (.scripted (s.change change)))
    | .peg _ => (.nothing, w)
  | .lastAsked =>
    match w.source with
    | .scripted s => (s.lastAsked.elim .nothing .asked, w)
    | .peg _ => (.nothing, w)
  | .setClock wall =>
    (.done, { w with schedule := { w.schedule with clock := w.schedule.clock.setWall wall } })
  | .advance ms =>
    let (_, w) := (onSchedule (ε := Empty) (modify (·.advance ms))).apply w
    (.instant w.now, w)
  | .clock => (.instant w.now, w)
  | .seedValueToken token founder reserve =>
    answering .genesis (fun (a, b) => .amounts a b)
      (onAccess (Genesis.seedValueToken token founder reserve)) w
  | .seedStableToken token treasury now =>
    answering .genesis (fun _ => .done) (onAccess (Genesis.seedStableToken token treasury now)) w
  | .seedStaking staking =>
    answering .genesis (fun _ => .done) (onAccess (Genesis.seedStaking staking)) w
  | .genesis accounts value stable staking now =>
    answering .genesis .genesis (onAccess (Genesis.run accounts value stable staking now)) w
  | .metrics => (.metrics w.desk.metrics, w)

/-- The answers to a list of steps, in order. -/
def rehearse : World → List Step → List Answer
  | _, [] => []
  | w, step :: rest =>
    let (answer, w) := w.take step
    answer :: rehearse w rest

end World

end StableSupply.Simulation
