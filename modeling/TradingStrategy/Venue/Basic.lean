import TradingStrategy.Venue.Call

/-!
Venues.

Owns:
- what a venue offers: placing a leg, cancelling an order, and its open orders for a symbol;
- requests under the time-out of an environment;
- what every venue can do with these three: the submission of a whole bracket, market orders, the cancellation of
  entries, and the query of open orders.

In a dry run no request is made, and orders are made up. If a leg of a bracket fails, the legs before it are cancelled
again, newest first, and the error tells which of them could not be.
-/

namespace TradingStrategy

/-- What a venue offers, as calls on its state. -/
structure Venue (σ : Type) where
  name : String
  place : OrderLeg → Call σ Order
  cancel : String → Call σ Unit
  openOrders : String → Call σ (List Order)

/-- How requests are made: not at all, or each under a time-out in milliseconds. -/
structure Environment where
  dryRun : Bool
  timeout : Nat
deriving Repr, DecidableEq

/-- The time-out where none is set. -/
def defaultTimeout : Nat := 5000

/-- The environment of a dry run. -/
def Environment.dry : Environment :=
  ⟨true, defaultTimeout⟩

/-- The made-up order for a leg at a position, counted from one. -/
def dryOrder (leg : OrderLeg) (position : Nat) : Order :=
  .ofLeg ("dry-" ++ leg.planId ++ "-" ++ toString position) leg .working

/-- The made-up orders for legs, from a position on. -/
def dryOrders (position : Nat) : List OrderLeg → List Order
  | [] => []
  | leg :: rest => dryOrder leg position :: dryOrders (position + 1) rest

/-- A cancellation that failed. -/
structure CancelFailure where
  id : String
  error : VenueError
deriving Repr, DecidableEq

/-- The outcome of several cancellations. -/
structure CancelReport where
  cancelled : List String
  failed : List CancelFailure
deriving Repr, DecidableEq

/-- Every cancellation has succeeded. -/
def CancelReport.isComplete (report : CancelReport) : Bool :=
  report.failed.isEmpty

/-- Runs a call under the time-out of the environment. -/
def Environment.request {σ α : Type} (environment : Environment) (operation : Operation) (call : Call σ α)
    (world : World σ) : Except VenueError α × World σ :=
  match call.within (world.clock + environment.timeout) world with
  | (some answer, after) => (answer, after)
  | (none, after) => (.error (.timedOut operation environment.timeout), after)

namespace Venue

variable {σ : Type}

def placeOne (venue : Venue σ) (environment : Environment) (leg : OrderLeg) (world : World σ) :
    Except VenueError Order × World σ :=
  environment.request .place (venue.place leg) world

/-- Cancels one order. -/
def cancelOne (venue : Venue σ) (environment : Environment) (id : String) (world : World σ) :
    Except VenueError Unit × World σ :=
  environment.request .cancel (venue.cancel id) world

/-- Cancels orders one after another. -/
def cancelAll (venue : Venue σ) (environment : Environment) : List String → World σ → CancelReport × World σ
  | [], world => (⟨[], []⟩, world)
  | id :: rest, world =>
      let (answer, world) := venue.cancelOne environment id world
      let (report, world) := venue.cancelAll environment rest world
      match answer with
      | .ok () => ({ report with cancelled := id :: report.cancelled }, world)
      | .error error => ({ report with failed := ⟨id, error⟩ :: report.failed }, world)

/-- Cancels accepted orders, newest first, and reports the error that made it necessary. If nothing was accepted, the
error stands for itself. -/
def rollBack (venue : Venue σ) (environment : Environment) (newestFirst : List Order) (cause : VenueError)
    (world : World σ) : VenueError × World σ :=
  if newestFirst.isEmpty then (cause, world)
  else
    let (report, world) := venue.cancelAll environment (newestFirst.map Order.id) world
    (.rolledBack cause report.cancelled (report.failed.map CancelFailure.id), world)

/-- Places legs one after another behind those that were accepted before; the first failure rolls all of them back. -/
def placeAll (venue : Venue σ) (environment : Environment) (accepted : List Order) :
    List OrderLeg → World σ → Except VenueError (List Order) × World σ
  | [], world => (.ok accepted.reverse, world)
  | leg :: rest, world =>
      match venue.placeOne environment leg world with
      | (.ok order, world) => venue.placeAll environment (order :: accepted) rest world
      | (.error error, world) =>
          let (error, world) := venue.rollBack environment accepted error world
          (.error error, world)

/-- Submits the bracket of a plan. -/
def submit (venue : Venue σ) (environment : Environment) (plan : ResolvedPlan) (world : World σ) :
    Except VenueError (List Order) × World σ :=
  match plan.bracket with
  | .error fault => (.error (.rejected (.plan fault)), world)
  | .ok legs =>
      if environment.dryRun then (.ok (dryOrders 1 legs), world)
      else venue.placeAll environment [] legs world

/-- The leg of a market order. -/
def marketLeg (symbol : String) (quantity : Float) (side : Side) : OrderLeg :=
  ⟨"market", symbol, side, quantity, .market, .entry, none, none⟩

/-- Submits a market order. -/
def submitMarket (venue : Venue σ) (environment : Environment) (symbol : String) (quantity : Float) (side : Side)
    (world : World σ) : Except VenueError Order × World σ :=
  let leg := marketLeg symbol quantity side
  if !isPositive quantity then (.error (.rejected (.quantity quantity)), world)
  else if environment.dryRun then (.ok (dryOrder leg 1), world)
  else venue.placeOne environment leg world

/-- The open entry orders for a symbol. -/
def openEntries (symbol : String) (orders : List Order) : List Order :=
  orders.filter fun order => order.symbol == symbol && order.isEntry && order.isOpen

/-- Cancels the open entry orders for a symbol. In a dry run all of them count as cancelled. -/
def cancelEntries (venue : Venue σ) (environment : Environment) (symbol : String) (orders : List Order)
    (world : World σ) : CancelReport × World σ :=
  let ids := (openEntries symbol orders).map Order.id
  if environment.dryRun then (⟨ids, []⟩, world)
  else venue.cancelAll environment ids world

/-- The open orders for a symbol. In a dry run there are none at the venue. -/
def queryOpen (venue : Venue σ) (environment : Environment) (symbol : String) (world : World σ) :
    Except VenueError (List Order) × World σ :=
  if environment.dryRun then (.ok [], world)
  else environment.request .openOrders (venue.openOrders symbol) world

end Venue

end TradingStrategy
