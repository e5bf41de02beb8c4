import TradingStrategy.Venue.Basic

/-!
The paper venue.

Owns: a venue that keeps its orders in a book of its own. Its orders are numbered in the order of their acceptance, so
the same requests lead to the same ids. A script makes it reject, delay or fail requests.
-/

namespace TradingStrategy

/-- How the paper venue treats requests. Placements are counted from one, whether they are accepted or not. -/
structure PaperScript where
  /-- The state of an order when it is accepted. -/
  accepted : OrderStatus
  /-- The placements that are rejected. -/
  rejectedPlacements : List Nat
  /-- Every cancellation fails. -/
  failingCancels : Bool
  /-- The pause in front of every request, in milliseconds. -/
  latency : Nat
  /-- Further pauses of single placements; the last one for a placement counts. -/
  slowPlacements : List (Nat × Nat)
  /-- A further pause of every cancellation. -/
  cancelLatency : Nat
deriving Repr, DecidableEq

/-- Orders work at once, and nothing fails or takes time. -/
def PaperScript.plain : PaperScript :=
  ⟨.working, [], false, 0, [], 0⟩

/-- The further pause of a placement. -/
def PaperScript.placementPause (script : PaperScript) (placement : Nat) : Nat :=
  ((script.slowPlacements.reverse.find? fun slow => slow.1 == placement).map Prod.snd).getD 0

/-- The book of the paper venue: the number of placements so far and the orders, oldest first. -/
structure PaperBook where
  placements : Nat
  orders : List Order
deriving Repr, DecidableEq

namespace PaperBook

/-- A book without orders. -/
def empty : PaperBook :=
  ⟨0, []⟩

/-- The id of an order at a position, counted from one. -/
def orderId (position : Nat) : String :=
  "paper-" ++ toString position

/-- The id of the next order. -/
def nextId (book : PaperBook) : String :=
  orderId (book.orders.length + 1)

def order? (book : PaperBook) (id : String) : Option Order :=
  book.orders.find? fun order => order.id == id

/-- Changes the order with an id. -/
def change (book : PaperBook) (id : String) (update : Order → Order) : PaperBook :=
  { book with orders := book.orders.map fun order => if order.id = id then update order else order }

/-- Counts a placement. -/
def count (book : PaperBook) : PaperBook :=
  { book with placements := book.placements + 1 }

/-- Puts an order behind the others. -/
def add (book : PaperBook) (order : Order) : PaperBook :=
  { book with orders := book.orders ++ [order] }

/-- Fills an order at a price, whatever state it is in. -/
def fill (book : PaperBook) (id : String) (price : Float) : Except VenueError PaperBook :=
  match book.order? id with
  | none => .error (.rejected (.unknownOrder id))
  | some _ => .ok (book.change id fun order =>
      { order with status := .filled, filledQuantity := some order.leg.quantity, filledPrice := some price })

/-- The orders for a symbol that are open or live. -/
def openOrders (book : PaperBook) (symbol : String) : List Order :=
  book.orders.filter fun order => order.symbol == symbol && (order.isOpen || order.isLive)

end PaperBook

namespace PaperScript

/-- Why a placement is rejected. -/
def rejection? (script : PaperScript) (placement : Nat) (leg : OrderLeg) : Option Rejection :=
  if placement ∈ script.rejectedPlacements then
    some (.other ("scripted rejection of placement " ++ toString placement))
  else if !isPositive leg.quantity then some (.quantity leg.quantity)
  else none

/-- The answer to a placement. -/
def accept (script : PaperScript) (placement : Nat) (leg : OrderLeg) (book : PaperBook) : Except VenueError Order :=
  match script.rejection? placement leg with
  | some reason => .error (.rejected reason)
  | none => .ok (.ofLeg book.nextId leg script.accepted)

def afterPlacement (script : PaperScript) (placement : Nat) (leg : OrderLeg) (book : PaperBook) : PaperBook :=
  match script.accept placement leg book with
  | .ok order => book.add order
  | .error _ => book

/-- Why an order is not cancelled. -/
def cancelError? (script : PaperScript) (id : String) (book : PaperBook) : Option VenueError :=
  if script.failingCancels then some (.transport ("scripted cancel failure for " ++ id))
  else match book.order? id with
    | none => some (.rejected (.unknownOrder id))
    | some order => if order.isOpen then none else some (.rejected (.settled id order.status))

def afterCancel (script : PaperScript) (id : String) (book : PaperBook) : PaperBook :=
  match script.cancelError? id book with
  | some _ => book
  | none => book.change id fun order => { order with status := .cancelled }

/-- Placing a leg: the placement is counted before its own pause. -/
def place (script : PaperScript) (leg : OrderLeg) : Call PaperBook Order :=
  .pause script.latency <|
    .step (fun _ book => book.count) fun _ before =>
      let placement := before.placements + 1
      .pause (script.placementPause placement) <|
        .step (fun _ book => script.afterPlacement placement leg book) fun _ book =>
          .done (script.accept placement leg book)

/-- Cancelling an order. -/
def cancel (script : PaperScript) (id : String) : Call PaperBook Unit :=
  .pause script.latency <| .pause script.cancelLatency <|
    .step (fun _ book => script.afterCancel id book) fun _ book =>
      .done (match script.cancelError? id book with
        | some error => .error error
        | none => .ok ())

/-- Asking for open orders. -/
def openOrders (script : PaperScript) (symbol : String) : Call PaperBook (List Order) :=
  .pause script.latency <| .step (fun _ book => book) fun _ book => .done (.ok (book.openOrders symbol))

def venue (script : PaperScript) : Venue PaperBook :=
  ⟨"paper", script.place, script.cancel, script.openOrders⟩

end PaperScript

end TradingStrategy
