import TradingStrategy.Order.Bracket
import TradingStrategy.Text.Quoted

/-!
Why a venue does not do what it is asked.

Owns: the causes of rejected, timed-out and failed requests, the report of a submission that was rolled back, and their
wording.
-/

namespace TradingStrategy

/-- The written form of a duration in milliseconds: whole seconds and a fraction without trailing zeros, and below one
second the milliseconds. -/
def durationText (milliseconds : Nat) : String :=
  let seconds := milliseconds / 1000
  let rest := milliseconds % 1000
  if milliseconds = 0 then "0ns"
  else if seconds = 0 then toString rest ++ "ms"
  else if rest = 0 then toString seconds ++ "s"
  else
    let places := (Nat.toDigits 10 (1000 + rest)).drop 1
    let shown := (places.reverse.dropWhile (· = '0')).reverse
    toString seconds ++ "." ++ String.ofList shown ++ "s"

/-- The requests that a venue answers. -/
inductive Operation where
  | place | cancel | openOrders
deriving Repr, DecidableEq

/-- The name of a request in messages. -/
def Operation.name : Operation → String
  | place => "place_order"
  | cancel => "cancel_order"
  | openOrders => "open_orders"

/-- Why a request is rejected. -/
inductive Rejection where
  /-- The plan has no bracket. -/
  | plan (fault : PlanFault)
  | quantity (value : Float)
  | unknownOrder (id : String)
  /-- The order can no longer be cancelled. -/
  | settled (id : String) (status : OrderStatus)
  /-- The venue gives reasons of its own. -/
  | other (reason : String)
deriving Repr, DecidableEq

def Rejection.message : Rejection → String
  | plan fault => fault.message
  | quantity value => quantityMessage value
  | unknownOrder id => "unknown order " ++ id
  | settled id status => "order " ++ id ++ " is " ++ status.title
  | other reason => reason

/-- Why a venue does not do what it is asked. -/
inductive VenueError where
  | rejected (reason : Rejection)
  | timedOut (operation : Operation) (milliseconds : Nat)
  | transport (reason : String)
  /-- A submission failed. Of the legs that had been accepted, some were cancelled again and some could not be. -/
  | rolledBack (cause : VenueError) (cancelled failed : List String)
deriving Repr, DecidableEq

def VenueError.message : VenueError → String
  | rejected reason => "order rejected: " ++ reason.message
  | timedOut operation milliseconds => operation.name ++ " timed out after " ++ durationText milliseconds
  | transport reason => "broker transport error: " ++ reason
  | rolledBack cause cancelled failed =>
      "submission failed (" ++ cause.message ++ "); rolled back " ++ Text.quotedList cancelled ++
        ", failed to cancel " ++ Text.quotedList failed

end TradingStrategy
