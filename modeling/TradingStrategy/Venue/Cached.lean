import TradingStrategy.Venue.Basic

/-!
Cached open orders.

Owns: a venue that remembers the open orders of another one for a short time. A placement forgets what is remembered for
its symbol, a cancellation everything, because an id does not tell its symbol.
-/

namespace TradingStrategy

/-- What is remembered for a symbol, and when it was fetched. -/
structure CacheEntry where
  symbol : String
  fetched : Nat
  orders : List Order
deriving Repr, DecidableEq

/-- The state of a venue behind a cache. -/
structure Cached (σ : Type) where
  inner : σ
  entries : List CacheEntry
deriving Repr, DecidableEq

namespace Cached

variable {σ α : Type}

/-- A venue of which nothing is remembered. -/
def ofInner (inner : σ) : Cached σ :=
  ⟨inner, []⟩

/-- Forgets what is remembered for a symbol. -/
def forget (symbol : String) (state : Cached σ) : Cached σ :=
  { state with entries := state.entries.filter fun entry => entry.symbol != symbol }

/-- Forgets everything. -/
def forgetAll (state : Cached σ) : Cached σ :=
  { state with entries := [] }

/-- Remembers the open orders for a symbol. -/
def remember (symbol : String) (fetched : Nat) (orders : List Order) (state : Cached σ) : Cached σ :=
  let state := state.forget symbol
  { state with entries := ⟨symbol, fetched, orders⟩ :: state.entries }

/-- The open orders that are remembered for a symbol and are not too old. -/
def remembered? (ttl clock : Nat) (symbol : String) (state : Cached σ) : Option (List Order) :=
  match state.entries.find? fun entry => entry.symbol == symbol with
  | some entry => if clock - entry.fetched < ttl then some entry.orders else none
  | none => none

/-- A call on the venue behind the cache. -/
def behind (call : Call σ α) : Call (Cached σ) α :=
  call.onPart inner fun inner state => { state with inner := inner }

end Cached

namespace Venue

variable {σ : Type}

/-- The venue behind a cache whose answers are good for `ttl` milliseconds. -/
def cached (venue : Venue σ) (ttl : Nat) : Venue (Cached σ) where
  name := venue.name
  place leg := .step (fun _ state => state.forget leg.symbol) fun _ _ => Cached.behind (venue.place leg)
  cancel id := .step (fun _ state => state.forgetAll) fun _ _ => Cached.behind (venue.cancel id)
  openOrders symbol := .step (fun _ state => state) fun clock state =>
    match state.remembered? ttl clock symbol with
    | some orders => .done (.ok orders)
    | none => (Cached.behind (venue.openOrders symbol)).andThen fun orders =>
        .step (fun clock state => state.remember symbol clock orders) fun _ _ => .done (.ok orders)

end Venue

end TradingStrategy
