/-
# `TradePlatform.OrderBook` — what a paper OMS does, whatever keeps its state

The calls of an OMS, and the abstract machine both stores are compared with: a
book gives the order each intent id stands for, and `Effect` says all that one
call may do to a book.  The SQLite store keeps the book as rows, the PostgreSQL
store rebuilds it from events; an invariant of single orders is proved here once,
against `Effect`, and holds of both.
-/
import TradePlatform.PaperExecution
import TradePlatform.Lib.Run

namespace TradePlatform

open OrderStatus

/-- The mutating calls of `SQLitePaperOms` and `PostgresPaperOms`.  `occurredAt` is
the timestamp of a fill after `occurred_at or utc_now()`. -/
inductive OmsCall where
  | create (order : PaperOrder)
  | transition (intentId : UUID) (nextStatus : OrderStatus) (actor : String)
  | ingestFill (externalFillId : String) (intentId : UUID) (quantity price : Decimal.Numeral)
      (occurredAt : DateTime)
  | cancel (intentId : UUID) (actor : String)
  | amend (intentId : UUID) (quantity limitPrice : Decimal) (actor : String)
deriving DecidableEq

def OmsCall.progressToAcknowledged (id : UUID) : List OmsCall :=
  [riskPending, approved, submissionPending, submitted, acknowledged].map
    fun st => .transition id st "system"

abbrev Answer (σ : Type) := Except Exn PaperOrder × σ

def commit {σ : Type} (s : σ) : Except Exn (PaperOrder × σ) → Answer σ
  | .ok (order, s') => (.ok order, s')
  | .error e => (.error e, s)

/-- The order each intent id stands for: what `get` returns. -/
abbrev Book := UUID → Option PaperOrder

/-- All that one call may do to a book.  The order a `create` stores is new,
proposed and without an average price; its quantities are the store's business. -/
inductive Effect (c : Decimal.Context) (book : Book) : OmsCall → Book → Prop
  | none {call : OmsCall} : Effect c book call book
  | create {order stored : PaperOrder} (fresh : book order.intentId = none)
      (proposed : stored.status = proposed) (average : stored.averageFillPrice = none)
      (filled : stored.filledQuantity = 0 ∨ stored.filledQuantity = order.filledQuantity) :
      Effect c book (.create order) (Function.update book order.intentId (some stored))
  | transition {id : UUID} {st : OrderStatus} {actor : String} {o o' : PaperOrder}
      (row : book id = some o) (ok : o.transition st = .ok o') :
      Effect c book (.transition id st actor) (Function.update book id (some o'))
  | fill {ext : String} {id : UUID} {q p : Decimal.Numeral} {at_ : DateTime} {o o' : PaperOrder}
      (row : book id = some o) (ok : o.fill c q.value p.value = .ok o') :
      Effect c book (.ingestFill ext id q p at_) (Function.update book id (some o'))
  | cancel {id : UUID} {actor : String} {o o₁ o₂ : PaperOrder} (row : book id = some o)
      (pending : o.transition cancelPending = .ok o₁) (done : o₁.transition cancelled = .ok o₂) :
      Effect c book (.cancel id actor) (Function.update book id (some o₂))
  | amend {id : UUID} {q p : Decimal} {actor : String} {o : PaperOrder} (row : book id = some o)
      (may : o.MayAmend q p) :
      Effect c book (.amend id q p actor) (Function.update book id (some (o.withTerms q p)))

end TradePlatform
