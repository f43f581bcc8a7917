/-
# `TradePlatform.BrokerCancellation` — what a consumed cancellation leaves behind

A broker reports `ORDER_CANCELLED` once; after its receipt no later event repairs the
order.  A run remembers the confirmations it consumed, each with the status it found,
and the question is whether their orders are closed in every later state.  The branch
of both stores acts on working orders only, so an order that an interrupted `cancel`
left `CANCEL_PENDING` stays there.
-/
import TradePlatform.BrokerDeliveries

namespace TradePlatform

open OrderStatus

def OrderStatus.Terminal (st : OrderStatus) : Prop := transitions st = []

instance (st : OrderStatus) : Decidable st.Terminal :=
  inferInstanceAs (Decidable (transitions st = []))

/-- An OMS, with the intents whose `ORDER_CANCELLED` it consumed and the status each
order had then. -/
structure Confirming (τ : Type) where
  stores : τ
  confirmed : List (UUID × OrderStatus)

namespace Confirming

variable {c : Decimal.Context} {τ δ : Type} (M : FedOms c τ δ) (σ : Confirming τ)

def start : Confirming τ := ⟨M.empty, []⟩

def found (id : UUID) : List (UUID × OrderStatus) :=
  ((M.book σ.stores id).map fun order => (id, order.status)).toList

def step : FedAction δ → Confirming τ
  | .call a => ⟨M.call σ.stores a, σ.confirmed⟩
  | .deliver d event =>
      let (answer, stores) := M.deliver σ.stores d event
      ⟨stores, if event.eventType = "ORDER_CANCELLED" ∧ answer = .ok true
        then σ.confirmed ++ σ.found M event.clientIntentId else σ.confirmed⟩

/-- Every confirmed order is `CANCELLED`, or has the terminal status it already had. -/
def Closed : Prop :=
  ∀ e ∈ σ.confirmed, ∃ order, M.book σ.stores e.1 = some order ∧
    (order.status = cancelled ∨ e.2.Terminal ∧ order.status = e.2)

def ClosesOrder : FedAction δ → Prop
  | .call _ => True
  | .deliver d event => event.eventType = "ORDER_CANCELLED" →
      (M.deliver σ.stores d event).1 = .ok true →
      ∀ order, M.book σ.stores event.clientIntentId = some order →
        order.Working ∨ order.status.Terminal

variable {M σ} {stores : τ}

theorem Closed.moves (h : σ.Closed M) (hm : Book.Moves c (M.book σ.stores) (M.book stores)) :
    Closed M ⟨stores, σ.confirmed⟩ := by
  intro e he
  obtain ⟨o, row, hst⟩ := h e he
  obtain ⟨o', row', hlater⟩ := Book.Moves.later row hm
  have hterm : o.status.Terminal := by
    rcases hst with hst | ⟨ht, hst⟩
    · rw [hst]
      rfl
    · rw [hst]
      exact ht
  have hsame : o'.status = o.status := hlater.closed hterm
  exact ⟨o', row', hsame ▸ hst⟩

theorem step_closed_iff (h : σ.Closed M) (a : FedAction δ) :
    (σ.step M a).Closed M ↔ σ.ClosesOrder M a := by
  cases a with
  | call a => exact iff_of_true (h.moves (M.call_moves σ.stores a)) trivial
  | deliver d event =>
      have hmoves := M.deliver_moves σ.stores d event
      rcases hr : M.deliver σ.stores d event with ⟨answer, stores⟩
      rw [hr] at hmoves
      have hold : Closed M ⟨stores, σ.confirmed⟩ := h.moves hmoves
      simp only [step, ClosesOrder, hr]
      by_cases hc : event.eventType = "ORDER_CANCELLED" ∧ answer = .ok true
      swap
      · rw [if_neg hc]
        exact iff_of_true hold fun htype hans => absurd ⟨htype, hans⟩ hc
      rw [if_pos hc]
      obtain ⟨htype, rfl⟩ := hc
      obtain ⟨o, row, hbook⟩ := M.deliver_cancelled htype hr
      have hfound : σ.found M event.clientIntentId = [(event.clientIntentId, o.status)] := by
        simp [found, row]
      rw [hfound]
      constructor
      · intro hclosed _ _ o₁ row₁
        cases row.symm.trans row₁
        obtain ⟨o', row', hst⟩ := hclosed (event.clientIntentId, o.status) (by simp)
        by_cases hw : o.Working
        · exact .inl hw
        · right
          have hsame : o' = o := by
            rw [show M.book stores = M.book σ.stores from hbook.trans (if_neg hw)] at row'
            exact Option.some.inj (row'.symm.trans row)
          subst hsame
          rcases hst with hst | ⟨ht, _⟩
          · rw [hst]
            rfl
          · exact ht
      · intro hclose e he
        rcases List.mem_append.mp he with he | he
        · exact hold e he
        · cases List.mem_singleton.mp he
          by_cases hw : o.Working
          · rw [if_pos hw] at hbook
            exact ⟨_, (congrFun hbook _).trans (Function.update_self ..), .inl rfl⟩
          · rw [if_neg hw] at hbook
            have ht := (hclose htype rfl o row).resolve_left hw
            exact ⟨o, (congrFun hbook _).trans row, .inr ⟨ht, rfl⟩⟩

theorem closed_iff (M : FedOms c τ δ) (actions : List (FedAction δ)) :
    Run.Always (step M) (Closed M) (start M) actions ↔
      Run.Each (step M) (ClosesOrder M) (start M) actions := by
  have hstart : Closed M (start M) := fun e he => absurd he List.not_mem_nil
  have hstep : ∀ (σ : Confirming τ) (a : FedAction δ), True → Closed M σ →
      (Closed M (step M σ a) ↔ ClosesOrder M σ a) := fun _ a _ h => step_closed_iff h a
  exact (Run.always_iff_each (fun _ _ _ _ _ => trivial) hstep trivial).trans (and_iff_right hstart)

end Confirming

open Confirming in
/-- In every run of either store, the confirmed orders are closed in every state reached
precisely when each confirmation was consumed for a working or a closed order. -/
theorem cancellations_close_iff (c : Decimal.Context) (env : PgEnv)
    (actions : List (FedAction String))
    (pgActions : List (FedAction PostgresBrokerEvents.Delivery)) :
    (Run.Always (step (.sqlite c)) (Closed (.sqlite c)) (start (.sqlite c)) actions ↔
      Run.Each (step (.sqlite c)) (ClosesOrder (.sqlite c)) (start (.sqlite c)) actions) ∧
    (Run.Always (step (.postgres c env)) (Closed (.postgres c env)) (start (.postgres c env))
        pgActions ↔
      Run.Each (step (.postgres c env)) (ClosesOrder (.postgres c env))
        (start (.postgres c env)) pgActions) :=
  ⟨closed_iff (.sqlite c) actions, closed_iff (.postgres c env) pgActions⟩

def cancelledEvent : BrokerOrderEvent where
  sequence := 1
  eventId := 1
  clientIntentId := 1
  status := cancelled
  eventType := "ORDER_CANCELLED"
  occurredAt := .aware 0
  externalEventId := "sandbox:1"
  details := {}

/-- An acknowledged order whose operator `cancel` stopped after its first transition. -/
def interruptedCancel {δ : Type} : List (FedAction δ) :=
  ([OmsCall.create (.limit 1 .buy 10 100)] ++ OmsCall.progressToAcknowledged 1 ++
    [OmsCall.transition 1 cancelPending "operator"]).map .call

open Confirming in
/-- The confirmation is consumed, and the order stays `CANCEL_PENDING`. -/
theorem interrupted_cancel_stranded :
    ¬ Run.Always (step (.sqlite .default)) (Closed (.sqlite .default)) (start (.sqlite .default))
      (interruptedCancel ++ [.deliver "sandbox" cancelledEvent]) ∧
    ¬ Run.Always (step (.postgres .default .sample)) (Closed (.postgres .default .sample))
      (start (.postgres .default .sample))
      (interruptedCancel ++ [.deliver (.sync "sandbox") cancelledEvent]) := by
  constructor
  · intro h
    obtain ⟨o, row, hst⟩ := h.exec (1, cancelPending) (by decide +kernel)
    have hrow : (FedOms.sqlite .default).book (Run.exec (step (.sqlite .default))
        (start (.sqlite .default))
        (interruptedCancel ++ [.deliver "sandbox" cancelledEvent])).stores 1 =
          some { PaperOrder.limit 1 .buy 10 100 with status := cancelPending } := by
      decide +kernel
    cases hrow.symm.trans row
    exact absurd hst (by decide)
  · intro h
    obtain ⟨o, row, hst⟩ := h.exec (1, cancelPending) (by decide +kernel)
    have hrow : (FedOms.postgres .default .sample).book
        (Run.exec (step (.postgres .default .sample)) (start (.postgres .default .sample))
        (interruptedCancel ++ [.deliver (.sync "sandbox") cancelledEvent])).stores
        1 = some { PaperOrder.limit 1 .buy 10 100 with status := cancelPending } := by
      decide +kernel
    cases hrow.symm.trans row
    exact absurd hst (by decide)

end TradePlatform
