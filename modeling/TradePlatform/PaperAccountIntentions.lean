/-
# `TradePlatform.PaperAccountIntentions` — what the account intends, and what it holds

Of every key the ledger keeps the units it intends to hold, by which it tells whether a
decision needs an order.  With nothing of the key pending that should be what it holds.
It is, as long as the last pending order of a key to be executed is the key's latest, or
moves nothing that is intended: an earlier order that opens a position leaves the intention
as it was.
-/
import TradePlatform.PaperAccountSteps

namespace TradePlatform

namespace LedgerState

variable {a : Decimal.Arithmetic} {t : AccountTerms} {signals : Dict String SignalIdentity}
  {s s' : LedgerState} {fill : PaperFillV1} {instant : ℤ} {fills : List PaperFillV1}
  {key : StudyTrial}

def HoldsIntended (s : LedgerState) (key : StudyTrial) : Prop :=
  s.pendingOf key = [] → s.intendedUnits key = (s.position key).units

instance (s : LedgerState) (key : StudyTrial) : Decidable (HoldsIntended s key) :=
  inferInstanceAs (Decidable (_ → _))

/-- The order does not fill, with what is intended held, or it only closes, with nothing
intended. -/
def KeepsIntended (s : LedgerState) (fill : PaperFillV1) (item : PendingOrder) : Prop :=
  if fill.Filled then item.approvedOpen = false ∧ s.intendedUnits fill.key = 0
  else s.intendedUnits fill.key = (s.position fill.key).units

instance (s : LedgerState) (fill : PaperFillV1) (item : PendingOrder) :
    Decidable (KeepsIntended s fill item) :=
  inferInstanceAs (Decidable (if fill.Filled then _ ∧ _ else _ = _))

/-- The pending order of a fill is the latest order of its key, or not the last pending one,
or its execution keeps what is intended. -/
def ExecutesInOrder (s : LedgerState) (fill : PaperFillV1) (item : PendingOrder) : Prop :=
  s.latest.get? fill.key = some fill.signalId ∨
    (∃ p ∈ Dict.values (s.pending.erase fill.signalId), p.key = fill.key) ∨
    s.KeepsIntended fill item

instance (s : LedgerState) (fill : PaperFillV1) (item : PendingOrder) :
    Decidable (ExecutesInOrder s fill item) :=
  inferInstanceAs (Decidable (_ ∨ _ ∨ _))

def ExecutesLatest (s : LedgerState) (e : LedgerEvent) : Prop :=
  e.kind = .execution → ∀ item ∈ s.pending.get? e.fill.signalId, s.ExecutesInOrder e.fill item

instance (s : LedgerState) (e : LedgerEvent) : Decidable (ExecutesLatest s e) :=
  inferInstanceAs (Decidable (_ → _))

def Owned (fills : List PaperFillV1) (s : LedgerState) : Prop :=
  ∀ id item, s.pending.get? id = some item → ∃ f ∈ fills, f.signalId = id ∧ item.key = f.key

theorem pendingOf_eq_nil :
    s.pendingOf key = [] ↔ ∀ id item, s.pending.get? id = some item → item.key ≠ key := by
  simp only [pendingOf, List.filter_eq_nil_iff, Dict.mem_values, decide_eq_true_eq]
  constructor
  · intro h id item hitem
    exact h item ⟨id, hitem⟩
  · rintro h item ⟨id, hitem⟩
    exact h id item hitem

theorem Owned.key_eq (hnodup : (fills.map PaperFillV1.signalId).Nodup) (ho : Owned fills s)
    (hf : fill ∈ fills) {item : PendingOrder}
    (h : s.pending.get? fill.signalId = some item) : item.key = fill.key := by
  obtain ⟨f, hmem, hid, hkey⟩ := ho _ _ h
  rw [hkey, fill_eq_of_signalId hnodup hmem hf hid]

theorem owned_step (ho : Owned fills s) {e : LedgerEvent} (hf : e.fill ∈ fills)
    (h : s.step a t signals e = .ok s') : Owned fills s' := by
  intro id item hitem
  rcases pending_step h hitem with hold | ⟨hid, hnew⟩
  · exact ho id item hold
  · exact ⟨e.fill, hf, hid, hnew.key⟩

/-! ## One event -/

/-- What a decision does to the intentions: its own key has an order pending, or is flat
and meant to be. -/
theorem holdsIntended_decision (hnodup : (fills.map PaperFillV1.signalId).Nodup)
    (ho : Owned fills s) (hf : fill ∈ fills) (hk : ∀ key, HoldsIntended s key)
    (h : s.decisionEvent a t signals fill instant = .ok s') (key : StudyTrial) :
    HoldsIntended s' key := by
  rcases decisionEvent_cases h with ⟨_, rfl⟩ | ⟨_, h⟩
  · exact hk key
  · obtain ⟨_, _, _, _, ⟨hunits, _, _, rfl⟩ | ⟨_, item, hitem, rfl⟩⟩ := decideOrder_cases h
    · intro hnone
      by_cases hkey : fill.key = key
      · subst hkey
        simp only [intendedUnits, Dict.getD, Dict.get?_set_self, Option.getD_some]
        exact hunits.symm
      · simp only [intendedUnits, Dict.getD, Dict.get?_set_of_ne hkey]
        exact hk key hnone
    · intro hnone
      rw [pendingOf_eq_nil] at hnone
      have hkey : fill.key ≠ key := by
        intro hkey
        exact hnone fill.signalId item (by simp) (hitem.key.trans hkey)
      simp only [intendedUnits, Dict.getD, Dict.get?_set_of_ne hkey]
      refine hk key (pendingOf_eq_nil.mpr fun id p hp => ?_)
      by_cases hid : fill.signalId = id
      · subst hid
        rw [ho.key_eq hnodup hf hp]
        exact hkey
      · exact hnone id p (by simpa [Dict.get?_set, hid] using hp)

theorem holdsIntended_execute_other {item : PendingOrder} {executed : LedgerState}
    (hitem : s.pending.get? fill.signalId = some item) (hown : item.key = fill.key)
    (hdone : { s with pending := s.pending.erase fill.signalId }.execute a t fill item fill.key
      = .ok executed)
    (hne : fill.key ≠ key) (hk : HoldsIntended s key) :
    HoldsIntended (executed.settleIntended fill) key := by
  obtain ⟨positions, realized, o, _, hpos, rfl⟩ := execute_frame hdone
  have hposition : (positions.getD key .flat).units = (s.position key).units := by
    simp only [position, Dict.getD, hpos key hne]
  have hpending : (s.pending.erase fill.signalId).values.filter
      (fun p => decide (p.key = key)) = [] → s.pendingOf key = [] := by
    intro hnone
    rw [pendingOf_eq_nil]
    intro id p hp hpkey
    have hid : fill.signalId ≠ id := by
      rintro rfl
      rw [hitem] at hp
      cases hp
      exact hne (hown.symm.trans hpkey)
    have herase : (s.pending.erase fill.signalId).get? id = some p := by
      rw [Dict.get?_erase, if_neg hid]
      exact hp
    have hmem : p ∈ (s.pending.erase fill.signalId).values := Dict.mem_values.mpr ⟨id, herase⟩
    have := List.filter_eq_nil_iff.mp hnone p hmem
    simp [hpkey] at this
  intro hnone
  unfold settleIntended at hnone ⊢
  split at hnone
  · rename_i hlatest
    rw [if_pos hlatest]
    have hold := hk (hpending hnone)
    simp only [intendedUnits, Dict.getD, Dict.get?_set_of_ne hne] at hold ⊢
    simp only [position, Dict.getD, hpos key hne] at hold ⊢
    exact hold
  · rename_i hlatest
    rw [if_neg hlatest]
    have hold := hk (hpending hnone)
    simp only [intendedUnits, position, Dict.getD, hpos key hne] at hold ⊢
    exact hold

theorem units_execute_closing {item : PendingOrder} {executed : LedgerState}
    (hfilled : fill.Filled) (hclosing : item.approvedOpen = false)
    (hdone : s.execute a t fill item key = .ok executed) : (executed.position key).units = 0 := by
  rcases execute_cases hdone with ⟨hnot, _⟩ | ⟨_, price, closed, quantity, barOpen, _, hclosed, h⟩
  · exact absurd hfilled hnot
  · have hunits : (closed.state.position key).units = 0 := by
      rcases closeHeld_cases hclosed with ⟨hunits, rfl⟩ | ⟨_, notional, rfl⟩
      · exact hunits
      · simp [position, Dict.getD, AccountPosition.flat]
    rcases h with rfl | ⟨happroved, _⟩ | ⟨_, rfl⟩
    · exact hunits
    · rw [hclosing] at happroved
      cases happroved
    · exact hunits

theorem units_execute_kept {item : PendingOrder} {executed : LedgerState}
    (hkept : s.KeepsIntended fill item)
    (hdone : s.execute a t fill item fill.key = .ok executed) :
    s.intendedUnits fill.key = (executed.position fill.key).units := by
  unfold KeepsIntended at hkept
  split at hkept
  · rename_i hfilled
    rw [hkept.2, units_execute_closing hfilled hkept.1 hdone]
  · rename_i hnot
    rcases execute_cases hdone with ⟨_, rfl⟩ | ⟨hfilled, _⟩
    · exact hkept
    · exact absurd hfilled hnot

theorem holdsIntended_execute_own {item : PendingOrder} {executed : LedgerState}
    (hguard : s.ExecutesInOrder fill item)
    (hdone : { s with pending := s.pending.erase fill.signalId }.execute a t fill item fill.key
      = .ok executed) :
    HoldsIntended (executed.settleIntended fill) fill.key := by
  have hkeeps : s.KeepsIntended fill item →
      s.intendedUnits fill.key = (executed.position fill.key).units :=
    fun hkept => units_execute_kept (s := { s with pending := s.pending.erase fill.signalId })
      hkept hdone
  obtain ⟨positions, realized, o, _, hpos, rfl⟩ := execute_frame hdone
  intro hnone
  rcases hguard with hlatest | ⟨p, hp, hpkey⟩ | hkept
  · simp only [settleIntended, hlatest, if_true, intendedUnits, Dict.getD, Dict.get?_set_self,
      Option.getD_some, position]
  · exfalso
    have hmem : p ∈ pendingOf
        (settleIntended { s with
          positions := positions
          realized := realized
          pending := s.pending.erase fill.signalId
          orders := s.orders ++ [o] } fill) fill.key := by
      refine List.mem_filter.mpr ⟨?_, by simpa using hpkey⟩
      unfold settleIntended
      split <;> exact hp
    rw [hnone] at hmem
    cases hmem
  · have hunits := hkeeps hkept
    unfold settleIntended
    split
    · simp only [intendedUnits, Dict.getD, Dict.get?_set_self, Option.getD_some, position]
    · simp only [intendedUnits, Dict.getD, position] at hunits ⊢
      cases hintended : s.intended.get? fill.key with
      | none => rfl
      | some units =>
          rw [hintended] at hunits
          exact hunits

theorem holdsIntended_step (hnodup : (fills.map PaperFillV1.signalId).Nodup)
    (ho : Owned fills s) {e : LedgerEvent} (hf : e.fill ∈ fills) (hguard : ExecutesLatest s e)
    (hk : ∀ key, HoldsIntended s key) (h : s.step a t signals e = .ok s') (key : StudyTrial) :
    HoldsIntended s' key := by
  have hmeet : ∀ key, HoldsIntended (s.meet a t e) key := by
    intro key
    simpa only [HoldsIntended, pendingOf_meet, intendedUnits_meet, position_meet] using hk key
  have howned : Owned fills (s.meet a t e) := by
    intro id item hitem
    rw [pending_meet] at hitem
    exact ho id item hitem
  rcases step_cases h with ⟨hkind, h⟩ | ⟨hkind, h⟩
  · obtain ⟨executed, hexec, hs'⟩ := executionEvent_cases h
    have hsame : HoldsIntended executed key → HoldsIntended s' key := by
      rcases hs' with ⟨_, rfl⟩ | ⟨_, _, _, rfl⟩ <;> exact id
    refine hsame ?_
    rcases executePending_cases hexec with ⟨_, rfl⟩ | ⟨item, done, hitem, hdone, rfl⟩
    · exact hmeet key
    · by_cases hkey : e.fill.key = key
      · subst hkey
        have hg : (s.meet a t e).ExecutesInOrder e.fill item := by
          have hg := hguard hkind item (by rw [← pending_meet a t s e, hitem]; rfl)
          simpa only [ExecutesInOrder, KeepsIntended, latest_meet, pending_meet,
            intendedUnits_meet, position_meet] using hg
        exact holdsIntended_execute_own hg hdone
      · exact holdsIntended_execute_other hitem (howned.key_eq hnodup hf hitem) hdone hkey
          (hmeet key)
  · exact holdsIntended_decision hnodup howned hf hmeet h key

end LedgerState

/-! ## A whole ledger -/

/-- A decision with nothing of its key pending is met holding what is intended, and is
recorded as already at its target only when the account holds the target. -/
def DecidesOnHoldings (a : Decimal.Arithmetic) (t : AccountTerms)
    (signals : Dict String SignalIdentity) (s : LedgerState) (e : LedgerEvent) : Prop :=
  e.kind = .decision → s.HoldsIntended e.fill.key ∧
    ∀ s' o, s.step a t signals e = .ok s' → s'.orders = s.orders ++ [o] →
      o.decision = .noOrderAlreadyAtTarget → s.pendingOf e.fill.key = [] →
        (s.position e.fill.key).units = e.fill.targetTo

theorem decidesOnHoldings {a : Decimal.Arithmetic} {t : AccountTerms}
    {signals : Dict String SignalIdentity} {s : LedgerState} {e : LedgerEvent}
    (hholds : s.HoldsIntended e.fill.key) : DecidesOnHoldings a t signals s e := by
  intro hkind
  refine ⟨hholds, fun s' o hstep horders ho hnone => ?_⟩
  rcases LedgerState.step_cases hstep with ⟨hexecution, _⟩ | ⟨_, hstep⟩
  · rw [hkind] at hexecution
    cases hexecution
  rcases LedgerState.decisionEvent_cases hstep with ⟨htarget, _⟩ | ⟨_, hstep⟩
  · rw [LedgerState.intendedUnits_meet] at htarget
    rw [htarget]
    exact (hholds hnone).symm
  · exfalso
    obtain ⟨_, _, _, _, ⟨_, _, _, rfl⟩ | ⟨_, _, _, rfl⟩⟩ := LedgerState.decideOrder_cases hstep
    · simp only [LedgerState.orders_meet, List.append_cancel_left_eq, List.cons.injEq,
        and_true] at horders
      rw [← horders] at ho
      cases ho
    · simp [LedgerState.orders_meet] at horders

section Ledger

variable (a : Decimal.Arithmetic) (hash : IdentityHash LedgerIdentity) (policy : AccountPolicyV1)
  (fills : List PaperFillV1) (signals : Dict String SignalIdentity) (cost : CostPolicyV1) (asOf : ℤ)

/-- In building the ledger, every event is met in a state that satisfies `ok`. -/
def EachEvent (ok : AccountTerms → LedgerState → LedgerEvent → Prop) : Prop :=
  ∀ t ∈ (accountTerms a policy cost).toOption,
    ∀ events ∈ (ledgerEvents hash.ofSignal signals (cutoffOf asOf) fills).toOption,
      Replay.Along (fun s e => LedgerState.step a t signals s e) (ok t) (LedgerState.initial t)
        events

instance (ok : AccountTerms → LedgerState → LedgerEvent → Prop) [∀ t s e, Decidable (ok t s e)] :
    Decidable (EachEvent a hash policy fills signals cost asOf ok) :=
  inferInstanceAs (Decidable (∀ t ∈ (accountTerms a policy cost).toOption, _))

/-- In every ledger whose pending orders are executed in order, every decision is made on what
the account holds. -/
theorem decisions_made_on_holdings
    (h : EachEvent a hash policy fills signals cost asOf fun _ => LedgerState.ExecutesLatest) :
    EachEvent a hash policy fills signals cost asOf fun t => DecidesOnHoldings a t signals := by
  intro t ht events hevents
  have hev := Except.toOption_eq_some.mp hevents
  have hnodup := (ledgerEvents_eq_ok.mp hev).2.1
  have hinitial : (LedgerState.initial t).Owned fills ∧
      ∀ key, (LedgerState.initial t).HoldsIntended key := by
    refine ⟨fun id item hitem => ?_, fun key _ => rfl⟩
    cases hitem
  refine (h t ht events hevents).of_inv
    (J := fun s => s.Owned fills ∧ ∀ key, s.HoldsIntended key) ?_ ?_ hinitial
  · rintro s e he s' ⟨howned, hholds⟩ hguard hstep
    have hfill := (mem_ledgerEvents hev he).1
    exact ⟨LedgerState.owned_step howned hfill hstep,
      LedgerState.holdsIntended_step hnodup howned hfill hguard hholds hstep⟩
  · rintro s e _ ⟨_, hholds⟩ _
    exact decidesOnHoldings (hholds e.fill.key)

end Ledger

/-- The executions of a round trip become known in the order of its decisions. -/
theorem round_trip_decided_on_holdings :
    EachEvent .default smallHash smallPolicy roundTrip (smallSignals roundTrip) smallCost
      (1000 * 10 ^ 6) fun t => DecidesOnHoldings .default t (smallSignals roundTrip) :=
  decisions_made_on_holdings .default smallHash smallPolicy roundTrip _ smallCost (1000 * 10 ^ 6)
    (by decide +kernel)

/-- An opening whose price is known only after the close that was decided after it; then a
decision to be flat. -/
def lateOpening : List PaperFillV1 :=
  [smallFill "open" 1 10 900 100, smallFill "close" 0 20 90 101, smallFill "flat" 0 1000 1090 102]

/-- The last decision is met with nothing pending and the opened unit held, intends none,
and is recorded as already at its target of none. -/
theorem already_at_target_while_holding_another :
    ¬ EachEvent .default smallHash smallPolicy lateOpening (smallSignals lateOpening) smallCost
        (2000 * 10 ^ 6) (fun t => DecidesOnHoldings .default t (smallSignals lateOpening)) ∧
      (buildPaperAccountLedgerV1 .default smallHash smallPolicy lateOpening
          (smallSignals lateOpening) smallCost (2000 * 10 ^ 6)).toOption.map (fun ledger =>
        ((ledger.orders.map LedgerOrder.decision).getLast?,
          ledger.openPositions.map OpenPosition.units)) =
        some (some .noOrderAlreadyAtTarget, [1]) := by
  refine ⟨fun h => ?_, by decide +kernel⟩
  have hholds : EachEvent .default smallHash smallPolicy lateOpening (smallSignals lateOpening)
      smallCost (2000 * 10 ^ 6) fun _ s e => e.kind = .decision → s.HoldsIntended e.fill.key :=
    fun t ht events hevents => (h t ht events hevents).of_inv (J := fun _ => True)
      (fun _ _ _ _ _ _ _ => trivial) (fun _ _ _ _ hd hkind => (hd hkind).1) trivial
  revert hholds
  decide +kernel

end TradePlatform
