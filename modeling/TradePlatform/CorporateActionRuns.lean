/-
# `TradePlatform.CorporateActionRuns` — what a call of `apply_corporate_actions` keeps

`Pass` says all that one pass of the loop may do.  A pass that raises has written nothing,
except one: a symbol change onto an instrument that is held too deletes its position first
(`MergesHeld`), and a call that reaches no such action leaves what its recorded actions make of
the portfolio (`recordsChanges_iff`).  Over a run of calls, an action changes the portfolio at
most once and only when it is known, provided that no revision follows one that was applied and
that what is supplied has been ingested (`history_appliedOnceKnown`).
-/
import TradePlatform.CorporateActions
import TradePlatform.Lib.Replay

namespace TradePlatform

namespace Simulation

variable {c : Decimal.Context} {sqrt : Decimal → Decimal} {asOf : DateTime} {s s' t : Simulation}
  {action : CorporateAction} {actions : List CorporateAction} {instrumentId : String}
  {call : CorporateCall}

/-! ## One pass -/

structure Due (asOf : DateTime) (s : Simulation) (action : CorporateAction) : Prop where
  fresh : action.key ∉ s.appliedCorporateActions
  effective : asOf.lt action.effectiveAt = some false
  valid : action.validate = .ok ()
  held : s.held action.instrumentId ≠ none

instance : Decidable (Due asOf s action) :=
  decidable_of_iff (action.key ∉ s.appliedCorporateActions ∧
    asOf.lt action.effectiveAt = some false ∧ action.validate = .ok () ∧
    s.held action.instrumentId ≠ none)
    ⟨fun h => ⟨h.1, h.2.1, h.2.2.1, h.2.2.2⟩, fun h => ⟨h.fresh, h.effective, h.valid, h.held⟩⟩

structure MergesHeld (asOf : DateTime) (s : Simulation) (action : CorporateAction) : Prop
    extends Due asOf s action where
  symbolChange : action.actionType = .symbolChange
  other : action.successorInstrumentId.getD "" ≠ action.instrumentId
  successor : s.held (action.successorInstrumentId.getD "") ≠ none

instance : Decidable (MergesHeld asOf s action) :=
  decidable_of_iff (Due asOf s action ∧ action.actionType = .symbolChange ∧
    action.successorInstrumentId.getD "" ≠ action.instrumentId ∧
    s.held (action.successorInstrumentId.getD "") ≠ none)
    ⟨fun h => ⟨h.1, h.2.1, h.2.2.1, h.2.2.2⟩,
      fun h => ⟨h.toDue, h.symbolChange, h.other, h.successor⟩⟩

theorem held_eq_some {position : Position} : s.held instrumentId = some position ↔
    s.positions.find? instrumentId = some position ∧ position.quantity ≠ 0 := by
  simp [held, Option.filter_eq_some_iff]

def become (s : Simulation) (action : CorporateAction) (applied : CorporateActionApplication) :
    Simulation :=
  let deleted := s.positions.erase action.instrumentId
  { s with
    positions := if applied.position.quantity ≠ 0 then deleted.put applied.position else deleted
    cash := applied.cash }.record action

inductive Pass (c : Decimal.Context) (asOf : DateTime) (s : Simulation)
    (action : CorporateAction) : Except Exn Unit × Simulation → Prop
  | recorded (known : action.key ∈ s.appliedCorporateActions) : Pass c asOf s action (.ok (), s)
  | refused (fresh : action.key ∉ s.appliedCorporateActions) (e : Exn) :
      Pass c asOf s action (.error e, s)
  | unheld (fresh : action.key ∉ s.appliedCorporateActions)
      (none : s.held action.instrumentId = none) : Pass c asOf s action (.ok (), s.record action)
  | applied (due : Due asOf s action) (result : CorporateActionApplication)
      (free : result.position.instrumentId ≠ action.instrumentId →
        result.position.quantity ≠ 0 → s.held result.position.instrumentId = none) :
      Pass c asOf s action (.ok (), s.become action result)
  | merged (merges : MergesHeld asOf s action) (e : Exn) :
      Pass c asOf s action
        (.error e, { s with positions := s.positions.erase action.instrumentId })

theorem apply_instrument {position : Position} {cash : CashBalance}
    {result : CorporateActionApplication} (h : action.apply c position cash = .ok result) :
    result.position.instrumentId = position.instrumentId ∨
      (action.actionType = .symbolChange ∧
        result.position.instrumentId = action.successorInstrumentId.getD "") := by
  unfold CorporateAction.apply at h
  cases htype : action.actionType with
  | split =>
      rw [htype] at h
      obtain ⟨ratio, -, h⟩ := Except.bind_eq_ok.mp h
      obtain rfl := Except.pure_eq_ok.mp h
      exact .inl rfl
  | cashDividend =>
      rw [htype] at h
      obtain ⟨paid, -, h⟩ := Except.bind_eq_ok.mp h
      obtain rfl := Except.pure_eq_ok.mp h
      exact .inl rfl
  | symbolChange =>
      rw [htype] at h
      cases h
      exact .inr ⟨rfl, rfl⟩
  | delisting =>
      rw [htype] at h
      obtain ⟨paid, -, h⟩ := Except.bind_eq_ok.mp h
      obtain rfl := Except.pure_eq_ok.mp h
      exact .inl rfl

theorem sortedBy_singleton {β : Type} [LinearOrder β] (key : CorporateAction → β)
    (action : CorporateAction) : sortedBy key [action] = .ok [action] := by
  have hcomparable : comparable [action.effectiveAt] = true := by
    cases h : action.effectiveAt.isAware <;> simp [comparable, h]
  exact if_pos hcomparable

theorem applyActions_eq_ok {position : Position} {cash : CashBalance}
    {result : CorporateActionApplication}
    (h : applyActions c position cash [action] asOf = .ok result) :
    action.validate = .ok () ∧ action.instrumentId = position.instrumentId ∧
      action.apply c position cash = .ok result := by
  obtain ⟨-, h⟩ := Except.of_ite_error h
  rw [sortedBy_singleton] at h
  replace h : applySorted c asOf position cash [action] = .ok result := h
  obtain ⟨_, hvalid, h⟩ := Except.bind_eq_ok.mp h
  split at h
  · cases h
  · cases h
  · obtain ⟨hinstrument, h⟩ := Except.of_ite_error h
    obtain ⟨applied, happlied, h⟩ := Except.bind_eq_ok.mp h
    cases h
    exact ⟨hvalid, not_not.mp hinstrument, happlied⟩

theorem held_erase (h : instrumentId ≠ action.instrumentId) :
    held { s with positions := s.positions.erase action.instrumentId } instrumentId =
      s.held instrumentId := by
  unfold held
  rw [Table.find?_erase, if_neg h.symm]

theorem held_erase_self :
    held { s with positions := s.positions.erase action.instrumentId } action.instrumentId =
      none := by
  unfold held
  rw [Table.find?_erase, if_pos rfl]
  rfl

theorem pass_spec (c : Decimal.Context) (asOf : DateTime) (s : Simulation)
    (action : CorporateAction) : Pass c asOf s action (s.applyCorporateAction c asOf action) := by
  unfold applyCorporateAction
  by_cases hkey : action.key ∈ s.appliedCorporateActions
  · rw [if_pos hkey]
    exact .recorded hkey
  rw [if_neg hkey]
  cases hlt : asOf.lt action.effectiveAt with
  | none => exact .refused hkey _
  | some future =>
      cases future with
      | true => exact .refused hkey _
      | false =>
          cases hheld : s.held action.instrumentId with
          | none => exact .unheld hkey hheld
          | some position =>
              cases happlied : applyActions c position s.cash [action] asOf with
              | error e =>
                  simp only [happlied]
                  exact .refused hkey _
              | ok result =>
                  simp only [happlied]
                  obtain ⟨hvalid, hinstrument, happly⟩ := applyActions_eq_ok happlied
                  have hdue : Due asOf s action := ⟨hkey, hlt, hvalid, by rw [hheld]; simp⟩
                  exact write_spec hdue hinstrument happly
where
  write_spec {position : Position} {result : CorporateActionApplication}
      (hdue : Due asOf s action) (hinstrument : action.instrumentId = position.instrumentId)
      (happly : action.apply c position s.cash = .ok result) :
      Pass c asOf s action (s.write action result) := by
    have hbecome := Pass.applied (c := c) hdue result
    by_cases hq : result.position.quantity ≠ 0
    · simp only [become, if_pos hq] at hbecome
      simp only [write, if_pos hq]
      by_cases hother : result.position.instrumentId = action.instrumentId
      · rw [hother, held_erase_self]
        exact hbecome fun hne => absurd hother hne
      · simp only [held_erase hother]
        cases htarget : s.held result.position.instrumentId with
        | none => exact hbecome fun _ _ => htarget
        | some existing =>
            rcases apply_instrument happly with hsame | ⟨htype, hsuccessor⟩
            · exact absurd (hsame.trans hinstrument.symm) hother
            · rw [hsuccessor] at hother htarget
              exact .merged ⟨hdue, htype, hother, by rw [htarget]; simp⟩ _
    · simp only [become, if_neg hq] at hbecome
      simp only [write, if_neg hq]
      exact hbecome fun _ h => absurd h hq

/-! ## One call -/

theorem Pass.records {answer : Except Exn Unit} (h : Pass c asOf s action (answer, s')) :
    s.appliedCorporateActions ⊆ s'.appliedCorporateActions ∧
      (answer = .ok () → action.key ∈ s'.appliedCorporateActions) := by
  cases h with
  | recorded known => exact ⟨subset_rfl, fun _ => known⟩
  | refused fresh e => exact ⟨subset_rfl, fun h => by cases h⟩
  | unheld fresh none =>
      exact ⟨Finset.subset_insert _ _, fun _ => Finset.mem_insert_self _ _⟩
  | applied due result free =>
      exact ⟨Finset.subset_insert _ _, fun _ => Finset.mem_insert_self _ _⟩
  | merged merges e => exact ⟨subset_rfl, fun h => by cases h⟩

theorem Pass.held (h : Pass c asOf s action (.ok (), s'))
    (hheld : s.held instrumentId ≠ none) :
    s'.held instrumentId = s.held instrumentId ∨
      (instrumentId = action.instrumentId ∧ action.key ∉ s.appliedCorporateActions) := by
  cases h with
  | recorded known => exact .inl rfl
  | unheld fresh none => exact .inl rfl
  | applied due result free =>
      by_cases hown : instrumentId = action.instrumentId
      · exact .inr ⟨hown, due.fresh⟩
      · refine .inl ?_
        unfold become Simulation.held record
        by_cases hq : result.position.quantity ≠ 0
        · have hne : result.position.instrumentId ≠ instrumentId := by
            rintro rfl
            exact hheld (free hown hq)
          simp only [if_pos hq]
          rw [Table.find?_put_of_ne hne, Table.find?_erase, if_neg (Ne.symm hown)]
        · simp only [if_neg hq]
          rw [Table.find?_erase, if_neg (Ne.symm hown)]

theorem applyAll_cons (action : CorporateAction) (rest : List CorporateAction) (s : Simulation) :
    s.applyAll c asOf (action :: rest) =
      match s.applyCorporateAction c asOf action with
      | (.error e, s') => (.error e, s')
      | (.ok (), s') => s'.applyAll c asOf rest := rfl

theorem applyAll_append (first rest : List CorporateAction) (s : Simulation) :
    s.applyAll c asOf (first ++ rest) =
      match s.applyAll c asOf first with
      | (.ok (), t) => t.applyAll c asOf rest
      | (.error e, t) => (.error e, t) := by
  induction first generalizing s with
  | nil => rfl
  | cons action first ih =>
      rw [List.cons_append, applyAll_cons, applyAll_cons]
      rcases s.applyCorporateAction c asOf action with ⟨e | ⟨⟩, s'⟩
      · rfl
      · exact ih s'

structure SameTrading (s s' : Simulation) : Prop where
  assumptions : s'.assumptions = s.assumptions
  orders : s'.orders = s.orders
  fills : s'.fills = s.fills
  lastEventAt : s'.lastEventAt = s.lastEventAt

theorem SameTrading.refl (s : Simulation) : SameTrading s s := ⟨rfl, rfl, rfl, rfl⟩

theorem SameTrading.trans (h : SameTrading s s') (h' : SameTrading s' t) : SameTrading s t :=
  ⟨h'.assumptions.trans h.assumptions, h'.orders.trans h.orders, h'.fills.trans h.fills,
    h'.lastEventAt.trans h.lastEventAt⟩

theorem Pass.sameTrading {answer : Except Exn Unit} (h : Pass c asOf s action (answer, s')) :
    SameTrading s s' := by
  cases h with
  | recorded known => exact .refl s
  | refused fresh e => exact .refl s
  | unheld fresh none => exact ⟨rfl, rfl, rfl, rfl⟩
  | applied due result free => exact ⟨rfl, rfl, rfl, rfl⟩
  | merged merges e => exact ⟨rfl, rfl, rfl, rfl⟩

theorem sameTrading_applyCorporateActions (c : Decimal.Context) (s : Simulation)
    (call : CorporateCall) : SameTrading s (s.applyCorporateActions c call).2 := by
  unfold applyCorporateActions
  split
  · exact .refl s
  · cases call.sorted with
    | error e => exact .refl s
    | ok actions => exact sameTrading_applyAll call.asOf s actions
where
  sameTrading_applyAll (asOf : DateTime) (s : Simulation) (actions : List CorporateAction) :
      SameTrading s (s.applyAll c asOf actions).2 := by
    induction actions generalizing s with
    | nil => exact .refl s
    | cons action rest ih =>
        have hpass := pass_spec c asOf s action
        rw [applyAll_cons]
        rcases hr : s.applyCorporateAction c asOf action with ⟨e | ⟨⟩, s'⟩
        · rw [hr] at hpass
          exact hpass.sameTrading
        · rw [hr] at hpass
          exact hpass.sameTrading.trans (ih s')

theorem applyAll_recorded (h : ∀ action ∈ actions, action.key ∈ s.appliedCorporateActions) :
    s.applyAll c asOf actions = (.ok (), s) := by
  induction actions with
  | nil => rfl
  | cons action rest ih =>
      have hpass : s.applyCorporateAction c asOf action = (.ok (), s) := by
        unfold applyCorporateAction
        rw [if_pos (h action List.mem_cons_self)]
      rw [applyAll_cons, hpass]
      exact ih fun a ha => h a (List.mem_cons_of_mem _ ha)

/-- A loop that does not raise has recorded every action, and a position that it took away is
of a recorded action. -/
theorem applyAll_ok (h : s.applyAll c asOf actions = (.ok (), t)) :
    s.appliedCorporateActions ⊆ t.appliedCorporateActions ∧
    (∀ action ∈ actions, action.key ∈ t.appliedCorporateActions) ∧
    ∀ instrumentId, s.held instrumentId ≠ none → t.held instrumentId = none →
      ∃ action ∈ actions, action.instrumentId = instrumentId ∧
        action.key ∉ s.appliedCorporateActions := by
  induction actions generalizing s with
  | nil =>
      obtain ⟨-, rfl⟩ := Prod.mk.inj h
      exact ⟨subset_rfl, fun _ ha => absurd ha List.not_mem_nil, fun _ hs ht => absurd ht hs⟩
  | cons action rest ih =>
      have hpass := pass_spec c asOf s action
      rw [applyAll_cons] at h
      rcases hr : s.applyCorporateAction c asOf action with ⟨e | _, s'⟩
      · rw [hr] at h
        cases h
      rw [hr] at h hpass
      obtain ⟨hsub, hrecords⟩ := hpass.records
      obtain ⟨hsub', hall, hlost⟩ := ih h
      refine ⟨hsub.trans hsub', fun a ha => ?_, fun id hs ht => ?_⟩
      · rcases List.mem_cons.mp ha with rfl | ha
        · exact hsub' (hrecords rfl)
        · exact hall a ha
      · rcases hpass.held hs with hsame | ⟨rfl, hfresh⟩
        · obtain ⟨a, ha, hid, hfresh⟩ := hlost id (hsame ▸ hs) ht
          exact ⟨a, List.mem_cons_of_mem _ ha, hid, fun hk => hfresh (hsub hk)⟩
        · exact ⟨action, List.mem_cons_self, rfl, hfresh⟩

theorem applyAll_error {e : Exn} (h : s.applyAll c asOf actions = (.error e, s')) :
    ∃ before action after t, actions = before ++ action :: after ∧
      s.applyAll c asOf before = (.ok (), t) ∧
      t.applyCorporateAction c asOf action = (.error e, s') := by
  induction actions generalizing s with
  | nil => cases h
  | cons action rest ih =>
      rw [applyAll_cons] at h
      rcases hr : s.applyCorporateAction c asOf action with ⟨e' | _, s₁⟩
      · rw [hr] at h
        obtain ⟨he, rfl⟩ := Prod.mk.inj h
        cases he
        exact ⟨[], action, rest, s, rfl, rfl, hr⟩
      · rw [hr] at h
        obtain ⟨before, a, after, t, rfl, hbefore, hpass⟩ := ih h
        refine ⟨action :: before, a, after, t, rfl, ?_, hpass⟩
        rw [applyAll_cons, hr]
        exact hbefore

/-- The recorded actions are those before the one that raised: without it and what follows, the
loop ends where it raised. -/
theorem applyAll_filter_recorded {before after : List CorporateAction}
    (hbefore : s.applyAll c asOf before = (.ok (), t))
    (hrecorded : s'.appliedCorporateActions = t.appliedCorporateActions) :
    s.applyAll c asOf ((before ++ action :: after).filter fun a =>
      decide (a.key ∈ s'.appliedCorporateActions)) = (.ok (), t) := by
  obtain ⟨-, hall, -⟩ := applyAll_ok hbefore
  have hfirst : before.filter (fun a => decide (a.key ∈ s'.appliedCorporateActions)) = before :=
    List.filter_eq_self.mpr fun a ha => decide_eq_true (hrecorded ▸ hall a ha)
  rw [List.filter_append, hfirst, applyAll_append, hbefore]
  refine applyAll_recorded fun a ha => ?_
  have ha' := of_decide_eq_true (List.mem_filter.mp ha).2
  exact hrecorded ▸ ha'

/-- What a call that raises leaves of the portfolio: what its recorded actions make of it, and
no position has gone but by a recorded action. -/
structure RecordsChanges (c : Decimal.Context) (s : Simulation) (call : CorporateCall)
    (s' : Simulation) : Prop where
  recorded : ∀ actions, call.sorted = .ok actions → ∃ t,
    s.applyAll c call.asOf (actions.filter fun action =>
      decide (action.key ∈ s'.appliedCorporateActions)) = (.ok (), t) ∧
    t.positions = s'.positions ∧ t.cash = s'.cash
  kept : ∀ instrumentId, s.held instrumentId ≠ none → s'.held instrumentId = none →
    ∃ action ∈ call.actions, action.instrumentId = instrumentId ∧
      action.key ∉ s.appliedCorporateActions ∧ action.key ∈ s'.appliedCorporateActions

/-- The loop of the call reaches an action that would merge its position into one that is
held. -/
def ReachesMerge (c : Decimal.Context) (s : Simulation) (call : CorporateCall) : Prop :=
  ∃ before action after t, call.asOf.isAware = true ∧
    call.sorted = .ok (before ++ action :: after) ∧
    s.applyAll c call.asOf before = (.ok (), t) ∧ MergesHeld call.asOf t action

theorem mem_sorted (h : call.sorted = .ok actions) (ha : action ∈ actions) :
    action ∈ call.actions := by
  unfold CorporateCall.sorted sortedBy at h
  split at h
  · rw [← Except.ok.inj h] at ha
    exact mem_sortBy.mp ha
  · cases h

theorem recordsChanges_refl : RecordsChanges c s call s where
  recorded _ _ :=
    ⟨s, applyAll_recorded fun _ ha => of_decide_eq_true (List.mem_filter.mp ha).2, rfl, rfl⟩
  kept _ hs ht := absurd ht hs

theorem applyCorporateActions_error {e : Exn}
    (h : s.applyCorporateActions c call = (.error e, s')) : s' = s ∨
      ∃ actions, call.asOf.isAware = true ∧ call.sorted = .ok actions ∧
        s.applyAll c call.asOf actions = (.error e, s') := by
  unfold applyCorporateActions at h
  split at h
  · cases h
    exact .inl rfl
  · rename_i haware
    cases hsorted : call.sorted with
    | error e' =>
        rw [hsorted] at h
        cases h
        exact .inl rfl
    | ok actions =>
        rw [hsorted] at h
        exact .inr ⟨actions, Bool.eq_true_of_not_eq_false haware, rfl, h⟩

theorem pass_of_mergesHeld (haware : asOf.isAware = true) (h : MergesHeld asOf s action) :
    ∃ e, s.applyCorporateAction c asOf action =
      (.error e, { s with positions := s.positions.erase action.instrumentId }) := by
  obtain ⟨position, hheld⟩ := Option.ne_none_iff_exists'.mp h.held
  obtain ⟨target, htarget⟩ := Option.ne_none_iff_exists'.mp h.successor
  obtain ⟨hfind, hquantity⟩ := held_eq_some.mp hheld
  have hinstrument : action.instrumentId = position.instrumentId :=
    (Table.key_of_find? hfind).symm
  have happly : applyActions c position s.cash [action] asOf = .ok
      ⟨{ position with instrumentId := action.successorInstrumentId.getD "" }, s.cash⟩ := by
    unfold applyActions
    rw [if_neg (by rw [haware]; simp), sortedBy_singleton]
    show applySorted c asOf position s.cash [action] = _
    unfold applySorted CorporateAction.apply
    rw [h.valid, h.effective, h.symbolChange]
    show (if action.instrumentId ≠ position.instrumentId then _ else _) = _
    rw [if_neg (not_not.mpr hinstrument)]
    rfl
  refine ⟨.eventBacktestValidationError "corporate_action_position_merge_unsupported", ?_⟩
  unfold applyCorporateAction
  rw [if_neg h.fresh, h.effective]
  simp only [hheld, happly, write, if_pos hquantity, held_erase h.other, htarget]

/-- A call that raises has changed the portfolio by its recorded actions alone, precisely when
it reaches no action that merges its position into one that is held. -/
theorem recordsChanges_iff (c : Decimal.Context) (s : Simulation) (call : CorporateCall) :
    (∀ e s', s.applyCorporateActions c call = (.error e, s') → RecordsChanges c s call s') ↔
      ¬ ReachesMerge c s call := by
  constructor
  · rintro hrecords ⟨before, action, after, t, haware, hsorted, hbefore, hmerges⟩
    -- the loop raises there, with the position deleted
    obtain ⟨e, hpass⟩ : ∃ e, t.applyCorporateAction c call.asOf action =
        (.error e, { t with positions := t.positions.erase action.instrumentId }) :=
      pass_of_mergesHeld haware hmerges
    have hcall : s.applyCorporateActions c call =
        (.error e, { t with positions := t.positions.erase action.instrumentId }) := by
      unfold applyCorporateActions
      rw [if_neg (by rw [haware]; simp), hsorted]
      show s.applyAll c call.asOf _ = _
      rw [applyAll_append, hbefore]
      show t.applyAll c call.asOf _ = _
      rw [applyAll_cons, hpass]
    obtain ⟨r, hr, hpositions, -⟩ := (hrecords _ _ hcall).recorded _ hsorted
    have hreplay : s.applyAll c call.asOf ((before ++ action :: after).filter fun a =>
        decide (a.key ∈ t.appliedCorporateActions)) = (.ok (), t) :=
      applyAll_filter_recorded hbefore rfl
    obtain ⟨-, rfl⟩ := Prod.mk.inj (hr.symm.trans hreplay)
    -- which the recorded actions alone would have left
    have hheld : r.held action.instrumentId = none := by
      unfold Simulation.held
      rw [hpositions]
      exact held_erase_self (s := r)
    exact hmerges.held hheld
  · intro hmerge e s' hcall
    rcases applyCorporateActions_error hcall with rfl | ⟨actions, haware, hsorted, hall⟩
    · exact recordsChanges_refl
    obtain ⟨before, action, after, t, rfl, hbefore, hpass⟩ := applyAll_error hall
    have hspec := pass_spec c call.asOf t action
    rw [hpass] at hspec
    cases hspec with
    | merged merges e =>
        exact absurd ⟨before, action, after, t, haware, hsorted, hbefore, merges⟩ hmerge
    | refused fresh e =>
        obtain ⟨-, hrecorded, hlost⟩ := applyAll_ok hbefore
        refine ⟨fun actions hactions => ?_, fun id hs ht => ?_⟩
        · obtain rfl := Except.ok.inj (hsorted.symm.trans hactions)
          exact ⟨s', applyAll_filter_recorded hbefore rfl, rfl, rfl⟩
        · obtain ⟨a, ha, hid, hfresh⟩ := hlost id hs ht
          exact ⟨a, mem_sorted hsorted (List.mem_append_left _ ha), hid, hfresh, hrecorded a ha⟩

def twoHoldings : Simulation where
  assumptions := ⟨0, 1, 0, 0, 0⟩
  orders := .empty _
  fills := []
  lastEventAt := none
  positions := ((Table.empty Position.instrumentId).put ⟨"OLD", 10, 5⟩).put ⟨"NEW", 4, 7⟩
  cash := ⟨"USD", 100⟩
  appliedCorporateActions := ∅

def renameOld : CorporateAction where
  instrumentId := "OLD"
  actionType := .symbolChange
  announcedAt := .aware 1
  effectiveAt := .aware 2
  ingestedAt := .aware 2
  provider := "p"
  sourceIdentifier := "rename"
  successorInstrumentId := some "NEW"

/-- The call raises, the first position is gone, and nothing is recorded. -/
theorem refused_merge_deletes_position :
    ¬ ∀ e s', twoHoldings.applyCorporateActions .exact ⟨[renameOld], .aware 3⟩ = (.error e, s') →
      RecordsChanges .exact twoHoldings ⟨[renameOld], .aware 3⟩ s' := by
  intro h
  have hrecords := h
    (.eventBacktestValidationError "corporate_action_position_merge_unsupported")
    { twoHoldings with positions := twoHoldings.positions.erase "OLD" } rfl
  obtain ⟨action, -, -, -, hrecorded⟩ := hrecords.kept "OLD" (by decide +kernel) (by decide +kernel)
  exact absurd hrecorded (Finset.notMem_empty _)

/-! ## Runs -/

/-- A pass that was made: the state it was made in, the action and the time of the call, and the
state after it. -/
structure Visit where
  before : Simulation
  action : CorporateAction
  asOf : DateTime
  after : Simulation

def visits (c : Decimal.Context) (asOf : DateTime) :
    Simulation → List CorporateAction → List Visit
  | _, [] => []
  | s, action :: rest =>
      match s.applyCorporateAction c asOf action with
      | (.error _, s') => [⟨s, action, asOf, s'⟩]
      | (.ok (), s') => ⟨s, action, asOf, s'⟩ :: visits c asOf s' rest

def corporateVisits (c : Decimal.Context) (s : Simulation) (call : CorporateCall) : List Visit :=
  if call.asOf.isAware = false then []
  else
    match call.sorted with
    | .error _ => []
    | .ok actions => visits c call.asOf s actions

def callVisits (c : Decimal.Context) (s : Simulation) : SimulationCall → List Visit
  | .trade _ => []
  | .applyCorporateActions call => corporateVisits c s call

def history (c : Decimal.Context) (sqrt : Decimal → Decimal) :
    Simulation → List SimulationCall → List Visit
  | _, [] => []
  | s, call :: calls => callVisits c s call ++ history c sqrt (s.step c sqrt call) calls

namespace Visit

variable (v : Visit)

def Changes : Prop :=
  ¬ ((∀ instrumentId, v.after.positions.find? instrumentId =
    v.before.positions.find? instrumentId) ∧ v.after.cash = v.before.cash)

def Known : Prop :=
  v.asOf.lt v.action.announcedAt = some false ∧ v.asOf.lt v.action.ingestedAt = some false

def Made (c : Decimal.Context) : Prop :=
  ∃ answer, Pass c v.asOf v.before v.action (answer, v.after)

end Visit

/-- Each action changes the portfolio at most once, in any of its revisions, and only when it is
known. -/
structure AppliedOnceKnown (visits : List Visit) : Prop where
  once : visits.Pairwise fun v w =>
    v.Changes → w.Changes → v.action.logicalId ≠ w.action.logicalId
  known : ∀ v ∈ visits, v.Changes → v.Known

/-- What is applied to a position has been ingested, and what is applied again comes in the same
revision and was not left off in a merge. -/
structure SuppliesFirstRevisions (visits : List Visit) : Prop where
  ingested : ∀ v ∈ visits, Due v.asOf v.before v.action →
    v.asOf.lt v.action.ingestedAt = some false
  revision : visits.Pairwise fun v w => Due v.asOf v.before v.action →
    Due w.asOf w.before w.action → v.action.logicalId = w.action.logicalId →
    v.action.revision = w.action.revision ∧ ¬ MergesHeld v.asOf v.before v.action

instance (visits : List Visit) : Decidable (SuppliesFirstRevisions visits) :=
  decidable_of_iff ((∀ v ∈ visits, Due v.asOf v.before v.action →
      v.asOf.lt v.action.ingestedAt = some false) ∧
    visits.Pairwise fun v w => Due v.asOf v.before v.action →
      Due w.asOf w.before w.action → v.action.logicalId = w.action.logicalId →
      v.action.revision = w.action.revision ∧ ¬ MergesHeld v.asOf v.before v.action)
    ⟨fun h => ⟨h.1, h.2⟩, fun h => ⟨h.ingested, h.revision⟩⟩

theorem Visit.Made.due {v : Visit} (hv : v.Made c) (h : v.Changes) :
    Due v.asOf v.before v.action := by
  obtain ⟨before, action, asOf, after⟩ := v
  obtain ⟨answer, hv⟩ := hv
  change Pass c asOf before action (answer, after) at hv
  cases hv with
  | recorded known => exact absurd ⟨fun _ => rfl, rfl⟩ h
  | refused fresh e => exact absurd ⟨fun _ => rfl, rfl⟩ h
  | unheld fresh none => exact absurd ⟨fun _ => rfl, rfl⟩ h
  | applied due result free => exact due
  | merged merges e => exact merges.toDue

theorem Visit.Made.recorded {v : Visit} (hv : v.Made c) (h : v.Changes)
    (hmerges : ¬ MergesHeld v.asOf v.before v.action) :
    v.action.key ∈ v.after.appliedCorporateActions := by
  obtain ⟨before, action, asOf, after⟩ := v
  obtain ⟨answer, hv⟩ := hv
  change Pass c asOf before action (answer, after) at hv
  cases hv with
  | recorded known => exact known
  | refused fresh e => exact absurd ⟨fun _ => rfl, rfl⟩ h
  | unheld fresh none => exact absurd ⟨fun _ => rfl, rfl⟩ h
  | applied due result free => exact Finset.mem_insert_self _ _
  | merged merges e => exact absurd merges hmerges

theorem Due.announced (h : Due asOf s action) : asOf.lt action.announcedAt = some false := by
  have hvalid := h.valid
  have heffective := h.effective
  unfold CorporateAction.validate at hvalid
  obtain ⟨-, hvalid⟩ := Except.of_ite_error hvalid
  obtain ⟨htimestamps, -⟩ := Except.of_ite_error hvalid
  unfold CorporateAction.timestampsInvalid at htimestamps
  split at htimestamps
  · rename_i announced effective ingested ha he hi
    have hle : ¬ (effective < announced ∨ ingested < announced) := by simpa using htimestamps
    rw [he] at heffective
    rw [ha]
    cases asOf with
    | naive t => cases heffective
    | aware t =>
        have ht : ¬ t < effective := by simpa [DateTime.lt] using heffective
        simp only [DateTime.lt, Option.some.injEq, decide_eq_false_iff_not]
        omega
  · simp at htimestamps

/-- The passes of a loop: each is made in a state that keeps what was recorded before it, and
the loop ends with what they all recorded. -/
structure Chained (c : Decimal.Context) (s s' : Simulation) (vs : List Visit) : Prop where
  made : ∀ v ∈ vs, v.Made c
  since : ∀ v ∈ vs, s.appliedCorporateActions ⊆ v.before.appliedCorporateActions
  pairwise : vs.Pairwise fun v w =>
    v.after.appliedCorporateActions ⊆ w.before.appliedCorporateActions
  until_ : ∀ v ∈ vs, v.after.appliedCorporateActions ⊆ s'.appliedCorporateActions
  grows : s.appliedCorporateActions ⊆ s'.appliedCorporateActions

theorem Chained.nil (h : s.appliedCorporateActions ⊆ s'.appliedCorporateActions) :
    Chained c s s' [] :=
  ⟨fun _ h => absurd h List.not_mem_nil, fun _ h => absurd h List.not_mem_nil, .nil,
    fun _ h => absurd h List.not_mem_nil, h⟩

theorem Chained.append {vs ws : List Visit} (h : Chained c s t vs) (h' : Chained c t s' ws) :
    Chained c s s' (vs ++ ws) where
  made v hv := (List.mem_append.mp hv).elim (h.made v) (h'.made v)
  since v hv := (List.mem_append.mp hv).elim (h.since v) fun hw => h.grows.trans (h'.since v hw)
  pairwise := List.pairwise_append.mpr ⟨h.pairwise, h'.pairwise,
    fun v hv w hw => (h.until_ v hv).trans (h'.since w hw)⟩
  until_ v hv := (List.mem_append.mp hv).elim (fun hv => (h.until_ v hv).trans h'.grows)
    (h'.until_ v)
  grows := h.grows.trans h'.grows

theorem chained_pass {answer : Except Exn Unit}
    (h : s.applyCorporateAction c asOf action = (answer, s')) :
    Chained c s s' [⟨s, action, asOf, s'⟩] := by
  have hpass := pass_spec c asOf s action
  rw [h] at hpass
  have hsub := hpass.records.1
  refine ⟨?_, ?_, List.pairwise_singleton _ _, ?_, hsub⟩
  · intro v hv
    obtain rfl := List.mem_singleton.mp hv
    exact ⟨answer, hpass⟩
  · intro v hv
    obtain rfl := List.mem_singleton.mp hv
    exact subset_rfl
  · intro v hv
    obtain rfl := List.mem_singleton.mp hv
    exact subset_rfl

theorem chained_visits (c : Decimal.Context) (asOf : DateTime) (s : Simulation)
    (actions : List CorporateAction) :
    Chained c s (s.applyAll c asOf actions).2 (visits c asOf s actions) := by
  induction actions generalizing s with
  | nil => exact .nil subset_rfl
  | cons action rest ih =>
      rw [applyAll_cons]
      unfold visits
      rcases hr : s.applyCorporateAction c asOf action with ⟨e | ⟨⟩, s'⟩
      · exact chained_pass hr
      · exact (chained_pass hr).append (ih s')

theorem chained_call (c : Decimal.Context) (sqrt : Decimal → Decimal) (s : Simulation)
    (call : SimulationCall) : Chained c s (s.step c sqrt call) (callVisits c s call) := by
  cases call with
  | trade call => exact .nil subset_rfl
  | applyCorporateActions call =>
      show Chained c s (s.applyCorporateActions c call).2 (corporateVisits c s call)
      unfold applyCorporateActions corporateVisits
      by_cases haware : call.asOf.isAware = false
      · rw [if_pos haware, if_pos haware]
        exact .nil subset_rfl
      · rw [if_neg haware, if_neg haware]
        cases call.sorted with
        | error e => exact .nil subset_rfl
        | ok actions => exact chained_visits c call.asOf s actions

theorem chained_history (c : Decimal.Context) (sqrt : Decimal → Decimal) (s : Simulation)
    (calls : List SimulationCall) :
    Chained c s (Run.exec (step c sqrt) s calls) (history c sqrt s calls) := by
  induction calls generalizing s with
  | nil => exact .nil subset_rfl
  | cons call calls ih => exact (chained_call c sqrt s call).append (ih _)

/-- In a run that applies first revisions only, and what has been ingested, each action changes
the portfolio at most once and only when it is known. -/
theorem history_appliedOnceKnown (c : Decimal.Context) (sqrt : Decimal → Decimal)
    (s : Simulation) (calls : List SimulationCall)
    (hsupplies : SuppliesFirstRevisions (history c sqrt s calls)) :
    AppliedOnceKnown (history c sqrt s calls) := by
  have hchained := chained_history c sqrt s calls
  constructor
  · refine (hchained.pairwise.and hsupplies.revision).imp_of_mem ?_
    rintro v w hv hw ⟨hkept, hrevision⟩ hvchanges hwchanges hid
    have hvdue := (hchained.made v hv).due hvchanges
    have hwdue := (hchained.made w hw).due hwchanges
    obtain ⟨hsame, hmerges⟩ := hrevision hvdue hwdue hid
    have hrecorded := (hchained.made v hv).recorded hvchanges hmerges
    -- one action and one revision: it was recorded
    have hkey : w.action.key = v.action.key := by
      obtain ⟨hprovider, hsource⟩ := Prod.mk.inj hid
      unfold CorporateAction.key
      rw [hprovider, hsource, hsame]
    exact hwdue.fresh (hkey ▸ hkept hrecorded)
  · intro v hv hchanges
    have hdue := (hchained.made v hv).due hchanges
    exact ⟨hdue.announced, hsupplies.ingested v hv hdue⟩

def splitOld (revision : ℤ) : CorporateAction where
  instrumentId := "OLD"
  actionType := .split
  announcedAt := .aware 1
  effectiveAt := .aware 2
  ingestedAt := .aware 3
  provider := "p"
  sourceIdentifier := "split"
  revision := revision
  ratio := some 2

/-- One revision, supplied with each call. -/
theorem split_applied_once : AppliedOnceKnown (history .exact id twoHoldings
    [.applyCorporateActions ⟨[splitOld 0], .aware 3⟩,
      .applyCorporateActions ⟨[splitOld 0], .aware 4⟩]) :=
  history_appliedOnceKnown .exact id twoHoldings _ (by decide +kernel)

/-- The second revision of a split is applied as well. -/
theorem split_revised_applied_twice : ¬ AppliedOnceKnown (history .exact id twoHoldings
    [.applyCorporateActions ⟨[splitOld 0], .aware 3⟩,
      .applyCorporateActions ⟨[splitOld 1], .aware 4⟩]) := by
  intro h
  refine List.pairwise_iff_getElem.mp h.once 0 1 (by decide +kernel) (by decide +kernel)
    Nat.zero_lt_one ?_ ?_ (by decide +kernel)
  · rintro ⟨hpositions, -⟩
    exact absurd (hpositions "OLD") (by decide +kernel)
  · rintro ⟨hpositions, -⟩
    exact absurd (hpositions "OLD") (by decide +kernel)

end Simulation

end TradePlatform
