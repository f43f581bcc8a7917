/-
# `TradePlatform.StrategyLabLedgerRuns` — what the queue of trials keeps, in any run

A row of the queue is `Sound` when its events, its state and its result go together, and a call
makes sound rows of sound rows.  So no key is used twice (`ledger_run_sound`), and the attempts of a
trial are handed out one after another (`claims_count_attempts`), whoever calls what, and when.
-/
import TradePlatform.StrategyLabLedger
import TradePlatform.StrategyLabTrials
import TradePlatform.Lib.Run

namespace TradePlatform

namespace StrategyLabLedger

open StrategyLabStudy (StudySpecV1 TrialV1)

variable (env : LedgerEnv)

/-! ## What holds of a row -/

/-- The events that a row may have at its attempt, by its state. -/
def admits : TrialStateV1 → EventType → Bool
  | .pending, .claimed | .pending, .failed | .pending, .retryRequested => true
  | .claimed _ _, .claimed => true
  | .succeeded, .claimed | .succeeded, .succeeded => true
  | .failed, .claimed | .failed, .failed => true
  | .cancelled, .claimed | .cancelled, .failed | .cancelled, .retryRequested
  | .cancelled, .cancelled => true
  | _, _ => false

/-- An attempt was handed to a worker. -/
def Handed (events : List TrialEvent) (attempt : ℕ) (worker : String) : Prop :=
  ∃ event ∈ events, event.eventType = .claimed ∧ event.attempt = attempt ∧
    event.worker = some worker

/-- The event is of an earlier attempt, or of this one in this state. -/
def Within (attempt : ℕ) (state : TrialStateV1) (event : TrialEvent) : Prop :=
  event.attempt < attempt ∨ event.attempt = attempt ∧ admits state event.eventType = true

def Apart (a b : TrialEvent) : Prop := (a.attempt, a.eventType) ≠ (b.attempt, b.eventType)

namespace QueueRow

structure Sound (row : QueueRow) : Prop where
  within : ∀ event ∈ row.events, Within row.attempt row.state event
  apart : row.events.Pairwise Apart
  holder : ∀ owner expires, row.state = .claimed owner expires →
    Handed row.events row.attempt owner
  done : row.state = .succeeded ↔ row.result.isSome = true
  result : ∀ x ∈ row.result, x.attempt = row.attempt ∧ Handed row.events x.attempt x.worker

namespace Sound

variable {env} {row : QueueRow} {state : TrialStateV1} {event : TrialEvent}

/-- What the events of a row are once it is in another state, with an event of the same attempt
that it could not have before. -/
theorem append (h : row.Sound) (hkept : ∀ k, admits row.state k = true → admits state k = true)
    (hattempt : event.attempt = row.attempt) (hbefore : admits row.state event.eventType = false)
    (hafter : admits state event.eventType = true) :
    (∀ e ∈ row.events ++ [event], Within row.attempt state e) ∧
      (row.events ++ [event]).Pairwise Apart := by
  constructor
  · intro e he
    rcases List.mem_append.mp he with he | he
    · exact (h.within e he).imp_right fun hsame => ⟨hsame.1, hkept _ hsame.2⟩
    · rw [List.mem_singleton.mp he]
      exact .inr ⟨hattempt, hafter⟩
  · refine List.pairwise_append.mpr
      ⟨h.apart, List.pairwise_singleton _ _, fun e he e' he' heq => ?_⟩
    rw [List.mem_singleton.mp he'] at heq
    obtain ⟨hsame, htype⟩ := Prod.mk.inj heq
    rcases h.within e he with hlt | ⟨-, hadmits⟩
    · omega
    · rw [htype, hbefore] at hadmits
      cases hadmits

theorem result_eq_none (h : row.Sound) (hlive : row.state ≠ .succeeded) : row.result = none := by
  cases hresult : row.result with
  | none => rfl
  | some x => exact absurd (h.done.mpr (by rw [hresult]; rfl)) hlive

/-- A row that is failed, queued again or cancelled. -/
theorem become (h : row.Sound) (hkept : ∀ k, admits row.state k = true → admits state k = true)
    (hattempt : event.attempt = row.attempt) (hbefore : admits row.state event.eventType = false)
    (hafter : admits state event.eventType = true) (hlive : row.state ≠ .succeeded)
    (hdone : state ≠ .succeeded) (hholder : ∀ owner expires, state ≠ .claimed owner expires) :
    (row.become state [event]).Sound where
  within := (h.append hkept hattempt hbefore hafter).1
  apart := (h.append hkept hattempt hbefore hafter).2
  holder owner expires hstate := absurd hstate (hholder owner expires)
  done := by
    show state = .succeeded ↔ row.result.isSome = true
    simp [hdone, h.result_eq_none hlive]
  result x hx := by
    have hx : x ∈ row.result := hx
    rw [h.result_eq_none hlive] at hx
    cases hx

theorem renewed (h : row.Sound) {owner : String} {before : ℤ}
    (hstate : row.state = .claimed owner before) (expires : ℤ) :
    ({ row with state := .claimed owner expires } : QueueRow).Sound := by
  have hlive : row.state ≠ .succeeded := by
    rw [hstate]
    nofun
  refine ⟨fun e he => ?_, h.apart, ?_, by simp [h.result_eq_none hlive], h.result⟩
  · refine (h.within e he).imp_right fun hsame => ⟨hsame.1, ?_⟩
    have hadmits := hsame.2
    rw [hstate] at hadmits
    revert hadmits
    cases e.eventType <;> exact fun hk => hk
  · intro owner' expires' howner
    cases howner
    exact h.holder owner before hstate

theorem completed (h : row.Sound) {x : TrialResultV1} {before : ℤ}
    (hstate : row.state = .claimed x.worker before) (hx : x.attempt = row.attempt)
    (hattempt : event.attempt = row.attempt) (htype : event.eventType = .succeeded) :
    ({ row.become .succeeded [event] with result := some x } : QueueRow).Sound := by
  obtain ⟨hwithin, hapart⟩ := @append row .succeeded event h (fun k hk => by
    rw [hstate] at hk
    cases k <;> first | rfl | cases hk) hattempt (by rw [hstate, htype]; rfl) (by rw [htype]; rfl)
  refine ⟨hwithin, hapart, nofun, iff_of_true rfl rfl, ?_⟩
  rintro _ ⟨⟩
  obtain ⟨e, he, hhanded⟩ := h.holder _ _ hstate
  exact ⟨hx, e, List.mem_append_left _ he, hx ▸ hhanded⟩

theorem claimed (h : row.Sound) (worker : String) (expires now : ℤ) {studyId : UUID}
    (hclaimable : row.claimable studyId now = true) :
    (row.claimed env worker expires now).Sound := by
  have hlive : row.state ≠ .succeeded := by
    intro hstate
    simp [claimable, hstate] at hclaimable
  have hexpired : ∀ e ∈ row.expiredEvents worker now,
      e.attempt = row.attempt ∧ admits row.state e.eventType = false := by
    intro e he
    unfold expiredEvents at he
    split at he
    · rename_i hstate
      rw [List.mem_singleton.mp he, hstate]
      exact ⟨rfl, rfl⟩
    · cases he
  have hle : ∀ e ∈ row.events ++ row.expiredEvents worker now, e.attempt ≤ row.attempt := by
    intro e he
    rcases List.mem_append.mp he with he | he
    · exact (h.within e he).elim le_of_lt fun hsame => hsame.1.le
    · exact (hexpired e he).1.le
  have hassoc : (row.claimed env worker expires now).events =
      (row.events ++ row.expiredEvents worker now) ++
        [⟨row.trial.studyId, row.attempt + 1, .claimed, some worker,
          [("lease_expires_at", env.isoformat expires)], now⟩] :=
    (List.append_assoc _ _ _).symm
  have hhanded : Handed (row.claimed env worker expires now).events (row.attempt + 1) worker := by
    rw [hassoc]
    exact ⟨_, List.mem_append_right _ (List.mem_singleton.mpr rfl), rfl, rfl, rfl⟩
  refine ⟨?_, ?_, ?_, ?_, ?_⟩
  · rw [hassoc]
    intro e he
    rcases List.mem_append.mp he with he | he
    · exact .inl (Nat.lt_succ_of_le (hle e he))
    · rw [List.mem_singleton.mp he]
      exact .inr ⟨rfl, rfl⟩
  · rw [hassoc]
    refine List.pairwise_append.mpr ⟨List.pairwise_append.mpr ⟨h.apart, ?_, ?_⟩,
      List.pairwise_singleton _ _, ?_⟩
    · unfold expiredEvents
      split
      · exact List.pairwise_singleton _ _
      · exact .nil
    -- the lease that is given up has not expired before
    · intro e he e' he' heq
      obtain ⟨hattempt, hbefore⟩ := hexpired e' he'
      obtain ⟨hsame, htype⟩ := Prod.mk.inj heq
      rcases h.within e he with hlt | ⟨-, hadmits⟩
      · omega
      · rw [htype, hbefore] at hadmits
        cases hadmits
    · intro e he e' he' heq
      have hlt := hle e he
      rw [(Prod.mk.inj heq).1, List.mem_singleton.mp he'] at hlt
      exact Nat.not_succ_le_self _ hlt
  · intro owner expires' howner
    cases howner
    exact hhanded
  · show _ = _ ↔ row.result.isSome = true
    simp [QueueRow.claimed, QueueRow.become, h.result_eq_none hlive]
  · intro x hx
    have hx : x ∈ row.result := hx
    rw [h.result_eq_none hlive] at hx
    cases hx

end Sound

end QueueRow

/-! ## What holds of the ledger -/

variable {env}

theorem eventName_inj {t t' : UUID} {a a' : ℕ} {k k' : EventType} (ht : t < 2 ^ 128)
    (ht' : t' < 2 ^ 128) (h : eventName t a k = eventName t' a' k') : t = t' ∧ a = a' ∧ k = k' := by
  have hlength : (UuidText.text t).length = (UuidText.text t').length := by
    rw [UuidText.length_text, UuidText.length_text]
  obtain ⟨htext, hrest⟩ := List.append_inj (List.append_cancel_left h) hlength
  have hcolon : ∀ n : ℕ, ':' ∉ TextSplit.intText n := by
    intro n hmem
    rcases TextSplit.isDigit_of_mem_intText hmem with hc | hc <;> revert hc <;> decide
  have hrest := (List.cons.inj hrest).2
  have hattempt := congrArg (TextPartition.upTo ':') hrest
  have htype := congrArg (TextPartition.past ':') hrest
  rw [TextPartition.upTo_append (hcolon a), TextPartition.upTo_append (hcolon a')] at hattempt
  rw [TextPartition.past_append (hcolon a), TextPartition.past_append (hcolon a')] at htype
  have hint := congrArg TextSplit.intOf? hattempt
  rw [TextSplit.intOf?_intText, TextSplit.intOf?_intText] at hint
  refine ⟨UuidText.text_inj ht ht' htext, Int.ofNat.inj (Option.some.inj hint), ?_⟩
  cases k <;> cases k' <;> first | rfl | (revert htype; decide)

structure Inv (s : Ledger) : Prop where
  ids : (s.queue.map QueueRow.id).Nodup
  small : ∀ row ∈ s.queue, row.id < 2 ^ 128
  sound : ∀ row ∈ s.queue, row.Sound

/-- A transaction picks rows of the queue that are not final, and keeps them sound. -/
structure Writes.Valid (s : Ledger) (w : Writes) : Prop where
  queued : ∀ row ∈ w.picked, row ∈ s.queue
  live : ∀ row ∈ w.picked, row.state.isTerminal = false
  trial : ∀ row, (w.row row).trial = row.trial
  sound : ∀ row ∈ w.picked, row.Sound → (w.row row).Sound

section Commit

variable {s : Ledger} {w : Writes} {row : QueueRow}

theorem Inv.row_eq (h : Inv s) {row' : QueueRow} (hrow : row ∈ s.queue) (hrow' : row' ∈ s.queue)
    (hid : row.id = row'.id) : row = row' :=
  List.inj_on_of_nodup_map h.ids hrow hrow' hid

theorem Writes.Valid.id_after (hw : w.Valid s) (row : QueueRow) : (w.after row).id = row.id := by
  unfold Writes.after
  split
  · exact congrArg TrialV1.trialId (hw.trial row)
  · rfl

theorem Inv.after_cases (h : Inv s) (hw : w.Valid s) (hrow : row ∈ s.queue) :
    row ∈ w.picked ∧ w.after row = w.row row ∨ row ∉ w.picked ∧ w.after row = row := by
  by_cases hpicked : row ∈ w.picked
  · exact .inl ⟨hpicked, if_pos (List.mem_map_of_mem hpicked)⟩
  · refine .inr ⟨hpicked, if_neg fun hmem => hpicked ?_⟩
    obtain ⟨other, hother, hid⟩ := List.mem_map.mp hmem
    exact h.row_eq (hw.queued other hother) hrow hid ▸ hother

theorem Inv.written (h : Inv s) (hw : w.Valid s) : Inv (w.written s) where
  ids := by
    have hids : (w.written s).queue.map QueueRow.id = s.queue.map QueueRow.id := by
      rw [Writes.written, List.map_map]
      exact List.map_congr_left fun row _ => hw.id_after row
    exact hids ▸ h.ids
  small next hnext := by
    obtain ⟨row, hrow, rfl⟩ := List.mem_map.mp hnext
    rw [hw.id_after]
    exact h.small row hrow
  sound next hnext := by
    obtain ⟨row, hrow, rfl⟩ := List.mem_map.mp hnext
    rcases h.after_cases hw hrow with ⟨hpicked, hafter⟩ | ⟨-, hafter⟩ <;> rw [hafter]
    · exact hw.sound row hpicked (h.sound row hrow)
    · exact h.sound row hrow

/-- In a sound ledger the keys of the events are pairwise different. -/
theorem Inv.eventIds (hledger : Function.Injective env.ledgerUuid5) (h : Inv s) :
    (s.queue.flatMap fun row => row.events.map (eventId env row.id)).Nodup := by
  have hname : ∀ row ∈ s.queue, ∀ row' ∈ s.queue, ∀ e e', eventId env row.id e =
      eventId env row'.id e' → row.id = row'.id ∧ e.attempt = e'.attempt ∧
        e.eventType = e'.eventType := fun row hrow row' hrow' e e' heq =>
    eventName_inj (h.small row hrow) (h.small row' hrow') (String.ofList_injective (hledger heq))
  refine List.nodup_flatMap.mpr ⟨fun row hrow => ?_, ?_⟩
  · refine List.pairwise_map.mpr ((h.sound row hrow).apart.imp fun {a b} hne heq => hne ?_)
    obtain ⟨-, hattempt, htype⟩ := hname row hrow row hrow a b heq
    rw [hattempt, htype]
  · refine (List.pairwise_map.mp h.ids).imp_of_mem fun {a b} ha hb hne id hid hid' => hne ?_
    obtain ⟨e, -, rfl⟩ := List.mem_map.mp hid
    obtain ⟨e', -, heq⟩ := List.mem_map.mp hid'
    exact (hname a ha b hb e e' heq.symm).1

theorem Inv.commit (hledger : Function.Injective env.ledgerUuid5) (h : Inv s) (hw : w.Valid s) :
    w.commit env s = .ok (w.written s) := if_pos ((h.written hw).eventIds hledger)

end Commit

/-! ## What each call writes -/

def Reply.handed : Reply → List TrialClaimV1
  | .claims handed => handed
  | _ => []

/-- A call keeps the rows sound, and hands out exactly the attempts that it counts up. -/
structure Writes.Sound (s : Ledger) (reply : Reply) (w : Writes) : Prop where
  valid : w.Valid s
  nodup : w.picked.Nodup
  counts : (reply.handed = [] ∧ ∀ row, (w.row row).attempt = row.attempt) ∨
    reply.handed.map (fun claim => (claim.trialId, claim.attempt)) =
        w.picked.map (fun row => (row.id, row.attempt + 1)) ∧
      ∀ row, (w.row row).attempt = row.attempt + 1

/-- What is returned meets `P`, and a constraint is violated only by the trials of a study. -/
def Meets {α : Type} (x : Except LedgerExn α) (P : α → Prop) : Prop :=
  (∀ a, x = .ok a → P a) ∧
    ∀ table, x = .error (.uniqueViolation table) → table = "strategy_lab_trials"

namespace Meets

variable {α β : Type} {P : α → Prop} {Q : β → Prop}

theorem ok {a : α} (h : P a) : Meets (.ok a) P := by
  refine ⟨?_, nofun⟩
  rintro _ ⟨⟩
  exact h

theorem refused (message : String) : Meets (refuse message) P := ⟨nofun, nofun⟩

theorem check (p : Prop) [Decidable p] (message : String) :
    Meets (if p then .ok () else refuse message) fun _ => True := by
  split
  · exact .ok trivial
  · exact .refused _

theorem bind {x : Except LedgerExn α} {f : α → Except LedgerExn β} (hx : Meets x P)
    (hf : ∀ a, P a → Meets (f a) Q) : Meets (x >>= f) Q := by
  cases x with
  | ok a => exact hf a (hx.1 a rfl)
  | error e => exact ⟨nofun, fun table he => hx.2 table (by cases he; rfl)⟩

end Meets

section Calls

variable {s : Ledger} {held : TrialClaimV1} {now : ℤ} {row : QueueRow}

theorem utcNow_meets (clock : DateTime) : Meets (utcNow clock) fun _ => True := by
  cases clock with
  | aware t => exact .ok trivial
  | naive t => exact .refused _

theorem checkLease_meets (lease : Option ℤ) : Meets (checkLease lease) fun _ => True := by
  cases lease with
  | some lease => exact .ok trivial
  | none => exact .refused _

/-- A lease is held by its worker, in its attempt, and it has not expired. -/
def Holds (s : Ledger) (held : TrialClaimV1) (now : ℤ) (row : QueueRow) : Prop :=
  row ∈ s.queue ∧ row.id = held.trialId ∧ row.attempt = held.attempt ∧
    ∃ expires, row.state = .claimed held.worker expires ∧ now < expires

theorem holdLease_meets : Meets (holdLease s held now) (Holds s held now) := by
  unfold holdLease
  split
  · exact .refused _
  rename_i found hfind
  split
  · rename_i owner expires hstate
    split
    · exact .refused _
    rename_i hsame
    split
    · exact .refused _
    rename_i hlive
    obtain ⟨hattempt, howner⟩ := not_or.mp hsame
    refine .ok ⟨List.mem_of_find?_eq_some hfind, by simpa using List.find?_some hfind,
      not_not.mp hattempt, expires, ?_, not_le.mp hlive⟩
    rw [hstate, not_not.mp howner]
  · exact .refused _

/-- What a call is to write is sound. -/
def Planned (s : Ledger) (x : Except LedgerExn (Reply × Writes)) : Prop :=
  Meets x fun result => result.2.Sound s result.1

/-- A call of the holder, for the one row that it holds. -/
theorem sound_of_held (h : Holds s held now row) {reply : Reply} {f : QueueRow → QueueRow}
    (hreply : reply.handed = []) (htrial : ∀ row, (f row).trial = row.trial)
    (hattempt : ∀ row, (f row).attempt = row.attempt)
    (hsound : ∀ expires, row.state = .claimed held.worker expires → row.Sound → (f row).Sound) :
    Writes.Sound s reply ⟨[row], f⟩ := by
  obtain ⟨hrow, -, -, expires, hstate, -⟩ := h
  refine ⟨⟨?_, ?_, htrial, ?_⟩, List.nodup_singleton _, .inl ⟨hreply, hattempt⟩⟩
  · simpa using hrow
  · simp [hstate, TrialStateV1.isTerminal]
  · simpa using hsound expires hstate

theorem renew_planned (lease : Option ℤ) (clock : DateTime) :
    Planned s (renew s held lease clock) := by
  refine .bind (checkLease_meets lease) fun lease _ => ?_
  refine .bind (utcNow_meets clock) fun now _ => ?_
  refine .bind holdLease_meets fun row hrow => ?_
  exact .ok (sound_of_held hrow rfl (fun _ => rfl) (fun _ => rfl) fun _ hstate h =>
    h.renewed hstate _)

theorem fail_planned (reason : String) (clock : DateTime) :
    Planned s (fail s held reason clock) := by
  refine .bind (.check _ _) fun _ _ => ?_
  refine .bind (utcNow_meets clock) fun now _ => ?_
  refine .bind holdLease_meets fun row hrow => ?_
  have ⟨_, _, hattempt, _⟩ := hrow
  refine .ok (sound_of_held hrow rfl (fun _ => rfl) (fun _ => rfl) fun expires hstate h => ?_)
  refine h.become ?_ hattempt.symm ?_ rfl ?_ nofun nofun <;> rw [hstate]
  · intro k hk
    cases k <;> first | rfl | cases hk
  · rfl
  · nofun

theorem complete_planned (hs : Inv s) (outcome : TrialOutcomeV1) (metrics : List (String × Json))
    (clock : DateTime) : Planned s (complete env s held outcome metrics clock) := by
  refine .bind (utcNow_meets clock) fun now _ => ?_
  refine .bind holdLease_meets fun row hrow => ?_
  refine @Meets.bind _ _ (fun _ => True) _ _ _ ?_ fun study _ => ?_
  · unfold findStudy
    split
    · exact .ok trivial
    · exact .refused _
  refine @Meets.bind _ _ (fun _ => True) _ _ _ ?_ fun hash _ => ?_
  · unfold resultContentHash
    split
    · exact .ok trivial
    · exact .refused _
    · exact ⟨nofun, nofun⟩
  have ⟨hqueued, _, hattempt, expires, hstate, _⟩ := hrow
  have hnone : row.result = none := (hs.sound row hqueued).result_eq_none (by rw [hstate]; nofun)
  simp only [insertResult, hnone, Option.isSome_none, Bool.false_eq_true, if_false, Except.ok_bind]
  exact .ok (sound_of_held hrow rfl (fun _ => rfl) (fun _ => rfl) fun _ hstate h =>
    h.completed hstate hattempt.symm hattempt.symm rfl)

theorem moveRows_planned (h : Inv s) (studyId : UUID) (reason : String) (clock : DateTime)
    {moved : TrialStateV1 → Bool} {target : TrialStateV1} {type : EventType}
    (hkept : ∀ state, moved state = true → ∀ k, admits state k = true → admits target k = true)
    (hnew : ∀ state, moved state = true → admits state type = false)
    (htype : admits target type = true)
    (hlive : ∀ state, moved state = true → state.isTerminal = false)
    (hdone : target ≠ .succeeded) (hholder : ∀ owner expires, target ≠ .claimed owner expires) :
    Planned s (moveRows s studyId reason clock moved target type) := by
  refine .bind (.check _ _) fun _ _ => ?_
  refine .bind (utcNow_meets clock) fun now _ => ?_
  refine .ok ⟨⟨fun row hrow => List.mem_of_mem_filter hrow, fun row hrow => ?_, fun _ => rfl,
    fun row hrow hsound => ?_⟩, (h.ids.of_map _).filter _, .inl ⟨rfl, fun _ => rfl⟩⟩ <;>
    have hmoved := (Bool.and_eq_true_iff.mp (List.mem_filter.mp hrow).2).2
  · exact hlive _ hmoved
  · refine hsound.become (hkept _ hmoved) rfl (hnew _ hmoved) htype ?_ hdone hholder
    intro hstate
    have hterminal := hlive _ hmoved
    rw [hstate] at hterminal
    cases hterminal

theorem cancelStudy_planned (h : Inv s) (studyId : UUID) (reason : String) (clock : DateTime) :
    Planned s (cancelStudy s studyId reason clock) := by
  refine moveRows_planned h studyId reason clock ?_ ?_ rfl ?_ nofun nofun <;>
    intro state hstate <;> cases state <;> first | rfl | cases hstate
  all_goals
    intro k hk
    cases k <;> first | rfl | cases hk

theorem claim_planned (h : Inv s) (studyId : UUID) (worker : String) (limit : ℤ)
    (lease : Option ℤ) (clock : DateTime) (locked : List UUID) :
    Planned s (claim env s studyId worker limit lease clock locked) := by
  refine .bind (.check _ _) fun _ _ => ?_
  dsimp only
  split
  · exact .refused _
  refine .bind (checkLease_meets lease) fun lease _ => ?_
  refine .bind (utcNow_meets clock) fun now _ => ?_
  have hpicked : ∀ row ∈ (sortBy (fun row : QueueRow => row.trial.ordinal)
      (s.queue.filter fun row => row.claimable studyId now && decide (row.id ∉ locked))).take
        limit.toNat, row ∈ s.queue ∧ row.claimable studyId now = true := by
    intro row hrow
    obtain ⟨hqueued, hrow⟩ := List.mem_filter.mp (mem_sortBy.mp (List.mem_of_mem_take hrow))
    exact ⟨hqueued, (Bool.and_eq_true_iff.mp hrow).1⟩
  refine .ok ⟨⟨fun row hrow => (hpicked row hrow).1, fun row hrow => ?_, fun _ => rfl,
    fun row hrow hsound => hsound.claimed worker _ now (hpicked row hrow).2⟩, ?_,
    .inr ⟨?_, fun _ => rfl⟩⟩
  · have hclaimable := (hpicked row hrow).2
    unfold QueueRow.claimable at hclaimable
    cases hstate : row.state <;> simp [hstate] at hclaimable <;> rfl
  · refine ((sortBy_perm _ _).nodup_iff.mpr ?_).sublist (List.take_sublist _ _)
    exact (h.ids.of_map _).filter _
  · rw [Reply.handed, List.map_map]
    rfl

end Calls

/-! ## Registration -/

theorem trialId_lt {spec : StudySpecV1 env.toEnv} (huuid : ∀ text, env.uuid5 text < 2 ^ 128)
    {trials : List TrialV1} (h : spec.trials = .ok trials) : ∀ trial ∈ trials,
      trial.trialId < 2 ^ 128 := by
  intro trial htrial
  obtain ⟨indices, -, h⟩ := Except.bind_eq_ok.mp h
  obtain ⟨pair, -, h⟩ := Except.mem_of_mapM h htrial
  obtain ⟨point, -, h⟩ := Except.bind_eq_ok.mp h
  obtain ⟨index, -, h⟩ := Except.bind_eq_ok.mp h
  obtain ⟨parameters, -, h⟩ := Except.bind_eq_ok.mp h
  obtain ⟨hash, -, h⟩ := Except.bind_eq_ok.mp h
  obtain ⟨content, -, h⟩ := Except.bind_eq_ok.mp h
  obtain ⟨study, -, h⟩ := Except.bind_eq_ok.mp h
  cases h
  exact huuid _

/-- Rows that were never claimed are added to the queue. -/
def Extends (s s' : Ledger) : Prop :=
  (s'.queue.map QueueRow.id).Nodup ∧ ∃ rows : List QueueRow, s'.queue = s.queue ++ rows ∧
    ∀ row ∈ rows, row.attempt = 0 ∧ row.Sound ∧ row.id < 2 ^ 128

theorem Inv.extends {s s' : Ledger} (h : Inv s) (he : Extends s s') : Inv s' := by
  obtain ⟨hids, rows, hqueue, hrows⟩ := he
  refine ⟨hids, fun row hrow => ?_, fun row hrow => ?_⟩ <;>
    rcases List.mem_append.mp (hqueue ▸ hrow) with hold | hnew
  · exact h.small row hold
  · exact (hrows row hnew).2.2
  · exact h.sound row hold
  · exact (hrows row hnew).2.1

theorem insertTrials_meets {s : Ledger} {trials : List TrialV1}
    (hsmall : ∀ trial ∈ trials, trial.trialId < 2 ^ 128) :
    Meets (insertTrials s trials) (Extends s) := by
  unfold insertTrials
  dsimp only
  split
  · rename_i hnodup
    refine .ok ⟨hnodup.1, _, rfl, fun row hrow => ?_⟩
    obtain ⟨trial, htrial, rfl⟩ := List.mem_map.mp hrow
    refine ⟨rfl, ?_, hsmall trial htrial⟩
    constructor <;> simp
  · refine ⟨nofun, ?_⟩
    rintro table ⟨⟩
    rfl

theorem liftStudy_meets {α : Type} (x : Except Exn α) :
    Meets (liftStudy x) fun a => x = .ok a := by
  cases x with
  | ok a => exact .ok rfl
  | error e => exact ⟨nofun, nofun⟩

/-- A registration adds rows or none; only its trials can clash. -/
theorem registerStudy_meets {s : Ledger} (h : Inv s) (huuid : ∀ text, env.uuid5 text < 2 ^ 128)
    (spec : StudySpecV1 env.toEnv) (clock : DateTime) :
    Meets (registerStudy env s spec clock) fun result =>
      Extends s result.2 ∧ result.1.handed = [] := by
  refine .bind (liftStudy_meets _) fun hash _ => ?_
  refine .bind (liftStudy_meets _) fun id _ => ?_
  refine .bind (utcNow_meets clock) fun now _ => ?_
  refine @Meets.bind _ _ (fun result => Extends s result.2) _ _ _ ?_ fun result he => ?_
  · unfold insertStudy
    split
    · split
      · exact .refused _
      · exact .ok ⟨h.ids, [], by simp, nofun⟩
    · refine .bind (liftStudy_meets _) fun trials htrials => ?_
      exact .bind (insertTrials_meets (trialId_lt huuid htrials)) fun s' he => .ok he
  · dsimp only
    split
    · exact .refused _
    · exact .ok ⟨he, rfl⟩

/-! ## Runs -/

/-- What a call that returns does: it moves rows, or it adds some. -/
def Does (s s' : Ledger) (reply : Reply) : Prop :=
  (∃ w : Writes, w.Sound s reply ∧ s' = w.written s) ∨ Extends s s' ∧ reply.handed = []

theorem run_meets {s : Ledger} (hledger : Function.Injective env.ledgerUuid5)
    (huuid : ∀ text, env.uuid5 text < 2 ^ 128) (h : Inv s) (call : Call env) :
    Meets (call.run env s) fun result => Does s result.2 result.1 := by
  have hcommitted : ∀ x, Planned s x →
      Meets (committed env s x) fun result => Does s result.2 result.1 := by
    intro x hx
    refine .bind hx fun result hsound => ?_
    show Meets (result.2.commit env s >>= _) _
    rw [h.commit hledger hsound.valid, Except.ok_bind]
    exact .ok (.inl ⟨result.2, hsound, rfl⟩)
  cases call with
  | register spec clock =>
      obtain ⟨hok, herror⟩ := registerStudy_meets h huuid spec clock
      exact ⟨fun result hresult => .inr (hok result hresult), herror⟩
  | claim studyId worker limit lease clock locked =>
      exact hcommitted _ (claim_planned h studyId worker limit lease clock locked)
  | renew held lease clock => exact hcommitted _ (renew_planned lease clock)
  | complete held outcome metrics clock =>
      exact hcommitted _ (complete_planned h outcome metrics clock)
  | fail held reason clock => exact hcommitted _ (fail_planned reason clock)
  | retryFailed studyId reason clock =>
      refine hcommitted _ (moveRows_planned h studyId reason clock ?_ ?_ rfl ?_ nofun nofun) <;>
        intro state hstate <;> cases state <;> first | rfl | cases hstate
      intro k hk
      cases k <;> first | rfl | cases hk
  | cancelStudy studyId reason clock =>
      exact hcommitted _ (cancelStudy_planned h studyId reason clock)

theorem step_cases {s : Ledger} (hledger : Function.Injective env.ledgerUuid5)
    (huuid : ∀ text, env.uuid5 text < 2 ^ 128) (h : Inv s) (call : Call env) :
    ((∃ e, call.run env s = .error e) ∧ step env s call = s) ∨
      ∃ reply, call.run env s = .ok (reply, step env s call) ∧ Does s (step env s call) reply := by
  have hmeets := run_meets hledger huuid h call
  unfold step
  cases hrun : call.run env s with
  | error e => exact .inl ⟨⟨e, rfl⟩, rfl⟩
  | ok result => exact .inr ⟨result.1, rfl, hmeets.1 result hrun⟩

theorem Does.inv {s s' : Ledger} {reply : Reply} (h : Inv s) (hdoes : Does s s' reply) :
    Inv s' := by
  rcases hdoes with ⟨w, hw, rfl⟩ | ⟨he, -⟩
  · exact h.written hw.valid
  · exact h.extends he

theorem Inv.step {s : Ledger} (hledger : Function.Injective env.ledgerUuid5)
    (huuid : ∀ text, env.uuid5 text < 2 ^ 128) (h : Inv s) (call : Call env) :
    Inv (step env s call) := by
  rcases step_cases hledger huuid h call with ⟨-, hs⟩ | ⟨reply, -, hdoes⟩
  · rwa [hs]
  · exact hdoes.inv h

/-! ## Two workers, one of which loses its lease -/

def foldedText (text : String) : UUID :=
  text.toList.foldl (fun n c => n * 31 + c.toNat) 7 % 2 ^ 128

def sampleEnv : LedgerEnv where
  toEnv := { StrategyLabStudy.plainEnv with uuid5 := foldedText }
  ledgerUuid5 := StrategyLabStudy.plainEnv.uuid5
  isoformat := toString

theorem sampleLedger_injective : Function.Injective sampleEnv.ledgerUuid5 :=
  fun _ _ h => Json.encode_text_inj h

theorem sampleUuid_lt (text : String) : sampleEnv.uuid5 text < 2 ^ 128 :=
  Nat.mod_lt _ (by decide)

theorem sampleDeclaration_valid : StrategyLabStudy.checkStudy sampleEnv.toEnv
    StrategyLabStudy.smallDeclaration = .ok () := by decide +kernel

def sampleStudy : StudySpecV1 sampleEnv.toEnv :=
  ⟨StrategyLabStudy.smallDeclaration, sampleDeclaration_valid⟩

theorem sampleReason : checkReason "stopped" = .ok () := by decide

def sampleTrial : UUID :=
  ((sampleStudy.trials.toOption.bind List.head?).map TrialV1.trialId).getD 0

def claimAs (worker : String) (now : ℤ) : Call sampleEnv :=
  .claim (sampleStudy.studyId.toOption.getD 0) worker 1 (some 10) (.aware now) []

/-- The lease of `w1` has expired when `w2` claims, and the study is cancelled under `w2`. -/
def sampleCalls : List (Call sampleEnv) :=
  [.register sampleStudy (.aware 0), claimAs "w1" 1, claimAs "w2" 20,
    .cancelStudy (sampleStudy.studyId.toOption.getD 0) "stopped" (.aware 25)]

/-! ## The results -/

/-- In every ledger that calls lead to, whatever claims they present: no further call fails on the
key of an event or of a result; a trial has one row, which is `SUCCEEDED` exactly when it has its
result; and that is of the attempt of the row, which was handed to the worker of the result. -/
theorem ledger_run_sound (hledger : Function.Injective env.ledgerUuid5)
    (huuid : ∀ text, env.uuid5 text < 2 ^ 128) (calls : List (Call env)) :
    let s := Run.exec (step env) .empty calls
    (∀ (call : Call env) (table : String),
      call.run env s = .error (.uniqueViolation table) → table = "strategy_lab_trials") ∧
    (s.queue.map QueueRow.id).Nodup ∧
    ∀ row ∈ s.queue, (row.state = .succeeded ↔ row.result.isSome = true) ∧
      ∀ x ∈ row.result, x.attempt = row.attempt ∧ Handed row.events x.attempt x.worker := by
  intro s
  have h : Inv s := Run.exec_inv (fun _ call h => h.step hledger huuid call) calls
    ⟨List.nodup_nil, nofun, nofun⟩
  exact ⟨fun call => (run_meets hledger huuid h call).2, h.ids,
    fun row hrow => ⟨(h.sound row hrow).done, (h.sound row hrow).result⟩⟩

theorem ledger_run_sound_sample :
    let s := Run.exec (step sampleEnv) .empty sampleCalls
    (∀ (call : Call sampleEnv) (table : String),
      call.run sampleEnv s = .error (.uniqueViolation table) → table = "strategy_lab_trials") ∧
    (s.queue.map QueueRow.id).Nodup ∧
    ∀ row ∈ s.queue, (row.state = .succeeded ↔ row.result.isSome = true) ∧
      ∀ x ∈ row.result, x.attempt = row.attempt ∧ Handed row.events x.attempt x.worker :=
  ledger_run_sound sampleLedger_injective sampleUuid_lt sampleCalls

variable (env)

/-- The claims that the calls hand out, one after another. -/
def handedOut : Ledger → List (Call env) → List TrialClaimV1
  | _, [] => []
  | s, call :: calls =>
      (match call.run env s with
        | .ok (reply, _) => reply.handed
        | .error _ => []) ++ handedOut (step env s call) calls

/-- The attempt of the row of a trial. -/
def attemptOf (s : Ledger) (trialId : UUID) : ℕ :=
  ((s.queue.find? fun row => decide (row.id = trialId)).map QueueRow.attempt).getD 0

/-- The attempts of a trial in some claims. -/
def attemptsIn (trialId : UUID) (claims : List TrialClaimV1) : List ℕ :=
  (claims.filter fun claim => decide (claim.trialId = trialId)).map TrialClaimV1.attempt

variable {env}

section Attempts

variable {s : Ledger} {row : QueueRow} {trialId : UUID}

theorem attemptOf_eq (hids : (s.queue.map QueueRow.id).Nodup) (hrow : row ∈ s.queue) :
    attemptOf s row.id = row.attempt := by
  unfold attemptOf
  cases hfind : s.queue.find? fun other => decide (other.id = row.id) with
  | none => simpa using List.find?_eq_none.mp hfind row hrow
  | some other =>
      have hid : other.id = row.id := by simpa using List.find?_some hfind
      rw [List.inj_on_of_nodup_map hids (List.mem_of_find?_eq_some hfind) hrow hid]
      rfl

theorem attemptOf_eq_zero (h : ∀ row ∈ s.queue, row.id = trialId → row.attempt = 0) :
    attemptOf s trialId = 0 := by
  unfold attemptOf
  cases hfind : s.queue.find? fun other => decide (other.id = trialId) with
  | none => rfl
  | some other =>
      exact h other (List.mem_of_find?_eq_some hfind) (by simpa using List.find?_some hfind)

theorem attemptsIn_eq {claims : List TrialClaimV1} {picked : List QueueRow}
    (h : claims.map (fun claim => (claim.trialId, claim.attempt)) =
      picked.map fun row => (row.id, row.attempt + 1)) :
    attemptsIn trialId claims =
      (picked.filter fun row => decide (row.id = trialId)).map fun row => row.attempt + 1 := by
  have hfilter := congrArg (fun pairs : List (UUID × ℕ) =>
    (pairs.filter fun pair => decide (pair.1 = trialId)).map Prod.snd) h
  simp only [List.filter_map, List.map_map] at hfilter
  exact hfilter

variable (trialId) in
/-- A call hands out the next attempt of a trial, or none. -/
theorem Does.attempts {s' : Ledger} {reply : Reply} (h : Inv s) (hdoes : Does s s' reply) :
    attemptOf s' trialId = attemptOf s trialId ∧ attemptsIn trialId reply.handed = [] ∨
      attemptOf s' trialId = attemptOf s trialId + 1 ∧
        attemptsIn trialId reply.handed = [attemptOf s trialId + 1] := by
  have hids := (hdoes.inv h).ids
  by_cases hqueued : ∃ row ∈ s.queue, row.id = trialId
  · obtain ⟨row, hrow, rfl⟩ := hqueued
    rw [attemptOf_eq h.ids hrow]
    rcases hdoes with ⟨w, hw, rfl⟩ | ⟨⟨-, rows, hqueue, -⟩, hhanded⟩
    · have hafter : attemptOf (w.written s) row.id = (w.after row).attempt := by
        rw [← hw.valid.id_after row]
        exact attemptOf_eq hids (List.mem_map_of_mem hrow)
      have hsame : ∀ other ∈ w.picked, other.id = row.id ↔ other = row := fun other hother =>
        ⟨h.row_eq (hw.valid.queued other hother) hrow, fun heq => congrArg QueueRow.id heq⟩
      rw [hafter]
      rcases hw.counts with ⟨hhanded, hattempt⟩ | ⟨hhanded, hattempt⟩
      · rw [hhanded]
        refine .inl ⟨?_, rfl⟩
        rcases h.after_cases hw.valid hrow with ⟨-, heq⟩ | ⟨-, heq⟩ <;> rw [heq]
        exact hattempt row
      · rw [attemptsIn_eq hhanded]
        rcases h.after_cases hw.valid hrow with ⟨hpicked, heq⟩ | ⟨hpicked, heq⟩ <;> rw [heq]
        · refine .inr ⟨hattempt row, ?_⟩
          have hone : (w.picked.filter fun other => decide (other.id = row.id)) = [row] := by
            refine List.perm_singleton.mp ((List.perm_ext_iff_of_nodup (hw.nodup.filter _)
              (List.nodup_singleton _)).mpr fun other => ?_)
            simp only [List.mem_filter, decide_eq_true_eq, List.mem_singleton]
            constructor
            · exact fun hother => (hsame other hother.1).mp hother.2
            · rintro rfl
              exact ⟨hpicked, rfl⟩
          rw [hone]
          rfl
        · refine .inl ⟨rfl, ?_⟩
          rw [List.filter_eq_nil_iff.mpr fun other hother => ?_, List.map_nil]
          simpa using fun hid => hpicked ((hsame other hother).mp hid ▸ hother)
    · have hmem : row ∈ s'.queue := hqueue ▸ List.mem_append_left _ hrow
      exact .inl ⟨attemptOf_eq hids hmem, by rw [hhanded]; rfl⟩
  · have hnone : ∀ row ∈ s.queue, row.id ≠ trialId := fun row hrow hid => hqueued ⟨row, hrow, hid⟩
    rw [attemptOf_eq_zero fun row hrow hid => absurd hid (hnone row hrow)]
    refine .inl ?_
    rcases hdoes with ⟨w, hw, rfl⟩ | ⟨⟨-, rows, hqueue, hrows⟩, hhanded⟩
    · constructor
      · refine attemptOf_eq_zero fun next hnext hid => ?_
        obtain ⟨row, hrow, rfl⟩ := List.mem_map.mp hnext
        exact absurd ((hw.valid.id_after row).symm.trans hid) (hnone row hrow)
      · rcases hw.counts with ⟨hhanded, -⟩ | ⟨hhanded, -⟩
        · rw [hhanded]
          rfl
        · rw [attemptsIn_eq hhanded, List.filter_eq_nil_iff.mpr fun other hother => ?_,
            List.map_nil]
          simpa using hnone other (hw.valid.queued other hother)
    · rw [hhanded]
      refine ⟨attemptOf_eq_zero fun row hrow hid => ?_, rfl⟩
      rcases List.mem_append.mp (hqueue ▸ hrow) with hold | hnew
      · exact absurd hid (hnone row hold)
      · exact (hrows row hnew).1

theorem attempts_of_inv (hledger : Function.Injective env.ledgerUuid5)
    (huuid : ∀ text, env.uuid5 text < 2 ^ 128) (trialId : UUID) (calls : List (Call env)) :
    ∀ {s : Ledger}, Inv s → ∃ n,
      attemptOf (Run.exec (step env) s calls) trialId = attemptOf s trialId + n ∧
        attemptsIn trialId (handedOut env s calls) = List.range' (attemptOf s trialId + 1) n := by
  induction calls with
  | nil => exact fun _ => ⟨0, rfl, rfl⟩
  | cons call calls ih =>
      intro s h
      obtain ⟨n, hattempt, hhanded⟩ := ih (h.step hledger huuid call)
      have happend : attemptsIn trialId (handedOut env s (call :: calls)) =
          attemptsIn trialId (match call.run env s with
            | .ok (reply, _) => reply.handed
            | .error _ => []) ++ attemptsIn trialId (handedOut env (step env s call) calls) := by
        simp [handedOut, attemptsIn]
      rw [Run.exec_cons, happend, hattempt, hhanded]
      rcases step_cases hledger huuid h call with ⟨⟨e, he⟩, hs⟩ | ⟨reply, hreply, hdoes⟩
      · rw [he, hs]
        exact ⟨n, rfl, rfl⟩
      · rw [hreply]
        rcases hdoes.attempts trialId h with ⟨hsame, hnone⟩ | ⟨hnext, hone⟩
        · rw [hsame, hnone]
          exact ⟨n, rfl, rfl⟩
        · rw [hnext, hone]
          exact ⟨n + 1, by omega, by rw [List.range'_succ]; rfl⟩

end Attempts

/-- Over any run, with whatever calls of whatever workers in between, the claims that are handed
out for a trial carry the attempts 1, 2, 3 and so on, up to the attempt of its row: no attempt is
handed out twice, and none is left out. -/
theorem claims_count_attempts (hledger : Function.Injective env.ledgerUuid5)
    (huuid : ∀ text, env.uuid5 text < 2 ^ 128) (calls : List (Call env)) (trialId : UUID) :
    attemptsIn trialId (handedOut env .empty calls) =
      List.range' 1 (attemptOf (Run.exec (step env) .empty calls) trialId) := by
  obtain ⟨n, hattempt, hhanded⟩ := attempts_of_inv hledger huuid trialId calls
    (s := .empty) ⟨List.nodup_nil, nofun, nofun⟩
  rw [hattempt, hhanded]
  simp [attemptOf, Ledger.empty]

theorem claims_count_attempts_sample :
    attemptsIn sampleTrial (handedOut sampleEnv .empty sampleCalls) =
      List.range' 1 (attemptOf (Run.exec (step sampleEnv) .empty sampleCalls) sampleTrial) :=
  claims_count_attempts sampleLedger_injective sampleUuid_lt sampleCalls sampleTrial

section Cancelled

variable {s : Ledger} {row : QueueRow}

/-- No call touches a row that is succeeded or cancelled. -/
theorem Does.final {s' : Ledger} {reply : Reply} (h : Inv s) (hdoes : Does s s' reply)
    (hrow : row ∈ s.queue) (hterminal : row.state.isTerminal = true) : row ∈ s'.queue := by
  rcases hdoes with ⟨w, hw, rfl⟩ | ⟨⟨-, rows, hqueue, -⟩, -⟩
  · rcases h.after_cases hw.valid hrow with ⟨hpicked, -⟩ | ⟨-, hafter⟩
    · rw [hw.valid.live row hpicked] at hterminal
      cases hterminal
    · exact List.mem_map.mpr ⟨row, hrow, hafter⟩
  · rw [hqueue]
    exact List.mem_append_left _ hrow

theorem final_of_inv (hledger : Function.Injective env.ledgerUuid5)
    (huuid : ∀ text, env.uuid5 text < 2 ^ 128) (hterminal : row.state.isTerminal = true)
    (calls : List (Call env)) (h : Inv s) (hrow : row ∈ s.queue) :
    row ∈ (Run.exec (step env) s calls).queue ∧
      attemptsIn row.id (handedOut env s calls) = [] := by
  have hkept : Inv (Run.exec (step env) s calls) ∧ row ∈ (Run.exec (step env) s calls).queue := by
    refine @Run.exec_inv _ _ (step env) (fun s => Inv s ∧ row ∈ s.queue)
      (fun s call ⟨h, hrow⟩ => ?_) s calls ⟨h, hrow⟩
    refine ⟨h.step hledger huuid call, ?_⟩
    rcases step_cases hledger huuid h call with ⟨-, hs⟩ | ⟨reply, -, hdoes⟩
    · rwa [hs]
    · exact hdoes.final h hrow hterminal
  obtain ⟨n, hattempt, hhanded⟩ := attempts_of_inv hledger huuid row.id calls h
  rw [attemptOf_eq hkept.1.ids hkept.2, attemptOf_eq h.ids hrow] at hattempt
  obtain rfl : n = 0 := by omega
  exact ⟨hkept.2, hhanded⟩

theorem terminal_of_cancelStudy (hledger : Function.Injective env.ledgerUuid5) (h : Inv s)
    (studyId : UUID) {reason : String} (hreason : checkReason reason = .ok ()) (now : ℤ) :
    ∀ row ∈ (step env s (.cancelStudy studyId reason (.aware now))).queue,
      row.trial.studyId = studyId → row.state.isTerminal = true := by
  have hplan : ∃ reply w, cancelStudy s studyId reason (.aware now) = .ok (reply, w) ∧
      (∀ row ∈ s.queue, row.trial.studyId = studyId → row ∉ w.picked →
        row.state.isTerminal = true) ∧ ∀ row, (w.row row).state = .cancelled := by
    unfold cancelStudy moveRows
    rw [hreason]
    refine ⟨_, _, rfl, fun row hrow hstudy hout => ?_, fun _ => rfl⟩
    simpa [hrow, hstudy] using hout
  obtain ⟨reply, w, hcall, hleft, hcancelled⟩ := hplan
  have hsound : w.Sound s reply := (cancelStudy_planned h studyId reason _).1 _ hcall
  have hstep : step env s (.cancelStudy studyId reason (.aware now)) = w.written s := by
    simp only [step, Call.run, hcall, committed, Except.ok_bind, h.commit hledger hsound.valid]
    rfl
  rw [hstep]
  intro next hnext hstudy
  obtain ⟨row, hrow, rfl⟩ := List.mem_map.mp hnext
  rcases h.after_cases hsound.valid hrow with ⟨-, hafter⟩ | ⟨hout, hafter⟩ <;>
    rw [hafter] at hstudy ⊢
  · rw [hcancelled]
    rfl
  · exact hleft row hrow hstudy hout

end Cancelled

/-- Once a study is cancelled, every row of it is cancelled or succeeded, for good: no later call
changes the row, and none is handed an attempt of its trial. -/
theorem cancelled_for_good (hledger : Function.Injective env.ledgerUuid5)
    (huuid : ∀ text, env.uuid5 text < 2 ^ 128) (calls later : List (Call env)) (studyId : UUID)
    {reason : String} (hreason : checkReason reason = .ok ()) (now : ℤ) :
    let s := step env (Run.exec (step env) .empty calls) (.cancelStudy studyId reason (.aware now))
    ∀ row ∈ s.queue, row.trial.studyId = studyId → row.state.isTerminal = true ∧
      row ∈ (Run.exec (step env) s later).queue ∧
      attemptsIn row.id (handedOut env s later) = [] := by
  intro s row hrow hstudy
  have h : Inv (Run.exec (step env) .empty calls) :=
    Run.exec_inv (fun _ call h => h.step hledger huuid call) calls ⟨List.nodup_nil, nofun, nofun⟩
  have hterminal := terminal_of_cancelStudy hledger h studyId hreason now row hrow hstudy
  exact ⟨hterminal, final_of_inv hledger huuid hterminal later (h.step hledger huuid _) hrow⟩

theorem cancelled_for_good_sample :
    let s := step sampleEnv (Run.exec (step sampleEnv) .empty (sampleCalls.take 3))
      (.cancelStudy (sampleStudy.studyId.toOption.getD 0) "stopped" (.aware 25))
    ∀ row ∈ s.queue, row.trial.studyId = sampleStudy.studyId.toOption.getD 0 →
      row.state.isTerminal = true ∧
      row ∈ (Run.exec (step sampleEnv) s [claimAs "w1" 30]).queue ∧
      attemptsIn row.id (handedOut sampleEnv s [claimAs "w1" 30]) = [] :=
  cancelled_for_good sampleLedger_injective sampleUuid_lt _ _ _ sampleReason 25

end StrategyLabLedger

end TradePlatform
