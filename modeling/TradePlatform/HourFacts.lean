/-
# `TradePlatform.HourFacts` — what the proven runs show about an hour

`hour_facts_v1` of `first_party_capture_hourly_acceptance_v1.py`: how much of an hour the best run
that reaches its end leaves unproven, and the runs that stop inside it.  The runs of a session are
the stretches of its windows that rollovers link, as many as can be (`Stretched`), so the facts of
an hour are those of the stretches, session by session.
-/
import TradePlatform.HourlyAcceptanceRuns
import TradePlatform.Lib.Stretches

namespace TradePlatform

namespace HourlyAcceptance

open CaptureArchive

/-! ## The code -/

structure HourFactsV1 where
  hourStartUtcNanos : ℤ
  reachingUnprovenNanos : Option ℤ
  stops : List (ℤ × EndProof)
deriving DecidableEq

/-- The pairs `(end, end proof)` compare as pairs of a number and a text. -/
def stopKey (stop : ℤ × EndProof) : ℤ ×ₗ String := toLex (stop.1, stop.2.value)

def Reaches (hourStart : ℤ) (run : ProvenRunV1) : Prop :=
  hourStart + hourNanos ≤ run.endUtcNanos ∧
    run.unprovenNanos hourStart (hourStart + hourNanos) < hourNanos

instance (hourStart : ℤ) (run : ProvenRunV1) : Decidable (Reaches hourStart run) :=
  inferInstanceAs (Decidable (_ ∧ _))

def Stops (hourStart : ℤ) (run : ProvenRunV1) : Prop :=
  (hourStart < run.endUtcNanos ∧ run.endUtcNanos < hourStart + hourNanos) ∧
    ¬ (run.endProof = .operatorBoundedStop ∧ run.startUtcNanos < hourStart)

instance (hourStart : ℤ) (run : ProvenRunV1) : Decidable (Stops hourStart run) :=
  inferInstanceAs (Decidable (_ ∧ _))

def reaching (hourStart : ℤ) (runs : List ProvenRunV1) : List ℤ :=
  (runs.filter fun run => decide (Reaches hourStart run)).map fun run =>
    run.unprovenNanos hourStart (hourStart + hourNanos)

def stopsOf (hourStart : ℤ) (runs : List ProvenRunV1) : List (ℤ × EndProof) :=
  (runs.filter fun run => decide (Stops hourStart run)).map fun run =>
    (run.endUtcNanos, run.endProof)

def hourFactsV1 (runs : List ProvenRunV1) (hourStart : ℤ) : Except Exn HourFactsV1 :=
  if hourStart % hourNanos ≠ 0 then refuse "hour_start_is_not_on_the_utc_hour_grid"
  else
    .ok ⟨hourStart, (reaching hourStart runs).min?, sortBy stopKey (stopsOf hourStart runs)⟩

/-! ## Stretches of linked windows -/

instance (a b : ProvenWindowV1) : Decidable (Linked a b) :=
  decidable_of_iff (a.interval.endProof = .utcDayRollover ∧
      a.interval.endUtcNanos ≤ b.interval.startUtcNanos ∧
      b.interval.startUtcNanos / dayNanos = (a.interval.endUtcNanos - 1) / dayNanos + 1)
    ⟨fun h => ⟨h.1, h.2.1, h.2.2⟩, fun h => ⟨h.rollover, h.after, h.nextDay⟩⟩

def linked (a b : ProvenWindowV1) : Bool := decide (Linked a b)

def sessionWindows (id : UUID) (windows : List ProvenWindowV1) : List ProvenWindowV1 :=
  windows.filter fun window => decide (window.sessionId = id)

def stretches (id : UUID) (windows : List ProvenWindowV1) : List (List ProvenWindowV1) :=
  (sessionWindows id windows).splitBy linked

def runOf? : List ProvenWindowV1 → Option ProvenRunV1
  | [] => none
  | first :: rest =>
      some (rest.foldl (fun run window => extendRun (some run) window) (extendRun none first))

variable {windows stretch : List ProvenWindowV1} {window first last : ProvenWindowV1}
  {run previous : ProvenRunV1} {runs : List ProvenRunV1}
  {s t : Dict UUID ProvenRunV1 × List ProvenRunV1}

theorem runOf?_concat (stretch : List ProvenWindowV1) (window : ProvenWindowV1) :
    runOf? (stretch ++ [window]) = some (extendRun (runOf? stretch) window) := by
  cases stretch with
  | nil => rfl
  | cons first rest =>
      rw [List.cons_append, runOf?, List.foldl_append]
      rfl

theorem intervals_runOf? (stretch : List ProvenWindowV1) :
    (runOf? stretch).elim [] ProvenRunV1.intervals = stretch.map own := by
  induction stretch using List.reverseRecOn with
  | nil => rfl
  | append_singleton stretch window ih =>
      rw [runOf?_concat, List.map_append, ← ih]
      rfl

theorem intervals_of_runOf? (h : runOf? stretch = some run) :
    run.intervals = stretch.map own := by
  have hintervals := intervals_runOf? stretch
  rwa [h] at hintervals

theorem startUtcNanos_of_runOf? (h : runOf? stretch = some run) (hfirst : first ∈ stretch.head?) :
    run.startUtcNanos = first.interval.startUtcNanos := by
  have hhead : run.intervals.head? = some (own first) := by
    rw [intervals_of_runOf? h, List.head?_map, Option.mem_def.mp hfirst]
    rfl
  rw [List.head?_eq_some_head run.nonempty] at hhead
  exact congrArg Prod.fst (Option.some.inj hhead)

theorem last_of_runOf? (h : runOf? stretch = some run) (hlast : last ∈ stretch.getLast?) :
    run.sessionId = last.sessionId ∧ run.endProof = last.interval.endProof ∧
      run.endUtcNanos = last.interval.endUtcNanos := by
  obtain ⟨front, rfl⟩ := List.getLast?_eq_some_iff.mp hlast
  rw [runOf?_concat] at h
  cases h
  refine ⟨rfl, rfl, ?_⟩
  unfold ProvenRunV1.endUtcNanos extendRun
  simp [own]

theorem exists_runOf? (hne : stretch ≠ []) : ∃ run, runOf? stretch = some run := by
  obtain ⟨first, rest, rfl⟩ := List.exists_cons_of_ne_nil hne
  exact ⟨_, rfl⟩

theorem continues_iff (h : runOf? stretch = some run) (hlast : last ∈ stretch.getLast?) :
    Continues run window ↔ linked last window = true := by
  obtain ⟨-, hproof, hend⟩ := last_of_runOf? h hlast
  unfold Continues linked
  rw [decide_eq_true_iff, hproof, hend]
  exact ⟨fun h => ⟨h.1, h.2.1, h.2.2⟩, fun h => ⟨h.rollover, h.after, h.nextDay⟩⟩

/-! ## The loop -/

/-- What the loop keeps, session by session: the runs are those of the stretches so far, and the
open run is that of the last. -/
structure Stretched (windows : List ProvenWindowV1)
    (s : Dict UUID ProvenRunV1 × List ProvenRunV1) : Prop where
  runs : ∀ id, (s.2.filter fun run => decide (run.sessionId = id)).Perm
    ((stretches id windows).filterMap runOf?)
  openRuns : ∀ id, s.1.get? id = (stretches id windows).getLast?.bind runOf?

theorem sessionWindows_append_self (windows : List ProvenWindowV1) (window : ProvenWindowV1) :
    sessionWindows window.sessionId (windows ++ [window]) =
      sessionWindows window.sessionId windows ++ [window] := by
  simp [sessionWindows]

theorem sessionWindows_append_of_ne {id : UUID} (h : window.sessionId ≠ id) :
    sessionWindows id (windows ++ [window]) = sessionWindows id windows := by
  simp [sessionWindows, h]

theorem stretches_start (h : ∀ a ∈ (sessionWindows window.sessionId windows).getLast?,
    linked a window = false) :
    stretches window.sessionId (windows ++ [window]) =
      stretches window.sessionId windows ++ [[window]] := by
  unfold stretches
  rw [sessionWindows_append_self, List.splitBy_append]
  · rfl
  · intro a ha b hb
    cases hb
    exact h a ha

theorem stretches_extend {front : List (List ProvenWindowV1)}
    (hfront : stretches window.sessionId windows = front ++ [stretch])
    (h : ∀ a ∈ (sessionWindows window.sessionId windows).getLast?, linked a window = true) :
    stretches window.sessionId (windows ++ [window]) = front ++ [stretch ++ [window]] := by
  unfold stretches at hfront ⊢
  rw [sessionWindows_append_self]
  refine Stretches.splitBy_linked hfront (by rfl) fun a ha b hb => ?_
  cases hb
  exact h a ha

theorem stretches_append_of_ne {id : UUID} (h : window.sessionId ≠ id) :
    stretches id (windows ++ [window]) = stretches id windows := by
  unfold stretches
  rw [sessionWindows_append_of_ne h]

namespace Stretched

theorem nil : Stretched [] (.empty, []) := ⟨fun _ => .nil, fun _ => rfl⟩

theorem start (h : Stretched windows s) (hbreak : ∀ a ∈
    (sessionWindows window.sessionId windows).getLast?, linked a window = false) :
    Stretched (windows ++ [window])
      (s.1.set window.sessionId (extendRun none window), s.2 ++ [extendRun none window]) := by
  have hstretches := stretches_start hbreak
  constructor
  · intro id
    rw [List.filter_append]
    by_cases hid : window.sessionId = id
    · subst hid
      rw [hstretches, List.filterMap_append]
      refine (h.runs _).append (List.Perm.of_eq ?_)
      simp [extendRun, runOf?]
    · rw [stretches_append_of_ne hid, List.filter_cons_of_neg (by simp [extendRun, hid]),
        List.filter_nil, List.append_nil]
      exact h.runs id
  · intro id
    rw [Dict.get?_set]
    by_cases hid : window.sessionId = id
    · subst hid
      rw [if_pos rfl, hstretches, List.getLast?_concat]
      rfl
    · rw [if_neg hid, stretches_append_of_ne hid]
      exact h.openRuns id

theorem extend (h : Stretched windows s) {front : List (List ProvenWindowV1)}
    (hfront : stretches window.sessionId windows = front ++ [stretch])
    (hprevious : runOf? stretch = some previous) (hmem : previous ∈ s.2)
    (hsession : previous.sessionId = window.sessionId)
    (hlink : ∀ a ∈ (sessionWindows window.sessionId windows).getLast?, linked a window = true) :
    Stretched (windows ++ [window])
      (s.1.set window.sessionId (extendRun (some previous) window),
        s.2.erase previous ++ [extendRun (some previous) window]) := by
  have hstretches := stretches_extend hfront hlink
  have hrun : runOf? (stretch ++ [window]) = some (extendRun (some previous) window) := by
    rw [runOf?_concat, hprevious]
  have hsplit := List.perm_cons_erase hmem
  constructor
  · intro id
    rw [List.filter_append]
    have hfilter := (hsplit.filter fun run => decide (run.sessionId = id)).symm.trans (h.runs id)
    by_cases hid : window.sessionId = id
    · subst hid
      rw [hfront, List.filter_cons_of_pos (by simpa using hsession), List.filterMap_append,
        List.filterMap_cons_some hprevious, List.filterMap_nil] at hfilter
      rw [hstretches, List.filterMap_append, List.filterMap_cons_some hrun, List.filterMap_nil,
        List.filter_cons_of_pos (by simp [extendRun]), List.filter_nil]
      refine List.Perm.append_right _ ?_
      exact (hfilter.trans List.perm_append_comm).cons_inv
    · rw [List.filter_cons_of_neg (by simpa [hsession] using hid)] at hfilter
      rw [stretches_append_of_ne hid, List.filter_cons_of_neg (by simp [extendRun, hid]),
        List.filter_nil, List.append_nil]
      exact hfilter
  · intro id
    rw [Dict.get?_set]
    by_cases hid : window.sessionId = id
    · subst hid
      rw [if_pos rfl, hstretches, List.getLast?_concat]
      exact hrun.symm
    · rw [if_neg hid, stretches_append_of_ne hid]
      exact h.openRuns id

theorem open_spec (h : Stretched windows s) {id : UUID} (hopen : s.1.get? id = some previous) :
    ∃ front stretch last, stretches id windows = front ++ [stretch] ∧
      runOf? stretch = some previous ∧ stretch.getLast? = some last ∧
      (sessionWindows id windows).getLast? = some last ∧ last.sessionId = id := by
  rw [h.openRuns] at hopen
  obtain ⟨stretch, hstretch, hrun⟩ := Option.bind_eq_some_iff.mp hopen
  have hne : sessionWindows id windows ≠ [] := by
    intro hnil
    rw [stretches, hnil] at hstretch
    cases hstretch
  obtain ⟨front, stretch', hsplit, hstretch', hlast⟩ :=
    @Stretches.exists_concat ProvenWindowV1 linked _ hne
  have heq : stretches id windows = front ++ [stretch'] := hsplit
  rw [heq, List.getLast?_concat] at hstretch
  obtain rfl : stretch' = stretch := Option.some.inj hstretch
  have hsome := List.getLast?_eq_some_getLast hstretch'
  refine ⟨front, stretch', _, heq, hrun, hsome, hlast ▸ hsome, ?_⟩
  have hmem : stretch'.getLast hstretch' ∈ sessionWindows id windows :=
    List.mem_of_getLast? (hlast ▸ hsome)
  exact of_decide_eq_true (List.mem_filter.mp hmem).2

theorem open_none (h : Stretched windows s) {id : UUID} (hopen : s.1.get? id = none) :
    sessionWindows id windows = [] := by
  by_contra hne
  obtain ⟨front, stretch, hsplit, hstretch, -⟩ :=
    @Stretches.exists_concat ProvenWindowV1 linked _ hne
  obtain ⟨run, hrun⟩ := exists_runOf? hstretch
  have heq : stretches id windows = front ++ [stretch] := hsplit
  rw [h.openRuns, heq, List.getLast?_concat, Option.bind_some, hrun] at hopen
  cases hopen

theorem step (h : Stretched windows s) (hstep : chainStep s window = .ok t) :
    Stretched (windows ++ [window]) t := by
  unfold chainStep at hstep
  cases hopen : s.1.get? window.sessionId with
  | none =>
      rw [hopen] at hstep
      cases hstep
      refine h.start fun a ha => ?_
      rw [h.open_none hopen] at ha
      cases ha
  | some previous =>
      rw [hopen] at hstep
      dsimp only at hstep
      obtain ⟨front, stretch, last, hfront, hrun, hlast, hlast', hsession⟩ := h.open_spec hopen
      have hcontinues : Continues previous window ↔ linked last window = true :=
        continues_iff hrun hlast
      split at hstep
      · rename_i hlink
        split at hstep
        · cases hstep
        · rename_i hmem
          cases hstep
          refine h.extend hfront hrun (not_not.mp hmem)
            ((last_of_runOf? hrun hlast).1.trans hsession) fun a ha => ?_
          rw [hlast'] at ha
          cases ha
          exact hcontinues.mp hlink
      · rename_i hlink
        cases hstep
        refine h.start fun a ha => ?_
        rw [hlast'] at ha
        cases ha
        exact Bool.eq_false_of_not_eq_true fun hlinked => hlink (hcontinues.mpr hlinked)

theorem replay (h : Stretched windows s) {more : List ProvenWindowV1}
    (hreplay : Replay.replay chainStep s more = .ok t) : Stretched (windows ++ more) t := by
  induction more generalizing windows s with
  | nil =>
      cases hreplay
      rwa [List.append_nil]
  | cons window more ih =>
      obtain ⟨mid, hstep, hrest⟩ := Except.bind_eq_ok.mp hreplay
      have hmore := ih (h.step hstep) hrest
      rwa [List.append_assoc] at hmore

end Stretched

/-- The runs of a session are those of the stretches of its windows, in the order of their
starts. -/
theorem runs_of_session (h : chainProvenRunsV1 windows = .ok runs) (id : UUID) :
    (runs.filter fun run => decide (run.sessionId = id)).Perm
      ((stretches id (sortBy windowKey windows)).filterMap runOf?) := by
  unfold chainProvenRunsV1 at h
  obtain ⟨s, hreplay, h⟩ := Except.bind_eq_ok.mp h
  cases Except.pure_eq_ok.mp h
  have hstretched := Stretched.nil.replay hreplay
  exact ((sortBy_perm ProvenRunV1.startKey s.2).filter _).trans (hstretched.runs id)

/-! ## What the stretches contribute -/

def runsOf (stretches : List (List ProvenWindowV1)) : List ProvenRunV1 :=
  stretches.filterMap runOf?

def Outside (hourStart : ℤ) (window : ProvenWindowV1) : Prop :=
  window.interval.endUtcNanos ≤ hourStart ∨ hourStart + hourNanos ≤ window.interval.startUtcNanos

section Contributions

variable {hourStart : ℤ} {more : List ProvenRunV1} {front rest : List (List ProvenWindowV1)}
  {stretch' : List ProvenWindowV1} {run' : ProvenRunV1}

theorem reaching_append : reaching hourStart (runs ++ more) =
    reaching hourStart runs ++ reaching hourStart more := by
  simp [reaching]

theorem stopsOf_append : stopsOf hourStart (runs ++ more) =
    stopsOf hourStart runs ++ stopsOf hourStart more := by
  simp [stopsOf]

theorem runsOf_append : runsOf (front ++ rest) = runsOf front ++ runsOf rest :=
  List.filterMap_append

theorem clipped_own_of_outside (h : Outside hourStart window) :
    Intervals.clipped hourStart (hourStart + hourNanos) (own window) = 0 := by
  unfold Outside at h
  unfold Intervals.clipped own
  dsimp only
  omega

theorem sum_clipped_of_outside (h : ∀ w ∈ stretch, Outside hourStart w) :
    ((stretch.map own).map (Intervals.clipped hourStart (hourStart + hourNanos))).sum = 0 := by
  rw [List.map_map]
  exact List.sum_eq_zero fun x hx => by
    obtain ⟨w, hw, rfl⟩ := List.mem_map.mp hx
    exact clipped_own_of_outside (h w hw)

theorem unprovenNanos_of_runOf? (h : runOf? stretch = some run) :
    run.unprovenNanos hourStart (hourStart + hourNanos) = hourNanos -
      ((stretch.map own).map (Intervals.clipped hourStart (hourStart + hourNanos))).sum := by
  unfold ProvenRunV1.unprovenNanos
  rw [intervals_of_runOf? h]
  omega

theorem idle_of_outside (hrun : runOf? stretch = some run)
    (h : ∀ w ∈ stretch, Outside hourStart w) : ¬ Reaches hourStart run ∧ ¬ Stops hourStart run := by
  have hne : stretch ≠ [] := by
    rintro rfl
    cases hrun
  have hlast := List.getLast?_eq_some_getLast hne
  obtain ⟨-, -, hend⟩ := last_of_runOf? hrun hlast
  have hout := h _ (List.getLast_mem hne)
  have hlt := (stretch.getLast hne).interval.start_lt_end
  constructor
  · rintro ⟨-, hproves⟩
    rw [unprovenNanos_of_runOf? hrun, sum_clipped_of_outside h] at hproves
    omega
  · rintro ⟨⟨hafter, hbefore⟩, -⟩
    rw [hend] at hafter hbefore
    unfold Outside at hout
    omega

theorem contributions_of_outside (h : ∀ stretch ∈ rest, ∀ w ∈ stretch, Outside hourStart w) :
    reaching hourStart (runsOf rest) = [] ∧ stopsOf hourStart (runsOf rest) = [] := by
  have hidle : ∀ run ∈ runsOf rest, ¬ Reaches hourStart run ∧ ¬ Stops hourStart run := by
    intro run hrun
    obtain ⟨stretch, hstretch, hrunOf⟩ := List.mem_filterMap.mp hrun
    exact idle_of_outside hrunOf (h stretch hstretch)
  unfold reaching stopsOf
  rw [List.filter_eq_nil_iff.mpr fun run hrun => by simpa using (hidle run hrun).1,
    List.filter_eq_nil_iff.mpr fun run hrun => by simpa using (hidle run hrun).2]
  exact ⟨rfl, rfl⟩

theorem reaching_congr (hreaches : Reaches hourStart run ↔ Reaches hourStart run')
    (hunproven : run.unprovenNanos hourStart (hourStart + hourNanos) =
      run'.unprovenNanos hourStart (hourStart + hourNanos)) :
    reaching hourStart [run] = reaching hourStart [run'] := by
  by_cases h : Reaches hourStart run
  · simp [reaching, h, hreaches.mp h, hunproven]
  · have h' : ¬ Reaches hourStart run' := fun h' => h (hreaches.mpr h')
    simp [reaching, h, h']

theorem stopsOf_singleton (h : Stops hourStart run) :
    stopsOf hourStart [run] = [(run.endUtcNanos, run.endProof)] := by
  simp [stopsOf, h]

theorem stopsOf_singleton_of_not (h : ¬ Stops hourStart run) : stopsOf hourStart [run] = [] := by
  simp [stopsOf, h]

end Contributions

end HourlyAcceptance

end TradePlatform
