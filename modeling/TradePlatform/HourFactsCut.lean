/-
# `TradePlatform.HourFactsCut` — runs that are cut where partitions are left out

The partitions that touch a range are read and the others are not.  Of a session the windows that
are read lie together, and what is dropped before them and after them lies outside the range, so
all that can change in the range is that a rollover at one of the two ends is missing: then a run
seems to stop where its windows in the range end, or to start in the hour in which a bounded
segment stops (`CutAt`).  The facts of an hour are the same precisely if no rollover is cut so.
-/
import TradePlatform.HourFacts

namespace TradePlatform

namespace HourlyAcceptance

open CaptureArchive

/-! ## A session whose windows are dropped at both ends -/

def sessionRuns (windows : List ProvenWindowV1) : List ProvenRunV1 :=
  runsOf (windows.splitBy linked)

def Ordered (windows : List ProvenWindowV1) : Prop :=
  windows.Pairwise fun a b => a.interval.endUtcNanos ≤ b.interval.startUtcNanos

def CutAfter (hourStart : ℤ) (kept after : List ProvenWindowV1) : Prop :=
  ∃ c ∈ kept.getLast?, ∃ d ∈ after.head?, Linked c d ∧
    hourStart < c.interval.endUtcNanos ∧ c.interval.endUtcNanos < hourStart + hourNanos

def CutBefore (hourStart : ℤ) (before kept : List ProvenWindowV1) : Prop :=
  ∃ a ∈ before.getLast?, ∃ b ∈ kept.head?, Linked a b ∧
    b.interval.endProof = .operatorBoundedStop ∧ hourStart ≤ b.interval.startUtcNanos ∧
      b.interval.endUtcNanos < hourStart + hourNanos

/-- The facts that windows have with the dropped ones in their place: the stops are less by
`extra`, and without those the runs that reach the end of the hour leave as much. -/
structure Drops (hourStart : ℤ) (kept all : List ProvenWindowV1) (extra : List (ℤ × EndProof)) :
    Prop where
  stops : (stopsOf hourStart (sessionRuns kept)).Perm
    (stopsOf hourStart (sessionRuns all) ++ extra)
  reaching : extra = [] →
    reaching hourStart (sessionRuns kept) = reaching hourStart (sessionRuns all)

section Session

variable {hourStart : ℤ} {before kept after all more : List ProvenWindowV1}
  {extra extra' : List (ℤ × EndProof)} {a b c d : ProvenWindowV1}

theorem Drops.trans (h : Drops hourStart kept all extra) (h' : Drops hourStart all more extra') :
    Drops hourStart kept more (extra' ++ extra) where
  stops := by
    rw [← List.append_assoc]
    exact h.stops.trans (h'.stops.append_right extra)
  reaching := by
    intro hnil
    obtain ⟨hextra', hextra⟩ := List.append_eq_nil_iff.mp hnil
    exact (h.reaching hextra).trans (h'.reaching hextra')

theorem contributions_sessionRuns (h : ∀ w ∈ all, Outside hourStart w) :
    reaching hourStart (sessionRuns all) = [] ∧ stopsOf hourStart (sessionRuns all) = [] := by
  refine contributions_of_outside fun stretch hstretch w hw => h w ?_
  rw [← List.flatten_splitBy linked all]
  exact List.mem_flatten.mpr ⟨stretch, hstretch, hw⟩

theorem drops_of_break (hbreak : ∀ a ∈ before.getLast?, ∀ b ∈ after.head?, linked a b = false) :
    ((∀ w ∈ after, Outside hourStart w) → Drops hourStart before (before ++ after) []) ∧
      ((∀ w ∈ before, Outside hourStart w) → Drops hourStart after (before ++ after) []) := by
  have hsplit : sessionRuns (before ++ after) = sessionRuns before ++ sessionRuns after := by
    unfold sessionRuns
    rw [List.splitBy_append hbreak, runsOf_append]
  constructor
  · intro hout
    obtain ⟨hreaching, hstops⟩ := contributions_sessionRuns hout
    constructor
    · rw [hsplit, stopsOf_append, hstops, List.append_nil, List.append_nil]
    · intro _
      rw [hsplit, reaching_append, hreaching, List.append_nil]
  · intro hout
    obtain ⟨hreaching, hstops⟩ := contributions_sessionRuns hout
    constructor
    · rw [hsplit, stopsOf_append, hstops, List.nil_append, List.append_nil]
    · intro _
      rw [hsplit, reaching_append, hreaching, List.nil_append]

theorem sessionRuns_linked {front rest : List (List ProvenWindowV1)} {x y : List ProvenWindowV1}
    {run : ProvenRunV1} (hbefore : before.splitBy linked = front ++ [x])
    (hafter : after.splitBy linked = y :: rest)
    (hlink : ∀ a ∈ before.getLast?, ∀ b ∈ after.head?, linked a b = true)
    (hrun : runOf? (x ++ y) = some run) :
    sessionRuns (before ++ after) = runsOf front ++ ([run] ++ runsOf rest) := by
  unfold sessionRuns
  rw [Stretches.splitBy_linked hbefore hafter hlink, runsOf_append]
  congr 1
  exact List.filterMap_cons_some hrun

theorem end_le_last (h : Ordered all) (hlast : c ∈ all.getLast?) :
    ∀ w ∈ all, w.interval.endUtcNanos ≤ c.interval.endUtcNanos := by
  obtain ⟨front, rfl⟩ := List.getLast?_eq_some_iff.mp hlast
  intro w hw
  rcases List.mem_append.mp hw with hw | hw
  · have hle := (List.pairwise_append.mp h).2.2 w hw c (List.mem_singleton_self c)
    exact hle.trans c.interval.start_lt_end.le
  · rw [List.mem_singleton.mp hw]

theorem unprovenNanos_append {x y : List ProvenWindowV1} {run run' : ProvenRunV1}
    (hrun : runOf? (x ++ y) = some run) :
    (runOf? x = some run' → (∀ w ∈ y, Outside hourStart w) →
      run'.unprovenNanos hourStart (hourStart + hourNanos) =
        run.unprovenNanos hourStart (hourStart + hourNanos)) ∧
    (runOf? y = some run' → (∀ w ∈ x, Outside hourStart w) →
      run'.unprovenNanos hourStart (hourStart + hourNanos) =
        run.unprovenNanos hourStart (hourStart + hourNanos)) := by
  constructor
  · intro hrun' hout
    rw [unprovenNanos_of_runOf? hrun, unprovenNanos_of_runOf? hrun', List.map_append,
      List.map_append, List.sum_append, sum_clipped_of_outside hout, add_zero]
  · intro hrun' hout
    rw [unprovenNanos_of_runOf? hrun, unprovenNanos_of_runOf? hrun', List.map_append,
      List.map_append, List.sum_append, sum_clipped_of_outside hout, zero_add]

theorem mem_of_mem_stretch {stretch : List ProvenWindowV1}
    (h : stretch ∈ all.splitBy linked) {w : ProvenWindowV1} (hw : w ∈ stretch) : w ∈ all := by
  rw [← List.flatten_splitBy linked all]
  exact List.mem_flatten.mpr ⟨stretch, h, hw⟩

theorem drops_after (hordered : Ordered kept)
    (hafter : ∀ w ∈ after, hourStart + hourNanos ≤ w.interval.startUtcNanos) :
    ∃ extra, Drops hourStart kept (kept ++ after) extra ∧
      (extra = [] ↔ ¬ CutAfter hourStart kept after) := by
  have hout : ∀ w ∈ after, Outside hourStart w := fun w hw => .inr (hafter w hw)
  by_cases hlink : ∃ c ∈ kept.getLast?, ∃ d ∈ after.head?, linked c d = true
  · obtain ⟨c, hc, d, hd, hlinked⟩ := hlink
    have hkept : kept ≠ [] := by
      rintro rfl
      cases hc
    have hne : after ≠ [] := by
      rintro rfl
      cases hd
    have hlink : ∀ a ∈ kept.getLast?, ∀ b ∈ after.head?, linked a b = true := by
      intro a ha b hb
      rw [Option.mem_def, Option.mem_def.mp hc] at ha
      rw [Option.mem_def, Option.mem_def.mp hd] at hb
      cases ha
      cases hb
      exact hlinked
    obtain ⟨front, x, hsplit, hx, hlast⟩ := @Stretches.exists_concat _ linked _ hkept
    obtain ⟨y, rest, hsplit', hy, -⟩ := @Stretches.exists_cons _ linked _ hne
    obtain ⟨run, hrun⟩ := exists_runOf? (List.append_ne_nil_of_left_ne_nil hx y)
    obtain ⟨run', hrun'⟩ := exists_runOf? hx
    have hjoined := sessionRuns_linked hsplit hsplit' hlink hrun
    have halone : sessionRuns kept = runsOf front ++ [run'] := by
      unfold sessionRuns
      rw [hsplit, runsOf_append]
      congr 1
      exact List.filterMap_cons_some hrun'
    obtain ⟨-, hproof, hend⟩ := last_of_runOf? hrun' (hlast ▸ hc)
    have hrollover := (of_decide_eq_true hlinked : Linked c d).rollover
    -- the stretch goes on past the hour
    have hyOut : ∀ w ∈ y, w ∈ after := fun w hw =>
      mem_of_mem_stretch (by rw [hsplit']; exact List.mem_cons_self) hw
    have hpast : hourStart + hourNanos < run.endUtcNanos := by
      have hlastY : y.getLast hy ∈ (x ++ y).getLast? := by
        rw [List.getLast?_append_of_ne_nil _ hy]
        exact List.getLast?_eq_some_getLast hy
      rw [(last_of_runOf? hrun hlastY).2.2]
      have hle := hafter _ (hyOut _ (List.getLast_mem hy))
      exact hle.trans_lt (y.getLast hy).interval.start_lt_end
    have hnotStops : ¬ Stops hourStart run := fun h => absurd h.1.2 (not_lt.mpr hpast.le)
    obtain ⟨hreaching, hstops⟩ : reaching hourStart (runsOf rest) = [] ∧
        stopsOf hourStart (runsOf rest) = [] := by
      refine contributions_of_outside fun stretch hstretch w hw => hout w ?_
      exact mem_of_mem_stretch (by rw [hsplit']; exact List.mem_cons_of_mem _ hstretch) hw
    have hunproven := (@unprovenNanos_append hourStart x y run run' hrun).1 hrun'
      fun w hw => hout w (hyOut w hw)
    have hstopsAll : stopsOf hourStart (sessionRuns (kept ++ after)) =
        stopsOf hourStart (runsOf front) := by
      rw [hjoined, stopsOf_append, stopsOf_append, hstops, stopsOf_singleton_of_not hnotStops,
        List.append_nil, List.append_nil]
    have hcut : CutAfter hourStart kept after ↔
        hourStart < c.interval.endUtcNanos ∧ c.interval.endUtcNanos < hourStart + hourNanos := by
      constructor
      · rintro ⟨c', hc', d', -, -, hinside⟩
        rw [Option.mem_def, Option.mem_def.mp hc] at hc'
        cases hc'
        exact hinside
      · intro hinside
        exact ⟨c, hc, d, hd, of_decide_eq_true hlinked, hinside⟩
    have hstopsIff : Stops hourStart run' ↔
        hourStart < c.interval.endUtcNanos ∧ c.interval.endUtcNanos < hourStart + hourNanos := by
      unfold Stops
      rw [hend, hproof, hrollover]
      exact and_iff_left fun h => absurd h.1 (by decide)
    refine ⟨stopsOf hourStart [run'], ⟨?_, fun hnil => ?_⟩, ?_⟩
    · rw [halone, stopsOf_append, hstopsAll]
    · have hnot : ¬ Stops hourStart run' := by
        intro hstop
        rw [stopsOf_singleton hstop] at hnil
        cases hnil
      have hoff := fun hinside => hnot (hstopsIff.mpr hinside)
      rw [halone, hjoined, reaching_append, reaching_append, reaching_append, hreaching,
        List.append_nil]
      congr 1
      refine reaching_congr ?_ hunproven
      unfold Reaches
      rw [hunproven, hend]
      rcases lt_or_ge hourStart c.interval.endUtcNanos with hlt | hge
      · have hreaches := not_lt.mp fun h => hoff ⟨hlt, h⟩
        exact and_congr_left fun _ => iff_of_true hreaches hpast.le
      · -- the windows that are kept end before the hour
        have hidle : ∀ w ∈ x, Outside hourStart w := fun w hw => by
          refine .inl ((end_le_last hordered hc w ?_).trans hge)
          exact mem_of_mem_stretch (by rw [hsplit]; simp) hw
        rw [← hunproven, unprovenNanos_of_runOf? hrun', sum_clipped_of_outside hidle]
        exact iff_of_false (fun h => by omega) fun h => by omega
    · rw [hcut, ← hstopsIff]
      constructor
      · intro hnil hstop
        rw [stopsOf_singleton hstop] at hnil
        cases hnil
      · exact fun hnot => stopsOf_singleton_of_not hnot
  · have hbreak : ∀ a ∈ kept.getLast?, ∀ b ∈ after.head?, linked a b = false := by
      intro a ha b hb
      exact Bool.eq_false_of_not_eq_true fun hlinked => hlink ⟨a, ha, b, hb, hlinked⟩
    refine ⟨[], (drops_of_break hbreak).1 hout, iff_of_true rfl ?_⟩
    rintro ⟨c, hc, d, hd, hlinked, -⟩
    exact hlink ⟨c, hc, d, hd, decide_eq_true hlinked⟩

theorem not_linked_of_hour (hgrid : hourStart % hourNanos = 0)
    (hstart : hourStart ≤ a.interval.startUtcNanos)
    (hend : b.interval.startUtcNanos < hourStart + hourNanos) : ¬ Linked a b := by
  intro hlinked
  have hnext := hlinked.nextDay
  have hafter := hlinked.after
  have hlt := a.interval.start_lt_end
  have hday : dayNanos = 24 * hourNanos := rfl
  have hpos : (0 : ℤ) < hourNanos := by decide
  generalize hourNanos = hour at *
  obtain ⟨n, rfl⟩ := Int.dvd_of_emod_eq_zero hgrid
  have hquot : ∀ t, hour * n ≤ t → t < hour * n + hour → t / dayNanos = n / 24 := by
    intro t hlow hhigh
    rw [hday, mul_comm 24 hour, ← Int.ediv_ediv_of_nonneg hpos.le]
    congr 1
    refine Int.ediv_eq_iff_of_pos hpos |>.mpr ⟨?_, ?_⟩
    · linarith
    · linarith
  rw [hquot _ (by omega) hend, hquot _ (by omega) (by omega)] at hnext
  omega

theorem stretch_of_stop {y : List ProvenWindowV1} {run' : ProvenRunV1}
    (hgrid : hourStart % hourNanos = 0) (hy : y.IsChain fun a b => linked a b = true)
    (hordered : Ordered y) (hb : b ∈ y.head?) (hrun' : runOf? y = some run')
    (hstart : hourStart ≤ b.interval.startUtcNanos)
    (hend : run'.endUtcNanos < hourStart + hourNanos) : y = [b] := by
  obtain ⟨tail, rfl⟩ := List.head?_eq_some_iff.mp hb
  cases tail with
  | nil => rfl
  | cons f tail =>
      have hlink : Linked b f := of_decide_eq_true (List.isChain_cons_cons.mp hy).1
      obtain ⟨last, hlast⟩ := List.getLast?_isSome.mpr (List.cons_ne_nil f tail) |>
        Option.isSome_iff_exists.mp
      have hlast' : last ∈ (b :: f :: tail).getLast? := by
        rw [List.getLast?_cons_cons]
        exact hlast
      have hle := end_le_last hordered hlast' f (by simp)
      rw [(last_of_runOf? hrun' hlast').2.2] at hend
      have hlt := f.interval.start_lt_end
      exact absurd hlink (not_linked_of_hour hgrid hstart (by omega))

theorem cutBefore_iff {y : List ProvenWindowV1} {run run' : ProvenRunV1}
    (hgrid : hourStart % hourNanos = 0) (ha : a ∈ before.getLast?) (hb : b ∈ kept.head?)
    (hlinked : Linked a b) (hy : y.IsChain fun a b => linked a b = true) (hordered : Ordered y)
    (hhead : b ∈ y.head?) (hrun' : runOf? y = some run')
    (hend : run'.endUtcNanos = run.endUtcNanos) (hproof : run'.endProof = run.endProof)
    (hstart : run.startUtcNanos < hourStart) :
    CutBefore hourStart before kept ↔ Stops hourStart run' ∧ ¬ Stops hourStart run := by
  have hstart' := startUtcNanos_of_runOf? hrun' hhead
  constructor
  · rintro ⟨a', ha', b', hb', -, hbounded, hlow, hhigh⟩
    rw [Option.mem_def, Option.mem_def.mp hb] at hb'
    cases hb'
    obtain ⟨tail, rfl⟩ := List.head?_eq_some_iff.mp hhead
    have hsingle : tail = [] := by
      cases tail with
      | nil => rfl
      | cons f tail =>
          have hlink : Linked b f := of_decide_eq_true (List.isChain_cons_cons.mp hy).1
          rw [hlink.rollover] at hbounded
          cases hbounded
    subst hsingle
    obtain ⟨-, hproof', hend'⟩ := @last_of_runOf? [b] b _ hrun' List.getLast?_singleton
    have hlt := b.interval.start_lt_end
    refine ⟨⟨by omega, fun h => ?_⟩, fun h => h.2 ⟨?_, hstart⟩⟩
    · have hbefore := h.2
      omega
    · rw [← hproof, hproof', hbounded]
  · rintro ⟨⟨hinside, hkept⟩, hnot⟩
    have hbounded : run.endProof = .operatorBoundedStop := by
      by_contra hother
      exact hnot ⟨hend ▸ hinside, fun h => hother h.1⟩
    have hlow : hourStart ≤ b.interval.startUtcNanos := by
      by_contra hbefore
      exact hkept ⟨hproof.trans hbounded, by omega⟩
    have hsingle := stretch_of_stop hgrid hy hordered hhead hrun' hlow hinside.2
    subst hsingle
    obtain ⟨-, hproof', hend'⟩ := @last_of_runOf? [b] b _ hrun' List.getLast?_singleton
    exact ⟨a, ha, b, hb, hlinked, by rw [← hproof', hproof, hbounded], hlow, hend' ▸ hinside.2⟩

theorem drops_before (hgrid : hourStart % hourNanos = 0) (hordered : Ordered kept)
    (hbefore : ∀ w ∈ before, w.interval.endUtcNanos ≤ hourStart) :
    ∃ extra, Drops hourStart kept (before ++ kept) extra ∧
      (extra = [] ↔ ¬ CutBefore hourStart before kept) := by
  have hout : ∀ w ∈ before, Outside hourStart w := fun w hw => .inl (hbefore w hw)
  by_cases hlink : ∃ a ∈ before.getLast?, ∃ b ∈ kept.head?, linked a b = true
  · obtain ⟨a, ha, b, hb, hlinked⟩ := hlink
    have hkept : kept ≠ [] := by
      rintro rfl
      cases hb
    have hne : before ≠ [] := by
      rintro rfl
      cases ha
    have hlink : ∀ a ∈ before.getLast?, ∀ b ∈ kept.head?, linked a b = true := by
      intro a' ha' b' hb'
      rw [Option.mem_def, Option.mem_def.mp ha] at ha'
      rw [Option.mem_def, Option.mem_def.mp hb] at hb'
      cases ha'
      cases hb'
      exact hlinked
    obtain ⟨front, x, hsplit, hx, -⟩ := @Stretches.exists_concat _ linked _ hne
    obtain ⟨y, rest, hsplit', hy, hhead⟩ := @Stretches.exists_cons _ linked _ hkept
    obtain ⟨run, hrun⟩ := exists_runOf? (List.append_ne_nil_of_left_ne_nil hx y)
    obtain ⟨run', hrun'⟩ := exists_runOf? hy
    have hjoined := sessionRuns_linked hsplit hsplit' hlink hrun
    have halone : sessionRuns kept = [run'] ++ runsOf rest := by
      unfold sessionRuns
      rw [hsplit']
      exact List.filterMap_cons_some hrun'
    -- both runs end as the stretch of the kept windows does
    have hlastY := List.getLast?_eq_some_getLast hy
    obtain ⟨-, hproof', hend'⟩ := last_of_runOf? hrun' hlastY
    have hlastXY : y.getLast hy ∈ (x ++ y).getLast? := by
      rw [List.getLast?_append_of_ne_nil _ hy]
      exact hlastY
    obtain ⟨-, hproof, hend⟩ := last_of_runOf? hrun hlastXY
    have hsameEnd : run'.endUtcNanos = run.endUtcNanos := hend'.trans hend.symm
    have hsameProof : run'.endProof = run.endProof := hproof'.trans hproof.symm
    have hxOut : ∀ w ∈ x, w ∈ before := fun w hw =>
      mem_of_mem_stretch (by rw [hsplit]; simp) hw
    have hstart : run.startUtcNanos < hourStart := by
      have hheadX : x.head hx ∈ (x ++ y).head? := by
        rw [List.head?_append_of_ne_nil _ hx]
        exact List.head?_eq_some_head hx
      rw [startUtcNanos_of_runOf? hrun hheadX]
      have hle := hbefore _ (hxOut _ (List.head_mem hx))
      exact (x.head hx).interval.start_lt_end.trans_le hle
    obtain ⟨hreaching, hstops⟩ : reaching hourStart (runsOf front) = [] ∧
        stopsOf hourStart (runsOf front) = [] := by
      refine contributions_of_outside fun stretch hstretch w hw => hout w ?_
      exact mem_of_mem_stretch (by rw [hsplit]; exact List.mem_append_left _ hstretch) hw
    have hunproven := (@unprovenNanos_append hourStart x y run run' hrun).2 hrun'
      fun w hw => hout w (hxOut w hw)
    have hreachingEq : reaching hourStart (sessionRuns kept) =
        reaching hourStart (sessionRuns (before ++ kept)) := by
      rw [halone, hjoined, reaching_append, reaching_append, reaching_append, hreaching,
        List.nil_append]
      congr 1
      refine reaching_congr ?_ hunproven
      unfold Reaches
      rw [hunproven, hsameEnd]
    have hstopsAll : stopsOf hourStart (sessionRuns (before ++ kept)) =
        stopsOf hourStart [run] ++ stopsOf hourStart (runsOf rest) := by
      rw [hjoined, stopsOf_append, stopsOf_append, hstops, List.nil_append]
    have hstopsKept : stopsOf hourStart (sessionRuns kept) =
        stopsOf hourStart [run'] ++ stopsOf hourStart (runsOf rest) := by
      rw [halone, stopsOf_append]
    have hmemY : y ∈ kept.splitBy linked := by
      rw [hsplit']
      exact List.mem_cons_self
    have horderedY : Ordered y := hordered.sublist
      (List.flatten_splitBy linked kept ▸ List.sublist_flatten_of_mem hmemY)
    have hcut : CutBefore hourStart before kept ↔ Stops hourStart run' ∧ ¬ Stops hourStart run :=
      cutBefore_iff hgrid ha hb (of_decide_eq_true hlinked) (List.isChain_of_mem_splitBy hmemY)
        horderedY (hhead ▸ hb) hrun' hsameEnd hsameProof hstart
    by_cases hcutBefore : CutBefore hourStart before kept
    · obtain ⟨hstop', hnot⟩ := hcut.mp hcutBefore
      refine ⟨stopsOf hourStart [run'], ⟨?_, fun _ => hreachingEq⟩, ?_⟩
      · rw [hstopsKept, hstopsAll, stopsOf_singleton_of_not hnot, List.nil_append]
        exact List.perm_append_comm
      · rw [stopsOf_singleton hstop']
        exact iff_of_false (List.cons_ne_nil _ _) fun h => h hcutBefore
    · refine ⟨[], ⟨?_, fun _ => hreachingEq⟩, iff_of_true rfl hcutBefore⟩
      have hstop : stopsOf hourStart [run'] = stopsOf hourStart [run] := by
        by_cases hstop' : Stops hourStart run'
        · have hstop : Stops hourStart run := by
            by_contra hnot
            exact hcutBefore (hcut.mpr ⟨hstop', hnot⟩)
          rw [stopsOf_singleton hstop', stopsOf_singleton hstop, hsameEnd, hsameProof]
        · have hnot : ¬ Stops hourStart run := by
            rintro ⟨hinside, hbounded⟩
            refine hstop' ⟨hsameEnd ▸ hinside, fun h => hbounded ⟨hsameProof ▸ h.1, hstart⟩⟩
          rw [stopsOf_singleton_of_not hstop', stopsOf_singleton_of_not hnot]
      rw [hstopsKept, hstopsAll, hstop, List.append_nil]
  · have hbreak : ∀ a ∈ before.getLast?, ∀ b ∈ kept.head?, linked a b = false := by
      intro a ha b hb
      exact Bool.eq_false_of_not_eq_true fun hlinked => hlink ⟨a, ha, b, hb, hlinked⟩
    refine ⟨[], (drops_of_break hbreak).2 hout, iff_of_true rfl ?_⟩
    rintro ⟨a, ha, b, hb, hlinked, -⟩
    exact hlink ⟨a, ha, b, hb, decide_eq_true hlinked⟩

theorem drops_outside (hgrid : hourStart % hourNanos = 0)
    (hordered : Ordered (before ++ kept ++ after)) (hkept : kept ≠ [])
    (hbefore : ∀ w ∈ before, w.interval.endUtcNanos ≤ hourStart)
    (hafter : ∀ w ∈ after, hourStart + hourNanos ≤ w.interval.startUtcNanos) :
    ∃ extra, Drops hourStart kept (before ++ kept ++ after) extra ∧
      (extra = [] ↔ ¬ CutBefore hourStart before kept ∧ ¬ CutAfter hourStart kept after) := by
  rw [List.append_assoc] at hordered ⊢
  have hrest : Ordered (kept ++ after) := (List.pairwise_append.mp hordered).2.1
  obtain ⟨extra, hdrops, hiff⟩ := drops_after (List.pairwise_append.mp hrest).1 hafter
  obtain ⟨extra', hdrops', hiff'⟩ := drops_before hgrid hrest hbefore
  refine ⟨extra' ++ extra, hdrops.trans hdrops', ?_⟩
  have hhead : CutBefore hourStart before (kept ++ after) ↔ CutBefore hourStart before kept := by
    unfold CutBefore
    rw [List.head?_append_of_ne_nil _ hkept]
  rw [List.append_eq_nil_iff, hiff, hiff', hhead]

end Session

/-! ## Partitions -/

def inOrder (windows : List ProvenWindowV1) (id : UUID) : List ProvenWindowV1 :=
  sessionWindows id (sortBy windowKey windows)

theorem mem_inOrder {windows : List ProvenWindowV1} {id : UUID} {w : ProvenWindowV1} :
    w ∈ inOrder windows id ↔ w ∈ windows ∧ w.sessionId = id := by
  unfold inOrder sessionWindows
  rw [List.mem_filter, mem_sortBy, decide_eq_true_iff]

def dayOf (window : ProvenWindowV1) : ℤ := window.interval.startUtcNanos / dayNanos

def OtherDay (p q : List ProvenWindowV1) : Prop :=
  ∀ w ∈ p, ∀ w' ∈ q, w.sessionId = w'.sessionId → dayOf w ≠ dayOf w'

instance : Std.Symm OtherDay := ⟨fun _ _ h w hw w' hw' hid => (h w' hw' w hw hid.symm).symm⟩

def DisjointInSession (a b : ProvenWindowV1) : Prop :=
  a.sessionId = b.sessionId → a.interval.endUtcNanos ≤ b.interval.startUtcNanos ∨
    b.interval.endUtcNanos ≤ a.interval.startUtcNanos

instance : Std.Symm DisjointInSession := ⟨fun _ _ h hid => (h hid.symm).symm⟩

/-- The windows of some partitions: each is of one session and one UTC day, its windows one after
the other, and no two are of the same session and day. -/
structure Days (parts : List (List ProvenWindowV1)) : Prop where
  session : ∀ p ∈ parts, ∀ w ∈ p, ∀ w' ∈ p, w.sessionId = w'.sessionId
  ordered : ∀ p ∈ parts, Ordered p
  day : ∀ p ∈ parts, ∀ w ∈ p, ∀ w' ∈ p, dayOf w = (w'.interval.endUtcNanos - 1) / dayNanos
  distinct : parts.Pairwise OtherDay

def Touches (start stop : ℤ) (window : ProvenWindowV1) : Prop :=
  window.interval.startUtcNanos < stop ∧ start < window.interval.endUtcNanos

instance (start stop : ℤ) (window : ProvenWindowV1) : Decidable (Touches start stop window) :=
  inferInstanceAs (Decidable (_ ∧ _))

def touching (start stop : ℤ) (parts : List (List ProvenWindowV1)) : List ProvenWindowV1 :=
  (parts.filter fun p => p.any fun w => decide (Touches start stop w)).flatten

namespace Days

variable {parts : List (List ProvenWindowV1)} {p q : List ProvenWindowV1} {w w' : ProvenWindowV1}
  {start stop : ℤ} {id : UUID}

theorem same (h : Days parts) (hp : p ∈ parts) (hq : q ∈ parts) (hw : w ∈ p) (hw' : w' ∈ q)
    (hsession : w.sessionId = w'.sessionId) (hday : dayOf w = dayOf w') : p = q := by
  by_contra hne
  exact h.distinct.forall hp hq hne w hw w' hw' hsession hday

theorem end_le (h : Days parts) (hp : p ∈ parts) (hw : w ∈ p) :
    w.interval.endUtcNanos ≤ (dayOf w + 1) * dayNanos := by
  have hday := h.day p hp w hw w hw
  have hpos : 0 < dayNanos := by decide
  have hlt := Int.lt_ediv_add_one_mul_self (w.interval.endUtcNanos - 1) hpos
  rw [← hday] at hlt
  omega

theorem start_ge (w : ProvenWindowV1) : dayOf w * dayNanos ≤ w.interval.startUtcNanos :=
  Int.ediv_mul_le _ (by decide)

theorem end_le_start (h : Days parts) (hp : p ∈ parts) (hw : w ∈ p) (hlt : dayOf w < dayOf w') :
    w.interval.endUtcNanos ≤ w'.interval.startUtcNanos := by
  have hpos : 0 < dayNanos := by decide
  calc w.interval.endUtcNanos ≤ (dayOf w + 1) * dayNanos := h.end_le hp hw
    _ ≤ dayOf w' * dayNanos := mul_le_mul_of_nonneg_right (by omega) hpos.le
    _ ≤ w'.interval.startUtcNanos := start_ge w'

theorem disjoint (h : Days parts) : parts.flatten.Pairwise DisjointInSession := by
  refine List.pairwise_flatten.mpr ⟨fun p hp => ?_, ?_⟩
  · exact (h.ordered p hp).imp fun hle _ => .inl hle
  · refine h.distinct.imp_of_mem fun {p q} hp hq hpq a ha b hb hid => ?_
    rcases lt_or_gt_of_ne (hpq a ha b hb hid) with hlt | hlt
    · exact .inl (h.end_le_start hp ha hlt)
    · exact .inr (h.end_le_start hq hb hlt)

theorem keyTells (h : Days parts) : KeyTells windowKey parts.flatten := by
  intro a ha b hb hkey
  obtain ⟨hstart, hid⟩ := Prod.mk.inj (toLex.injective hkey)
  by_contra hne
  have hlt := a.interval.start_lt_end
  have hlt' := b.interval.start_lt_end
  rcases h.disjoint.forall ha hb hne hid with hle | hle
  · omega
  · omega

theorem ordered_session (h : Days parts) (id : UUID) :
    Ordered (inOrder parts.flatten id) := by
  have hdisjoint := h.disjoint.perm (sortBy_perm windowKey parts.flatten).symm
    fun hab hid => (hab hid.symm).symm
  have hsorted := sortBy_pairwise windowKey parts.flatten
  have hboth := (hdisjoint.and hsorted).filter fun w => decide (w.sessionId = id)
  refine hboth.imp_of_mem fun {a b} ha hb hab => ?_
  have hid : a.sessionId = b.sessionId :=
    (of_decide_eq_true (List.mem_filter.mp ha).2).trans
      (of_decide_eq_true (List.mem_filter.mp hb).2).symm
  rcases hab.1 hid with hle | hle
  · exact hle
  · have hlt := b.interval.start_lt_end
    rcases Prod.Lex.toLex_le_toLex.mp hab.2 with hkey | ⟨hkey, -⟩
    · omega
    · omega

theorem mem_touching : w ∈ touching start stop parts ↔
    ∃ p ∈ parts, (∃ t ∈ p, Touches start stop t) ∧ w ∈ p := by
  simp only [touching, List.mem_flatten, List.mem_filter, List.any_eq_true, decide_eq_true_eq]
  constructor
  · rintro ⟨p, ⟨hp, ht⟩, hw⟩
    exact ⟨p, hp, ht, hw⟩
  · rintro ⟨p, hp, ht, hw⟩
    exact ⟨p, ⟨hp, ht⟩, hw⟩

theorem mem_touching_of_mem (h : Days parts) (hp : p ∈ parts) (hw : w ∈ p) :
    w ∈ touching start stop parts ↔ ∃ t ∈ p, Touches start stop t := by
  rw [mem_touching]
  constructor
  · rintro ⟨q, hq, ht, hwq⟩
    rwa [h.same hp hq hw hwq rfl rfl]
  · exact fun ht => ⟨p, hp, ht, hw⟩

theorem touching_eq_filter (h : Days parts) : touching start stop parts =
    parts.flatten.filter fun w => decide (w ∈ touching start stop parts) := by
  refine Stretches.flatten_filter fun p hp w hw => ?_
  rw [Bool.eq_iff_iff, decide_eq_true_iff, h.mem_touching_of_mem hp hw, List.any_eq_true]
  simp only [decide_eq_true_eq]

theorem sorted_touching (h : Days parts) (id : UUID) :
    inOrder (touching start stop parts) id =
      (inOrder parts.flatten id).filter fun w => decide (w ∈ touching start stop parts) := by
  conv_lhs => rw [h.touching_eq_filter]
  unfold inOrder sessionWindows
  rw [sortBy_filter h.keyTells]
  rw [List.filter_filter, List.filter_filter]
  refine List.filter_congr fun w _ => Bool.and_comm _ _

theorem end_le_of_dropped (h : Days parts) (hw : w ∈ parts.flatten)
    (hdropped : w ∉ touching start stop parts) (hkept : w' ∈ touching start stop parts)
    (hid : w.sessionId = w'.sessionId)
    (hle : w.interval.endUtcNanos ≤ w'.interval.startUtcNanos) :
    w.interval.endUtcNanos ≤ start := by
  obtain ⟨p, hp, hwp⟩ := List.mem_flatten.mp hw
  obtain ⟨q, hq, ⟨t, ht, htouches⟩, hw'q⟩ := mem_touching.mp hkept
  have hnot : ¬ Touches start stop w := fun htouch =>
    hdropped (mem_touching.mpr ⟨p, hp, ⟨w, hwp, htouch⟩, hwp⟩)
  by_contra hlt
  have hpos : 0 < dayNanos := by decide
  have hstart := w.interval.start_lt_end
  have hday : dayOf w ≤ dayOf w' := Int.ediv_le_ediv hpos (by omega)
  have hdayT : dayOf t = dayOf w' := (h.day q hq t ht w' hw'q).trans
    (h.day q hq w' hw'q w' hw'q).symm
  rcases hday.lt_or_eq with hday | hday
  · -- the range ends before the window, and goes on in a later day
    have hafter := h.end_le_start hp hwp (hdayT ▸ hday : dayOf w < dayOf t)
    unfold Touches at hnot htouches
    omega
  · have hsame := h.same hp hq hwp hw'q hid hday
    exact hdropped (mem_touching.mpr ⟨q, hq, ⟨t, ht, htouches⟩, hsame ▸ hwp⟩)

theorem start_ge_of_dropped (h : Days parts) (hw : w ∈ parts.flatten)
    (hdropped : w ∉ touching start stop parts) (hkept : w' ∈ touching start stop parts)
    (hid : w.sessionId = w'.sessionId)
    (hle : w'.interval.endUtcNanos ≤ w.interval.startUtcNanos) :
    stop ≤ w.interval.startUtcNanos := by
  obtain ⟨p, hp, hwp⟩ := List.mem_flatten.mp hw
  obtain ⟨q, hq, ⟨t, ht, htouches⟩, hw'q⟩ := mem_touching.mp hkept
  have hnot : ¬ Touches start stop w := fun htouch =>
    hdropped (mem_touching.mpr ⟨p, hp, ⟨w, hwp, htouch⟩, hwp⟩)
  by_contra hlt
  have hpos : 0 < dayNanos := by decide
  have hstart := w'.interval.start_lt_end
  have hend := w.interval.start_lt_end
  have hday : dayOf w' ≤ dayOf w := Int.ediv_le_ediv hpos (by omega)
  have hdayT : dayOf t = dayOf w' := (h.day q hq t ht w' hw'q).trans
    (h.day q hq w' hw'q w' hw'q).symm
  rcases hday.lt_or_eq with hday | hday
  · -- the range starts after the window, and before the end of an earlier day
    have hafter := h.end_le_start hq ht (hdayT ▸ hday : dayOf t < dayOf w)
    unfold Touches at hnot htouches
    omega
  · have hsame := h.same hp hq hwp hw'q hid hday.symm
    exact hdropped (mem_touching.mpr ⟨q, hq, ⟨t, ht, htouches⟩, hsame ▸ hwp⟩)

theorem kept_between (h : Days parts) (hlt : start < stop) {a b c : ProvenWindowV1}
    (hsub : [a, b, c].Sublist (inOrder parts.flatten id)) (ha : a ∈ touching start stop parts)
    (hc : c ∈ touching start stop parts) : b ∈ touching start stop parts := by
  by_contra hb
  have hmem : ∀ w ∈ [a, b, c], w ∈ parts.flatten ∧ w.sessionId = id := fun w hw =>
    mem_inOrder.mp (hsub.subset hw)
  have hordered := (h.ordered_session id).sublist hsub
  obtain ⟨hab, htail⟩ := List.pairwise_cons.mp hordered
  obtain ⟨hbc, -⟩ := List.pairwise_cons.mp htail
  obtain ⟨hbMem, hbId⟩ := hmem b (by simp)
  have haId := (hmem a (by simp)).2
  have hcId := (hmem c (by simp)).2
  have hend := h.end_le_of_dropped hbMem hb hc (hbId.trans hcId.symm) (hbc c (by simp))
  have hstart := h.start_ge_of_dropped hbMem hb ha (hbId.trans haId.symm) (hab b (by simp))
  have hlt' := b.interval.start_lt_end
  omega

/-- The windows of a session with what is dropped before them and after them, for an hour of the
range. -/
theorem drops_parts (h : Days parts) {hourStart : ℤ} (hstart : start ≤ hourStart)
    (hstop : hourStart + hourNanos ≤ stop) (hgrid : hourStart % hourNanos = 0)
    {before kept after : List ProvenWindowV1}
    (hl : inOrder parts.flatten id = before ++ kept ++ after) (hkept : kept ≠ [])
    (hin : ∀ w ∈ kept, w ∈ touching start stop parts)
    (hbefore : ∀ w ∈ before, w ∉ touching start stop parts)
    (hafter : ∀ w ∈ after, w ∉ touching start stop parts) :
    ∃ extra, Drops hourStart kept (inOrder parts.flatten id) extra ∧
      (extra = [] ↔ ¬ CutBefore hourStart before kept ∧ ¬ CutAfter hourStart kept after) := by
  have hordered := h.ordered_session id
  have hmem : ∀ w ∈ before ++ kept ++ after, w ∈ parts.flatten ∧ w.sessionId = id :=
    fun w hw => mem_inOrder.mp (hl ▸ hw)
  rw [hl] at hordered ⊢
  obtain ⟨hfront, -, hcross'⟩ := List.pairwise_append.mp hordered
  obtain ⟨-, -, hcross⟩ := List.pairwise_append.mp hfront
  obtain ⟨k, hk⟩ := List.exists_mem_of_ne_nil kept hkept
  obtain ⟨-, hkId⟩ := hmem k (by simp [hk])
  refine drops_outside hgrid hordered hkept (fun w hw => ?_) fun w hw => ?_
  · obtain ⟨hwMem, hwId⟩ := hmem w (by simp [hw])
    exact (h.end_le_of_dropped hwMem (hbefore w hw) (hin k hk) (hwId.trans hkId.symm)
      (hcross w hw k hk)).trans hstart
  · obtain ⟨hwMem, hwId⟩ := hmem w (by simp [hw])
    exact hstop.trans (h.start_ge_of_dropped hwMem (hafter w hw) (hin k hk)
      (hwId.trans hkId.symm) (hcross' k (List.mem_append_right _ hk) w hw))

/-- `b` follows `a` in its session, and a rollover links them. -/
structure Follows (windows : List ProvenWindowV1) (a b : ProvenWindowV1) : Prop where
  next : [a, b] <:+: inOrder windows a.sessionId
  linked : Linked a b

/-- A rollover between a partition that is read and one that is not, where the hour shows it: the
run seems to stop in the hour, or a bounded segment in it seems to be a run of its own. -/
def CutAt (start stop hourStart : ℤ) (parts : List (List ProvenWindowV1)) (a b : ProvenWindowV1) :
    Prop :=
  Follows parts.flatten a b ∧
    ((a ∈ touching start stop parts ∧ b ∉ touching start stop parts ∧
        hourStart < a.interval.endUtcNanos ∧ a.interval.endUtcNanos < hourStart + hourNanos) ∨
      (a ∉ touching start stop parts ∧ b ∈ touching start stop parts ∧
        b.interval.endProof = .operatorBoundedStop ∧ hourStart ≤ b.interval.startUtcNanos ∧
          b.interval.endUtcNanos < hourStart + hourNanos))

section Hour

variable {hourStart : ℤ} {before kept after : List ProvenWindowV1} {a b : ProvenWindowV1}

theorem cutAt_of_cut (hl : inOrder parts.flatten id = before ++ kept ++ after)
    (hin : ∀ w ∈ kept, w ∈ touching start stop parts)
    (hbefore : ∀ w ∈ before, w ∉ touching start stop parts)
    (hafter : ∀ w ∈ after, w ∉ touching start stop parts)
    (h : CutBefore hourStart before kept ∨ CutAfter hourStart kept after) :
    ∃ a b, a.sessionId = id ∧ CutAt start stop hourStart parts a b := by
  have hmem : ∀ w ∈ before ++ kept ++ after, w.sessionId = id :=
    fun w hw => (mem_inOrder.mp (hl ▸ hw)).2
  rcases h with ⟨a, ha, b, hb, hlinked, hbounded, hlow, hhigh⟩ |
    ⟨a, ha, b, hb, hlinked, hinside⟩
  · obtain ⟨front, rfl⟩ := List.getLast?_eq_some_iff.mp ha
    obtain ⟨rest, rfl⟩ := List.head?_eq_some_iff.mp hb
    have hid := hmem a (by simp)
    refine ⟨a, b, hid, ⟨⟨front, rest ++ after, ?_⟩, hlinked⟩, .inr ⟨hbefore a (by simp),
      hin b (by simp), hbounded, hlow, hhigh⟩⟩
    rw [hid, hl]
    simp
  · obtain ⟨front, rfl⟩ := List.getLast?_eq_some_iff.mp ha
    obtain ⟨rest, rfl⟩ := List.head?_eq_some_iff.mp hb
    have hid := hmem a (by simp)
    refine ⟨a, b, hid, ⟨⟨before ++ front, rest, ?_⟩, hlinked⟩, .inl ⟨hin a (by simp),
      hafter b (by simp), hinside⟩⟩
    rw [hid, hl]
    simp

theorem kept_together (h : Days parts) (hlt : start < stop) {part : List ProvenWindowV1}
    (hsub : part.Sublist (inOrder parts.flatten id)) : ∀ a b c, [a, b, c].Sublist part →
      decide (a ∈ touching start stop parts) = true →
        decide (c ∈ touching start stop parts) = true →
          decide (b ∈ touching start stop parts) = true :=
  fun _ _ _ habc ha hc => decide_eq_true
    (h.kept_between hlt (habc.trans hsub) (of_decide_eq_true ha) (of_decide_eq_true hc))

theorem cut_of_cutAt (h : Days parts) (hlt : start < stop) (hid : a.sessionId = id)
    (hcut : CutAt start stop hourStart parts a b) :
    ∃ before after, inOrder parts.flatten id =
        before ++ inOrder (touching start stop parts) id ++ after ∧
      (∀ w ∈ before, w ∉ touching start stop parts) ∧
      (∀ w ∈ after, w ∉ touching start stop parts) ∧
      (CutBefore hourStart before (inOrder (touching start stop parts) id) ∨
        CutAfter hourStart (inOrder (touching start stop parts) id) after) := by
  obtain ⟨⟨⟨front, rest, hnext⟩, hlinked⟩, hcase⟩ := hcut
  rw [hid] at hnext
  have hl : inOrder parts.flatten id = (front ++ [a]) ++ (b :: rest) := by
    rw [← hnext]
    simp
  have hsub : (front ++ [a]).Sublist (inOrder parts.flatten id) :=
    hl ▸ List.sublist_append_left _ _
  have hsub' : (b :: rest).Sublist (inOrder parts.flatten id) := hl ▸ List.sublist_append_right _ _
  rw [h.sorted_touching]
  rcases hcase with ⟨ha, hb, hinside⟩ | ⟨ha, hb, hbounded, hlow, hhigh⟩
  · -- nothing after `a` is kept
    have hdropped : ∀ w ∈ b :: rest, w ∉ touching start stop parts := by
      intro w hw
      rcases List.mem_cons.mp hw with rfl | hw
      · exact hb
      · intro hkept
        have habw : [a, b, w].Sublist (inOrder parts.flatten id) := by
          rw [← hnext, List.append_assoc]
          exact ((List.Sublist.refl [a, b]).append (List.singleton_sublist.mpr hw)).trans
            (List.sublist_append_right _ _)
        exact hb (h.kept_between hlt habw ha hkept)
    obtain ⟨before, hpart, hbefore⟩ :=
      Stretches.filter_together_concat (h.kept_together hlt hsub) (decide_eq_true ha)
    have hfilter : (b :: rest).filter (fun w => decide (w ∈ touching start stop parts)) = [] :=
      List.filter_eq_nil_iff.mpr fun w hw => by simpa using hdropped w hw
    rw [hl, List.filter_append, hfilter, List.append_nil]
    refine ⟨before, b :: rest, congrArg (· ++ b :: rest) hpart,
      fun w hw => of_decide_eq_false (hbefore w hw), hdropped,
      .inr ⟨a, ?_, b, rfl, hlinked, hinside⟩⟩
    rw [List.filter_append, List.filter_cons_of_pos (by simpa using ha)]
    exact List.getLast?_concat
  · -- nothing before `b` is kept
    have hdropped : ∀ w ∈ front ++ [a], w ∉ touching start stop parts := by
      intro w hw
      rcases List.mem_append.mp hw with hw | hw
      · intro hkept
        have hwab : [w, a, b].Sublist (inOrder parts.flatten id) := by
          rw [← hnext]
          exact ((List.singleton_sublist.mpr hw).append (List.Sublist.refl [a, b])).trans
            (List.sublist_append_left _ _)
        exact ha (h.kept_between hlt hwab hkept hb)
      · rwa [List.mem_singleton.mp hw]
    obtain ⟨after, hpart, hafter⟩ :=
      Stretches.filter_together_cons (h.kept_together hlt hsub') (decide_eq_true hb)
    have hfilter : (front ++ [a]).filter (fun w => decide (w ∈ touching start stop parts)) = [] :=
      List.filter_eq_nil_iff.mpr fun w hw => by simpa using hdropped w hw
    rw [hl, List.filter_append, hfilter, List.nil_append]
    refine ⟨front ++ [a], after, by rw [List.append_assoc _ _ after, ← hpart], hdropped,
      fun w hw => of_decide_eq_false (hafter w hw),
      .inl ⟨a, List.getLast?_concat, b, ?_, hlinked, hbounded, hlow, hhigh⟩⟩
    rw [List.filter_cons_of_pos (by simpa using hb)]
    rfl

theorem session_drops (h : Days parts) (hstart : start ≤ hourStart)
    (hstop : hourStart + hourNanos ≤ stop) (hgrid : hourStart % hourNanos = 0) (id : UUID) :
    ∃ extra, Drops hourStart (inOrder (touching start stop parts) id) (inOrder parts.flatten id)
        extra ∧
      (extra = [] ↔ ∀ a b, a.sessionId = id → ¬ CutAt start stop hourStart parts a b) := by
  have hlt : start < stop := by
    have hpos : (0 : ℤ) < hourNanos := by decide
    omega
  have hin : ∀ w ∈ inOrder (touching start stop parts) id, w ∈ touching start stop parts :=
    fun w hw => (mem_inOrder.mp hw).1
  by_cases hcut : ∃ a b, a.sessionId = id ∧ CutAt start stop hourStart parts a b
  · obtain ⟨a, b, hid, hcut⟩ := hcut
    obtain ⟨before, after, hl, hbefore, hafter, hends⟩ := h.cut_of_cutAt hlt hid hcut
    have hne : inOrder (touching start stop parts) id ≠ [] := by
      intro hnil
      rw [hnil] at hends
      rcases hends with ⟨a, ha, b, hb, -⟩ | ⟨a, ha, -⟩
      · cases hb
      · cases ha
    obtain ⟨extra, hdrops, hiff⟩ :=
      h.drops_parts hstart hstop hgrid hl hne hin hbefore hafter
    refine ⟨extra, hdrops, iff_of_false (fun hnil => ?_) fun hnone => hnone a b hid hcut⟩
    obtain ⟨hnotBefore, hnotAfter⟩ := hiff.mp hnil
    exact hends.elim hnotBefore hnotAfter
  · have hnone : ∀ a b, a.sessionId = id → ¬ CutAt start stop hourStart parts a b :=
      fun a b hid hcutAt => hcut ⟨a, b, hid, hcutAt⟩
    obtain ⟨before, after, hl, hbefore, hafter⟩ :=
      Stretches.filter_together (h.kept_together hlt (List.Sublist.refl (inOrder parts.flatten id)))
    rw [← h.sorted_touching] at hl
    have hbefore' := fun w hw => of_decide_eq_false (hbefore w hw)
    have hafter' := fun w hw => of_decide_eq_false (hafter w hw)
    by_cases hne : inOrder (touching start stop parts) id = []
    · -- nothing of the session is read, and nothing of it lies in the hour
      refine ⟨[], ?_, iff_of_true rfl hnone⟩
      have hout : ∀ w ∈ inOrder parts.flatten id, Outside hourStart w := by
        intro w hw
        obtain ⟨hmem, hid⟩ := mem_inOrder.mp hw
        obtain ⟨p, hp, hwp⟩ := List.mem_flatten.mp hmem
        have hnot : w ∉ touching start stop parts := by
          intro hkept
          have hmem' : w ∈ inOrder (touching start stop parts) id := mem_inOrder.mpr ⟨hkept, hid⟩
          rw [hne] at hmem'
          cases hmem'
        have hnotTouch : ¬ Touches start stop w := fun htouch =>
          hnot (mem_touching.mpr ⟨p, hp, ⟨w, hwp, htouch⟩, hwp⟩)
        unfold Touches at hnotTouch
        unfold Outside
        omega
      obtain ⟨hreaching, hstops⟩ := contributions_sessionRuns hout
      obtain ⟨hreaching', hstops'⟩ := @contributions_sessionRuns hourStart [] (by simp)
      rw [hne]
      exact ⟨by rw [hstops, hstops', List.append_nil], fun _ => hreaching'.trans hreaching.symm⟩
    · obtain ⟨extra, hdrops, hiff⟩ :=
        h.drops_parts hstart hstop hgrid hl hne hin hbefore' hafter'
      refine ⟨extra, hdrops, iff_of_true (hiff.mpr ⟨fun hends => ?_, fun hends => ?_⟩) hnone⟩
      · exact hcut (cutAt_of_cut hl hin hbefore' hafter' (.inl hends))
      · exact hcut (cutAt_of_cut hl hin hbefore' hafter' (.inr hends))

end Hour

end Days

/-! ## All sessions -/

section Sessions

variable {hourStart : ℤ} {windows : List ProvenWindowV1} {runs more : List ProvenRunV1}
  {ids : List UUID}

theorem stopsOf_perm (h : runs.Perm more) :
    (stopsOf hourStart runs).Perm (stopsOf hourStart more) := (h.filter _).map _

theorem reaching_perm (h : runs.Perm more) :
    (reaching hourStart runs).Perm (reaching hourStart more) := (h.filter _).map _

theorem stopsOf_flatMap (f : UUID → List ProvenRunV1) :
    stopsOf hourStart (ids.flatMap f) = ids.flatMap fun id => stopsOf hourStart (f id) := by
  simp [stopsOf, List.filter_flatMap, List.map_flatMap]

theorem reaching_flatMap (f : UUID → List ProvenRunV1) :
    reaching hourStart (ids.flatMap f) = ids.flatMap fun id => reaching hourStart (f id) := by
  simp [reaching, List.filter_flatMap, List.map_flatMap]

theorem runs_perm (h : chainProvenRunsV1 windows = .ok runs) (hids : ids.Nodup)
    (hall : ∀ w ∈ windows, w.sessionId ∈ ids) :
    runs.Perm (ids.flatMap fun id => sessionRuns (inOrder windows id)) := by
  have hkey : ∀ run ∈ runs, run.sessionId ∈ ids := by
    intro run hrun
    have hmem : run ∈ runs.filter fun r => decide (r.sessionId = run.sessionId) :=
      List.mem_filter.mpr ⟨hrun, decide_eq_true rfl⟩
    obtain ⟨stretch, hstretch, hrunOf⟩ :=
      List.mem_filterMap.mp ((runs_of_session h run.sessionId).mem_iff.mp hmem)
    obtain ⟨w, hw⟩ := List.exists_mem_of_ne_nil stretch (List.ne_nil_of_mem_splitBy hstretch)
    obtain ⟨hwindow, hid⟩ := mem_inOrder.mp (mem_of_mem_stretch hstretch hw)
    exact hid ▸ hall w hwindow
  refine (Stretches.perm_flatMap_key hids hkey).trans (List.Perm.flatMap_left ids fun id _ => ?_)
  exact runs_of_session h id

theorem min?_of_perm {values others : List ℤ} (h : values.Perm others) :
    values.min? = others.min? := by
  refine Option.ext fun a => ?_
  rw [List.min?_eq_some_iff, List.min?_eq_some_iff, h.mem_iff]
  refine and_congr_right fun _ => ⟨fun hle b hb => hle b (h.mem_iff.mpr hb),
    fun hle b hb => hle b (h.mem_iff.mp hb)⟩

theorem keyTells_stopKey (stops : List (ℤ × EndProof)) : KeyTells stopKey stops := by
  rintro ⟨a, proof⟩ - ⟨b, proof'⟩ - hkey
  obtain ⟨rfl, hvalue⟩ := Prod.mk.inj (toLex.injective hkey)
  have hproof : some proof = some proof' := by
    rw [← EndProof.ofValue?_value, ← EndProof.ofValue?_value, hvalue]
  rw [Option.some.inj hproof]

/-- The facts of an hour of the range are the same from the partitions that touch the range as
from all of them precisely if no rollover is cut. -/
theorem Days.facts_iff {parts : List (List ProvenWindowV1)} {start stop : ℤ} (h : Days parts)
    (hstart : start ≤ hourStart) (hstop : hourStart + hourNanos ≤ stop)
    (hgrid : hourStart % hourNanos = 0) {kept all : List ProvenRunV1}
    (hkept : chainProvenRunsV1 (touching start stop parts) = .ok kept)
    (hall : chainProvenRunsV1 parts.flatten = .ok all) :
    hourFactsV1 kept hourStart = hourFactsV1 all hourStart ↔
      ¬ ∃ a b, CutAt start stop hourStart parts a b := by
  let ids := (parts.flatten.map ProvenWindowV1.sessionId).dedup
  have hids : ids.Nodup := List.nodup_dedup _
  have hmem : ∀ w ∈ parts.flatten, w.sessionId ∈ ids := fun w hw =>
    List.mem_dedup.mpr (List.mem_map_of_mem hw)
  have hmem' : ∀ w ∈ touching start stop parts, w.sessionId ∈ ids := by
    intro w hw
    obtain ⟨p, hp, -, hwp⟩ := Days.mem_touching.mp hw
    exact hmem w (List.mem_flatten.mpr ⟨p, hp, hwp⟩)
  have hpermKept := runs_perm hkept hids hmem'
  have hpermAll := runs_perm hall hids hmem
  choose extra hdrops hiff using fun id => h.session_drops hstart hstop hgrid id
  have hstops : (stopsOf hourStart kept).Perm (stopsOf hourStart all ++ ids.flatMap extra) := by
    refine (stopsOf_perm hpermKept).trans ?_
    rw [stopsOf_flatMap]
    refine (List.Perm.flatMap_left ids fun id _ => (hdrops id).stops).trans ?_
    refine (List.flatMap_append_perm ids _ extra).symm.trans (List.Perm.append_right _ ?_)
    rw [← stopsOf_flatMap]
    exact (stopsOf_perm hpermAll).symm
  unfold hourFactsV1
  rw [if_neg (not_not.mpr hgrid), if_neg (not_not.mpr hgrid)]
  constructor
  · rintro heq ⟨a, b, hcut⟩
    have hsorted := congrArg HourFactsV1.stops (Except.ok.inj heq)
    have hlength : (stopsOf hourStart kept).length = (stopsOf hourStart all).length := by
      rw [← (sortBy_perm stopKey (stopsOf hourStart kept)).length_eq,
        ← (sortBy_perm stopKey (stopsOf hourStart all)).length_eq]
      exact congrArg List.length hsorted
    rw [hstops.length_eq, List.length_append] at hlength
    have hnil : ids.flatMap extra = [] := List.eq_nil_of_length_eq_zero (by omega)
    have haMem : a ∈ parts.flatten :=
      (mem_inOrder.mp (hcut.1.next.subset List.mem_cons_self)).1
    have hextra : extra a.sessionId = [] := List.flatMap_eq_nil_iff.mp hnil _ (hmem a haMem)
    exact (hiff a.sessionId).mp hextra a b rfl hcut
  · intro hnone
    have hextra : ∀ id, extra id = [] := fun id =>
      (hiff id).mpr fun a b _ hcut => hnone ⟨a, b, hcut⟩
    have hnil : ids.flatMap extra = [] := List.flatMap_eq_nil_iff.mpr fun id _ => hextra id
    rw [hnil, List.append_nil] at hstops
    have hreaching : (reaching hourStart kept).Perm (reaching hourStart all) := by
      refine (reaching_perm hpermKept).trans ((List.Perm.of_eq ?_).trans
        (reaching_perm hpermAll).symm)
      rw [reaching_flatMap, reaching_flatMap]
      exact List.flatMap_congr fun id _ => (hdrops id).reaching (hextra id)
    rw [min?_of_perm hreaching, sortBy_congr (keyTells_stopKey _) hstops]

end Sessions

end HourlyAcceptance

end TradePlatform
