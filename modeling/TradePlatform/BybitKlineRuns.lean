/-
# `TradePlatform.BybitKlineRuns` — resumed attempts take every bar of a window once

A page is the newest bars of what is left of the window, so the earliest open that it has seen
splits the window into what was captured and what the next page asks for.  With the cursor
this is kept by every attempt, wherever it fails; the one cursor that cannot be resumed from is
that of the millisecond before the epoch, whose sign the adapter does not read.
-/
import TradePlatform.BybitKlines

namespace TradePlatform.BybitKlines

open HistoricalIngestion RawCapture

/-! ## The texts of instants -/

theorem toList_toString_of_nonneg {n : ℤ} (h : 0 ≤ n) :
    (toString n).toList = Nat.toDigits 10 n.toNat := by
  rw [Int.toString_eq_repr, Int.repr_eq_if, if_pos h, Nat.toList_repr]

theorem digitsValue?_toString (n : ℤ) :
    digitsValue? (toString n).toList = if 0 ≤ n then some n else none := by
  unfold digitsValue?
  by_cases h : 0 ≤ n
  · have hdigits : ∀ c ∈ Nat.toDigits 10 n.toNat, c.isDigit = true := fun c hc =>
      Nat.isDigit_of_mem_toDigits (by decide) (by decide) hc
    rw [toList_toString_of_nonneg h, if_pos h,
      if_pos ⟨Nat.toDigits_ne_nil, List.all_eq_true.mpr hdigits⟩, Nat.ofDigitChars_ten_toDigits,
      Int.toNat_of_nonneg h]
  · have hminus : (toString n).toList = '-' :: (-n).toNat.repr.toList := by
      rw [Int.toString_eq_repr, Int.repr_eq_if, if_neg h, String.toList_append]
      rfl
    rw [hminus, if_neg h, if_neg]
    rintro ⟨-, hall⟩
    exact absurd (List.all_eq_true.mp hall '-' List.mem_cons_self) (by decide)

theorem providerMilliseconds_toString {n m : ℤ} {label : String} :
    providerMilliseconds (toString n) label = .ok m ↔ 0 ≤ n ∧ m = n := by
  unfold providerMilliseconds
  rw [digitsValue?_toString]
  by_cases h : 0 ≤ n
  · rw [if_pos h]
    exact ⟨fun hok => ⟨h, (Except.ok.inj hok).symm⟩, fun hm => congrArg Except.ok hm.2.symm⟩
  · rw [if_neg h]
    exact iff_of_false (fun hok => nomatch hok) fun hm => h hm.1

theorem klineWindowEnd_timeCursor {n startMs endMs : ℤ} (h : 0 ≤ n) (hstart : startMs ≤ n)
    (hend : n ≤ endMs - 1) : klineWindowEnd (some (timeCursor n)) startMs endMs = .ok n := by
  have htext : (timeCursor n).toList = 't' :: ':' :: (toString n).toList := by
    rw [timeCursor, String.toList_append]
    rfl
  have hread : cursorWindowEnd (some (timeCursor n)) startMs endMs = .ok n := by
    unfold cursorWindowEnd
    simp only [htext, digitsValue?_toString, if_pos h]
    exact if_neg (not_not.mpr ⟨hstart, hend⟩)
  unfold klineWindowEnd
  rw [hread]
  exact if_neg (not_lt.mpr hstart)

theorem klineWindowEnd_none {startMs endMs : ℤ} (h : startMs < endMs) :
    klineWindowEnd none startMs endMs = .ok (endMs - 1) := by
  show (if endMs - 1 < startMs then _ else _) = _
  exact if_neg (by omega)

theorem klineWindowEnd_bounds {cursor : Option String} {startMs endMs w : ℤ}
    (h : klineWindowEnd cursor startMs endMs = .ok w) : startMs ≤ w ∧ w ≤ endMs - 1 := by
  obtain ⟨w', hread, h⟩ := Except.bind_eq_ok.mp h
  obtain ⟨hlower, h⟩ := Except.of_ite_error h
  cases h
  refine ⟨not_lt.mp hlower, ?_⟩
  unfold cursorWindowEnd at hread
  split at hread
  · cases hread
    exact le_rfl
  · split at hread
    · cases hread
    · split at hread
      · cases hread
      · obtain ⟨hin, hread⟩ := Except.of_ite_error hread
        cases hread
        exact (not_not.mp hin).2
    · cases hread

/-! ## The rows of bars -/

variable {decimal : String → Bool} {kind : KlineKind} {scope : BybitScope} {sourceId : UUID}

section Rows

variable {retrievedAt : ℤ} {draw : ℤ → UUID} {bar : Bar decimal scope.kind}
  {bars : List (Bar decimal scope.kind)}

theorem isSpace_of_isDigit {c : Char} (h : c.isDigit = true) : isSpace c = false := by
  have hcode : 48 ≤ c.toNat ∧ c.toNat ≤ 57 := by
    simpa [Char.isDigit, UInt32.le_iff_toNat_le] using h
  simp only [isSpace, Bool.or_eq_false_iff, Bool.and_eq_false_iff, decide_eq_false_iff_not,
    beq_eq_false_iff_ne, ne_eq]
  omega

theorem blank_toString (n : ℤ) : blank (toString n) = false := by
  unfold blank
  by_cases h : 0 ≤ n
  · rw [toList_toString_of_nonneg h]
    obtain ⟨c, digits, hdigits⟩ := List.exists_cons_of_ne_nil
      (Nat.toDigits_ne_nil (n := n.toNat) (b := 10))
    have hc : c.isDigit = true := Nat.isDigit_of_mem_toDigits (by decide) (by decide)
      (hdigits ▸ List.mem_cons_self)
    rw [hdigits, List.all_cons, isSpace_of_isDigit hc, Bool.false_and]
  · have hminus : (toString n).toList = '-' :: (-n).toNat.repr.toList := by
      rw [Int.toString_eq_repr, Int.repr_eq_if, if_neg h, String.toList_append]
      rfl
    rw [hminus]
    rfl

theorem klineRow_row (bar : Bar decimal kind) : klineRow kind bar.row = .ok bar.row := by
  have hlength : bar.row.length = kind.expectedFields := by
    rw [Bar.row, List.length_cons, bar.length]
  have hblank : bar.row.any blank = false := by
    rw [Bar.row, List.any_cons, blank_toString, Bool.false_or, List.any_eq_false]
    intro value hvalue
    rw [(bar.finite value hvalue).2]
    exact Bool.false_ne_true
  unfold klineRow
  rw [if_neg (by omega), List.take_of_length_le hlength.le, hblank]
  rfl

/-- What the loop does with the row of a bar: it refuses one that opens before the epoch, and
records one that lies inside a scope that has passed. -/
theorem readRow_row (hclosed : scope.end_ ≤ retrievedAt)
    {read : ℤ × Option (RawHistoricalObservation KlinePayload)}
    (h : readRow decimal scope sourceId retrievedAt draw bar.row = .ok read) :
    0 ≤ bar.openMs ∧ read.1 = bar.openMs ∧
      if bar.Inside scope then ∃ record, read.2 = some record ∧ Records scope sourceId bar record
      else read.2 = none := by
  obtain ⟨fields, hfields, h⟩ := Except.bind_eq_ok.mp h
  obtain rfl : bar.row = fields := Except.ok.inj ((klineRow_row bar).symm.trans hfields)
  obtain ⟨openMs, hopen, h⟩ := Except.bind_eq_ok.mp h
  obtain ⟨hnonneg, rfl⟩ := providerMilliseconds_toString.mp hopen
  refine ⟨hnonneg, ?_⟩
  dsimp only at h
  split at h
  · rename_i houtside
    cases h
    refine ⟨rfl, ?_⟩
    rw [if_neg]
    rintro ⟨hstart, hend⟩
    omega
  · rename_i hinside
    have hin : bar.Inside scope := ⟨by omega, by omega⟩
    rw [if_pos hin]
    rw [if_neg (by have := hin.2; omega)] at h
    obtain ⟨payload, hpayload, h⟩ := Except.bind_eq_ok.mp h
    cases h
    exact ⟨rfl, _, rfl, _, _, payload, hpayload, rfl⟩

theorem mapM_readRow (hclosed : scope.end_ ≤ retrievedAt)
    {reads : List (ℤ × Option (RawHistoricalObservation KlinePayload))}
    (h : (bars.map Bar.row).mapM (readRow decimal scope sourceId retrievedAt draw) = .ok reads) :
    (∀ bar ∈ bars, 0 ≤ bar.openMs) ∧ reads.map Prod.fst = bars.map Bar.openMs ∧
      List.Forall₂ (Records scope sourceId) (bars.filter fun bar => decide (bar.Inside scope))
        (reads.filterMap Prod.snd) := by
  induction bars generalizing reads with
  | nil =>
      cases h
      exact ⟨fun _ h => absurd h List.not_mem_nil, rfl, .nil⟩
  | cons bar bars ih =>
      rw [List.map_cons, List.mapM_cons] at h
      obtain ⟨read, hread, h⟩ := Except.bind_eq_ok.mp h
      obtain ⟨rest, hrest, h⟩ := Except.bind_eq_ok.mp h
      cases h
      obtain ⟨hnonneg, hopen, hrecord⟩ := readRow_row hclosed hread
      obtain ⟨hnonnegs, hopens, hrecords⟩ := ih hrest
      refine ⟨List.forall_mem_cons.mpr ⟨hnonneg, hnonnegs⟩, ?_, ?_⟩
      · rw [List.map_cons, List.map_cons, hopen, hopens]
      · by_cases hin : bar.Inside scope
        · rw [if_pos hin] at hrecord
          obtain ⟨record, hsome, hrecord⟩ := hrecord
          rw [List.filter_cons, if_pos (decide_eq_true hin), List.filterMap_cons_some hsome]
          exact .cons hrecord hrecords
        · rw [if_neg hin] at hrecord
          rw [List.filter_cons, if_neg (by simpa using hin), List.filterMap_cons_none hrecord]
          exact hrecords

end Rows

/-! ## The window, and what is left of it -/

section Window

variable {venue : Venue decimal kind} {startMs endMs w e : ℤ} {bar : Bar decimal kind}

theorem mem_window : bar ∈ venue.window startMs endMs ↔
    bar ∈ venue.rows ∧ startMs ≤ bar.openMs ∧ bar.openMs ≤ endMs := by
  rw [Venue.window, mem_sortBy, List.mem_filter, decide_eq_true_iff]

theorem eq_of_openMs_eq {bar other : Bar decimal kind} (h : bar ∈ venue.rows)
    (h' : other ∈ venue.rows) (heq : bar.openMs = other.openMs) : bar = other :=
  List.inj_on_of_nodup_map venue.nodup h h' heq

theorem window_pairwise (venue : Venue decimal kind) (startMs endMs : ℤ) :
    (venue.window startMs endMs).Pairwise fun bar other => other.openMs < bar.openMs := by
  have hle := sortBy_pairwise (fun bar : Bar decimal kind => -bar.openMs)
    (venue.rows.filter fun bar => decide (startMs ≤ bar.openMs ∧ bar.openMs ≤ endMs))
  have hnodup : (venue.window startMs endMs).Nodup :=
    ((sortBy_perm _ _).nodup_iff.mpr ((List.Nodup.of_map _ venue.nodup).filter _))
  refine (hle.and hnodup).imp_of_mem fun {bar other} hbar hother h => ?_
  have hne : bar.openMs ≠ other.openMs := fun heq =>
    h.2 (eq_of_openMs_eq (mem_window.mp hbar).1 (mem_window.mp hother).1 heq)
  have := h.1
  omega

theorem window_filter (h : w ≤ endMs) :
    venue.window startMs w = (venue.window startMs endMs).filter fun bar =>
      decide (bar.openMs ≤ w) := by
  have hkey : KeyTells (fun bar : Bar decimal kind => -bar.openMs)
      (venue.rows.filter fun bar => decide (startMs ≤ bar.openMs ∧ bar.openMs ≤ endMs)) := by
    intro bar hbar other hother heq
    exact eq_of_openMs_eq (List.mem_of_mem_filter hbar) (List.mem_of_mem_filter hother)
      (neg_inj.mp heq)
  rw [Venue.window, Venue.window, ← sortBy_filter hkey, List.filter_filter]
  refine congrArg (sortBy _) (List.filter_congr fun bar _ => ?_)
  rw [← Bool.decide_and, decide_eq_decide]
  constructor
  · rintro ⟨hstart, hw⟩
    exact ⟨hw, hstart, hw.trans h⟩
  · rintro ⟨hw, hstart, -⟩
    exact ⟨hstart, hw⟩

theorem take_drop_eq_filter {l : List (Bar decimal kind)} {n : ℕ}
    (hl : l.Pairwise fun bar other => other.openMs < bar.openMs)
    (hmem : ∃ bar ∈ l.take n, bar.openMs = e) (hleast : ∀ bar ∈ l.take n, e ≤ bar.openMs) :
    l.take n = l.filter (fun bar => decide (e ≤ bar.openMs)) ∧
      l.drop n = l.filter fun bar => decide (bar.openMs ≤ e - 1) := by
  obtain ⟨last, hlast, rfl⟩ := hmem
  have hsplit := List.pairwise_append.mp (List.take_append_drop n l ▸ hl)
  have hbelow : ∀ bar ∈ l.drop n, bar.openMs < last.openMs := fun bar hbar =>
    hsplit.2.2 last hlast bar hbar
  have hparts : ∀ p : Bar decimal kind → Bool,
      l.filter p = (l.take n).filter p ++ (l.drop n).filter p := by
    intro p
    rw [← List.filter_append, List.take_append_drop]
  constructor
  · rw [hparts, List.filter_eq_self.mpr fun bar hbar => decide_eq_true (hleast bar hbar),
      List.filter_eq_nil_iff.mpr fun bar hbar => by simpa using hbelow bar hbar, List.append_nil]
  · rw [hparts, List.filter_eq_nil_iff.mpr fun bar hbar => ?_,
      List.filter_eq_self.mpr fun bar hbar => decide_eq_true (by have := hbelow bar hbar; omega),
      List.nil_append]
    have := hleast bar hbar
    simp only [decide_eq_true_eq]
    omega

end Window

/-! ## Records of bars -/

section RecordsOf

variable {bars bars' rest : List (Bar decimal kind)}
  {records records' more : List (RawHistoricalObservation KlinePayload)}

theorem RecordsOf.perm (h : RecordsOf scope sourceId bars records) (hperm : bars.Perm bars') :
    RecordsOf scope sourceId bars' records := by
  obtain ⟨own, hown, hrecords⟩ := h
  exact ⟨own, hown.trans hperm, hrecords⟩

theorem RecordsOf.perm_records (h : RecordsOf scope sourceId bars records)
    (hperm : records'.Perm records) : RecordsOf scope sourceId bars records' := by
  obtain ⟨own, hown, hrecords⟩ := h
  obtain ⟨own', hrecords', hown'⟩ := List.perm_comp_forall₂ hperm hrecords.flip
  exact ⟨own', hown'.trans hown, hrecords'.flip⟩

theorem RecordsOf.append (h : RecordsOf scope sourceId bars records)
    (h' : RecordsOf scope sourceId rest more) :
    RecordsOf scope sourceId (bars ++ rest) (records ++ more) := by
  obtain ⟨own, hown, hrecords⟩ := h
  obtain ⟨own', hown', hmore⟩ := h'
  exact ⟨own ++ own', hown.append hown', List.rel_append hrecords hmore⟩

theorem RecordsOf.exists_bar (h : RecordsOf scope sourceId bars records)
    {record : RawHistoricalObservation KlinePayload} (hrecord : record ∈ records) :
    ∃ bar ∈ bars, Records scope sourceId bar record := by
  obtain ⟨own, hown, hrecords⟩ := h
  obtain ⟨bar, hbar, h⟩ := hrecords.flip.exists_of_mem hrecord
  exact ⟨bar, hown.mem_iff.mp hbar, h⟩

end RecordsOf

/-! ## Pages -/

section Pages

variable {venue : Venue decimal scope.kind} {event : PageEvent decimal scope.kind}
  {cursor : Option String} {page : RawHistoricalPage KlinePayload} {w : ℤ}

/-- All that a page is: the newest bars of what is left of the window, in some order, with the
records of those inside the scope, and the cursor that follows from the earliest open. -/
theorem klinePage_eq_ok (hclosed : event.After scope.end_)
    (h : klinePage venue scope sourceId event cursor = .ok page) :
    ∃ (w : ℤ) (bars : List (Bar decimal scope.kind)),
      klineWindowEnd cursor scope.startMs scope.endMs = .ok w ∧
      bars.Perm (venue.klines scope.startMs w klinePageLimit) ∧
      (∀ bar ∈ bars, 0 ≤ bar.openMs) ∧
      RecordsOf scope sourceId (bars.filter fun bar => decide (bar.Inside scope)) page.records ∧
      nextTimeCursor (bars.map Bar.openMs).min? scope.startMs w = .ok page.nextCursor := by
  obtain ⟨w, hw, h⟩ := Except.bind_eq_ok.mp h
  cases event with
  | fails error => cases h
  | served order hperm retrievedAt draw =>
      obtain ⟨reads, hreads, h⟩ := Except.bind_eq_ok.mp h
      obtain ⟨next, hnext, h⟩ := Except.bind_eq_ok.mp h
      cases h
      obtain ⟨hnonneg, hopens, hrecords⟩ := mapM_readRow hclosed hreads
      rw [hopens] at hnext
      refine ⟨w, _, hw, hperm _, hnonneg, ?_, hnext⟩
      exact RecordsOf.perm_records ⟨_, .refl _, hrecords⟩ (sortBy_perm _ _)

/-- What the next cursor says of a page: it is empty, or it has the earliest bar, and what is
left opens before that. -/
theorem nextTimeCursor_eq_ok {opens : List ℤ} {startMs : ℤ} {next : Option String}
    (h : nextTimeCursor opens.min? startMs w = .ok next) :
    (opens = [] ∧ next = none) ∨
      ∃ e ∈ opens, (∀ o ∈ opens, e ≤ o) ∧
        ((e - 1 < startMs ∧ next = none) ∨
          startMs ≤ e - 1 ∧ e - 1 < w ∧ next = some (timeCursor (e - 1))) := by
  cases hmin : opens.min? with
  | none =>
      rw [hmin] at h
      cases h
      exact .inl ⟨List.min?_eq_none_iff.mp hmin, rfl⟩
  | some e =>
      rw [hmin] at h
      obtain ⟨hmem, hleast⟩ := List.min?_eq_some_iff.mp hmin
      refine .inr ⟨e, hmem, hleast, ?_⟩
      simp only [nextTimeCursor] at h
      split at h
      · rename_i hlast
        cases h
        exact .inl ⟨hlast, rfl⟩
      · rename_i hmore
        obtain ⟨hadvance, h⟩ := Except.of_ite_error h
        cases h
        exact .inr ⟨not_lt.mp hmore, not_le.mp hadvance, rfl⟩

end Pages

/-! ## What a cursor has left behind -/

/-- At a cursor that names `w`: the bars that open later have been captured, and those that do
not are the pages from the `k`-th. -/
structure ReachedAt (venue : Venue decimal kind) (scope : BybitScope) (sourceId : UUID)
    (cursor : Option String) (log : CaptureLog KlinePayload) (w : ℤ) (k : ℕ) : Prop where
  read : klineWindowEnd cursor scope.startMs scope.endMs = .ok w
  left : venue.window scope.startMs w =
    (venue.window scope.startMs (scope.endMs - 1)).drop (klinePageLimit * k)
  succeeded : RecordsOf scope sourceId
    ((venue.inside scope).filter fun bar => decide (w < bar.openMs)) log.succeeded.flatten
  interrupted : ∀ record ∈ log.interrupted,
    ∃ bar ∈ venue.inside scope, Records scope sourceId bar record

def Reached (venue : Venue decimal kind) (scope : BybitScope) (sourceId : UUID)
    (cursor : Option String) (log : CaptureLog KlinePayload) : Prop :=
  ∃ w k, ReachedAt venue scope sourceId cursor log w k

def rank (scope : BybitScope) (cursor : Option String) : ℤ :=
  match klineWindowEnd cursor scope.startMs scope.endMs with
  | .ok w => w
  | .error _ => 0

theorem rank_of_ok {cursor : Option String} {w : ℤ}
    (h : klineWindowEnd cursor scope.startMs scope.endMs = .ok w) : rank scope cursor = w := by
  rw [rank, h]

section Turn

variable {venue : Venue decimal kind} {w e : ℤ} {bar : Bar decimal kind}

theorem mem_inside : bar ∈ venue.inside scope ↔ bar ∈ venue.rows ∧ bar.Inside scope := by
  rw [Venue.inside, List.mem_filter, decide_eq_true_iff]

theorem Bar.Inside.opens (h : bar.Inside scope) :
    scope.startMs ≤ bar.openMs ∧ bar.openMs ≤ scope.endMs - 1 := by
  obtain ⟨hstart, hend⟩ := h
  unfold BybitScope.startMs BybitScope.endMs epochMilliseconds
  unfold barWidth at hend
  omega

/-- The bars of a page, and those that were captured before, are those that open from the
earliest of the page. -/
theorem inside_perm (p : Bar decimal kind → Bool)
    (hp : ∀ bar ∈ venue.inside scope, w < bar.openMs → p bar = true) :
    ((venue.inside scope).filter (fun bar => decide (w < bar.openMs)) ++
        ((venue.window scope.startMs w).filter p).filter fun bar =>
          decide (bar.Inside scope)).Perm ((venue.inside scope).filter p) := by
  have hnodup : (venue.inside scope).Nodup := (List.Nodup.of_map _ venue.nodup).filter _
  have hwindow : (venue.window scope.startMs w).Nodup :=
    (sortBy_perm _ _).nodup_iff.mpr ((List.Nodup.of_map _ venue.nodup).filter _)
  refine (List.perm_ext_iff_of_nodup (List.nodup_append.mpr ⟨hnodup.filter _,
    (hwindow.filter _).filter _, ?_⟩) (hnodup.filter _)).mpr fun bar => ?_
  · rintro bar hlater other hother rfl
    have hle := (mem_window.mp (List.mem_of_mem_filter (List.mem_of_mem_filter hother))).2.2
    have hlt : w < bar.openMs := by simpa using (List.mem_filter.mp hlater).2
    omega
  · simp only [List.mem_append, List.mem_filter, decide_eq_true_eq, mem_inside, mem_window]
    constructor
    · rintro (⟨⟨hmem, hin⟩, hlt⟩ | ⟨⟨⟨hmem, -⟩, hpage⟩, hin⟩)
      · exact ⟨⟨hmem, hin⟩, hp bar (mem_inside.mpr ⟨hmem, hin⟩) hlt⟩
      · exact ⟨⟨hmem, hin⟩, hpage⟩
    · rintro ⟨⟨hmem, hin⟩, hpage⟩
      by_cases hlt : w < bar.openMs
      · exact .inl ⟨⟨hmem, hin⟩, hlt⟩
      · exact .inr ⟨⟨⟨hmem, hin.opens.1, not_lt.mp hlt⟩, hpage⟩, hin⟩

end Turn

section Step

variable {venue : Venue decimal scope.kind} {event : PageEvent decimal scope.kind}
  {cursor : Option String} {page : RawHistoricalPage KlinePayload}
  {log log' : CaptureLog KlinePayload}

theorem flatten_of_captured {records : List (RawHistoricalObservation KlinePayload)}
    (h : log' = log.add records ∨ records = [] ∧ log' = log) :
    log'.succeeded.flatten = log.succeeded.flatten ++ records ∧
      log'.interrupted = log.interrupted := by
  rcases h with rfl | ⟨rfl, rfl⟩
  · exact ⟨by simp [CaptureLog.add], rfl⟩
  · exact ⟨(List.append_nil _).symm, rfl⟩

/-- A page that is served takes what it captures out of what is left, and moves the cursor to
the rest; only where it ends at the epoch is there a cursor that is not read. -/
theorem klinePage_turn (hclosed : event.After scope.end_) (hepoch : ¬ EpochEndsPage venue scope)
    (h : Reached venue scope sourceId cursor log)
    (hpage : klinePage venue scope sourceId event cursor = .ok page) :
    (∀ kept, Reached venue scope sourceId cursor
      (log.interrupt (page.records.filter kept))) ∧
    ∀ log', log' = log.add page.records ∨ page.records = [] ∧ log' = log →
      match page.nextCursor with
      | none => Complete venue scope sourceId log'
      | some next => Reached venue scope sourceId (some next) log' ∧
          rank scope (some next) < rank scope cursor := by
  obtain ⟨w, k, hat⟩ := h
  obtain ⟨w', bars, hread, hperm, hnonneg, hrecords, hnext⟩ := klinePage_eq_ok hclosed hpage
  obtain rfl : w = w' := Except.ok.inj (hat.read.symm.trans hread)
  have hbounds := klineWindowEnd_bounds hread
  have hfrom : ∀ record ∈ page.records, ∃ bar ∈ venue.inside scope,
      Records scope sourceId bar record := by
    intro record hrecord
    obtain ⟨bar, hbar, h⟩ := hrecords.exists_bar hrecord
    obtain ⟨hbar, hin⟩ := List.mem_filter.mp hbar
    have hwindow := List.mem_of_mem_take (hperm.mem_iff.mp hbar)
    exact ⟨bar, mem_inside.mpr ⟨(mem_window.mp hwindow).1, of_decide_eq_true hin⟩, h⟩
  refine ⟨fun kept => ⟨w, k, hat.read, hat.left, hat.succeeded, fun record hrecord => ?_⟩,
    fun log' hlog => ?_⟩
  · rcases List.mem_append.mp hrecord with hrecord | hrecord
    · exact hat.interrupted record hrecord
    · exact hfrom record (List.mem_of_mem_filter hrecord)
  · obtain ⟨hflatten, hinterrupted⟩ := flatten_of_captured hlog
    have hkept : ∀ record ∈ log'.interrupted, ∃ bar ∈ venue.inside scope,
        Records scope sourceId bar record := hinterrupted ▸ hat.interrupted
    -- the records of the page, with those before it
    have hall : ∀ p : Bar decimal scope.kind → Bool,
        (∀ bar ∈ venue.inside scope, w < bar.openMs → p bar = true) →
        venue.klines scope.startMs w klinePageLimit =
          (venue.window scope.startMs w).filter p →
        RecordsOf scope sourceId ((venue.inside scope).filter p) log'.succeeded.flatten := by
      intro p hp hpart
      rw [hflatten]
      have hown := hrecords.perm ((hperm.trans (.of_eq hpart)).filter _)
      exact (hat.succeeded.append hown).perm (inside_perm p hp)
    have hdone : venue.klines scope.startMs w klinePageLimit = venue.window scope.startMs w →
        Complete venue scope sourceId log' := by
      intro hpart
      have hrows := hall (fun _ => true) (fun _ _ _ => rfl)
        (hpart.trans (List.filter_eq_self.mpr fun _ _ => rfl).symm)
      rw [List.filter_eq_self.mpr fun _ _ => rfl] at hrows
      exact ⟨hrows, hkept⟩
    rcases nextTimeCursor_eq_ok hnext with ⟨hempty, hnone⟩ | ⟨e, he, hleast, hcases⟩
    · rw [hnone]
      refine hdone ?_
      have hnil : bars = [] := List.map_eq_nil_iff.mp hempty
      have htake : venue.klines scope.startMs w klinePageLimit = [] :=
        (hnil ▸ hperm).nil_eq.symm
      rcases List.take_eq_nil_iff.mp htake with hzero | hwindow
      · cases hzero
      · rw [htake, hwindow]
    · obtain ⟨bar, hbar, hopen⟩ := List.mem_map.mp he
      have hmem : ∃ bar ∈ venue.klines scope.startMs w klinePageLimit, bar.openMs = e :=
        ⟨bar, hperm.mem_iff.mp hbar, hopen⟩
      have hleast' : ∀ bar ∈ venue.klines scope.startMs w klinePageLimit, e ≤ bar.openMs :=
        fun bar hbar => hleast _ (List.mem_map_of_mem (hperm.mem_iff.mpr hbar))
      obtain ⟨htake, hdrop⟩ := take_drop_eq_filter (window_pairwise venue scope.startMs w) hmem
        hleast'
      rcases hcases with ⟨hlast, hnone⟩ | ⟨hstart, hlower, hsome⟩
      · rw [hnone]
        refine hdone (htake.trans (List.filter_eq_self.mpr fun bar hbar => decide_eq_true ?_))
        have := (mem_window.mp hbar).2.1
        omega
      · rw [hsome]
        have hpositive : 0 ≤ e - 1 := by
          have hnonneg' : 0 ≤ e := hopen ▸ hnonneg bar hbar
          by_contra hneg
          have hzero : e = 0 := by omega
          -- the page is the k-th, and it ends at the epoch
          have hpage : venue.page scope k = venue.klines scope.startMs w klinePageLimit := by
            rw [Venue.page, ← hat.left]
            rfl
          refine hepoch ⟨by omega, k, ?_, fun bar hbar => ?_⟩
          · rw [hpage, ← hzero]
            exact hmem
          · exact hzero ▸ hleast' bar (hpage ▸ hbar)
        have hread' := klineWindowEnd_timeCursor hpositive hstart (hlower.le.trans hbounds.2)
        refine ⟨⟨e - 1, k + 1, hread', ?_, ?_, hkept⟩, ?_⟩
        · rw [window_filter hlower.le, ← hdrop, hat.left, List.drop_drop, Nat.mul_succ]
        · refine hall _ (fun bar _ hlater => decide_eq_true (hlower.trans hlater)) ?_
          refine htake.trans (List.filter_congr fun bar _ => ?_)
          rw [decide_eq_decide]
          omega
        · rw [rank_of_ok hread', rank_of_ok hread]
          exact hlower

end Step

/-! ## Runs -/

section Runs

variable {venue : Venue decimal scope.kind}

theorem turns (attempt : KlineAttempt decimal scope.kind) (hepoch : ¬ EpochEndsPage venue scope)
    (hclosed : ∀ n, (attempt.events n).After scope.end_) (env : Env KlinePayload)
    (request : HistoricalIngestionRequest) :
    Turns env (attempt.on venue scope sourceId) request (rank scope)
      (Reached venue scope sourceId) (Complete venue scope sourceId) := by
  intro n cursor log page h hfetch
  obtain ⟨page', hfetch, hvalid⟩ := Except.bind_eq_ok.mp hfetch
  obtain ⟨_, _, hvalid⟩ := Except.bind_eq_ok.mp hvalid
  cases hvalid
  obtain ⟨_, hpage⟩ := Except.of_ite_error hfetch
  exact klinePage_turn (hclosed n) hepoch h hpage

theorem reached_start (haligned : scope.MinuteAligned) :
    Reached venue scope sourceId none .empty := by
  obtain ⟨m, n, hlt, hstart, hend⟩ := haligned
  have hwindow : scope.startMs < scope.endMs := by
    unfold BybitScope.startMs BybitScope.endMs epochMilliseconds
    rw [hstart, hend, barWidth]
    omega
  refine ⟨scope.endMs - 1, 0, klineWindowEnd_none hwindow, rfl, ?_, fun _ h =>
    absurd h List.not_mem_nil⟩
  have hnone : (venue.inside scope).filter (fun bar => decide (scope.endMs - 1 < bar.openMs)) =
      [] := by
    refine List.filter_eq_nil_iff.mpr fun bar hbar => ?_
    have := (mem_inside.mp hbar).2.opens.2
    simp only [decide_eq_true_eq]
    omega
  rw [hnone]
  exact ⟨[], .refl _, .nil⟩

def ingestions (env : Env KlinePayload) (scope : BybitScope) (venue : Venue decimal scope.kind)
    (sourceId : UUID) (attempts : List (KlineAttempt decimal scope.kind)) :
    Ingestion KlinePayload :=
  Run.exec (fun s attempt => resume env sourceId "bybit" s (attempt.on venue scope sourceId))
    .start attempts

/-- However the attempts fail, each resumed from the checkpoint of the last: no checkpoint
names a cursor that the adapter rejects, and where an attempt reports that it completed, the
captures are the bars inside the scope, each once; as long as no page of a window that starts
before the epoch ends at it. -/
theorem ingestions_complete (env : Env KlinePayload) (sourceId : UUID)
    (attempts : List (KlineAttempt decimal scope.kind)) (haligned : scope.MinuteAligned)
    (hclosed : ∀ attempt ∈ attempts, ∀ n, (attempt.events n).After scope.end_)
    (hepoch : ¬ EpochEndsPage venue scope) :
    (∀ o ∈ (ingestions env scope venue sourceId attempts).outcomes, ∀ cursor,
      o.checkpoint.resumeCursor = some cursor →
        ∃ w, klineWindowEnd (some cursor) scope.startMs scope.endMs = .ok w) ∧
    ∀ o ∈ (ingestions env scope venue sourceId attempts).outcomes, o.state = .healthy →
      Complete venue scope sourceId (ingestions env scope venue sourceId attempts).log := by
  let Named : Option String → Prop := fun cursor =>
    ∀ text, cursor = some text → ∃ w, klineWindowEnd (some text) scope.startMs scope.endMs = .ok w
  have hnamed : ∀ cursor log, Reached venue scope sourceId cursor log → Named cursor := by
    rintro cursor log ⟨w, k, hat⟩ text rfl
    exact ⟨w, hat.read⟩
  have hrun : ∀ s : Ingestion KlinePayload,
      Resumes Named (Reached venue scope sourceId) (Complete venue scope sourceId) s →
      Resumes Named (Reached venue scope sourceId) (Complete venue scope sourceId)
        (Run.exec (fun s attempt => resume env sourceId "bybit" s
          (attempt.on venue scope sourceId)) s attempts) := by
    induction attempts with
    | nil => exact fun s h => h
    | cons attempt attempts ih =>
        intro s h
        rw [Run.exec_cons]
        refine ih (fun a ha => hclosed a (List.mem_cons_of_mem _ ha)) _ ?_
        exact h.step (fun _ h => nomatch h) hnamed
          (turns attempt hepoch (hclosed attempt List.mem_cons_self) env)
  have hstart : Resumes Named (Reached venue scope sourceId) (Complete venue scope sourceId)
      (Ingestion.start : Ingestion KlinePayload) := by
    refine ⟨fun cursor h => ?_, fun _ h => absurd h List.not_mem_nil,
      fun _ h => absurd h List.not_mem_nil, fun _ _ h => absurd h List.not_mem_nil⟩
    cases h
    exact reached_start haligned
  have hend := hrun .start hstart
  refine ⟨fun o ho => hend.named o ho, fun o ho hhealthy => hend.final o ho ?_⟩
  rw [hhealthy]
  exact fun h => nomatch h

end Runs

/-! ## Two windows -/

def minutes (m n : ℤ) : BybitScope :=
  ⟨.trade, "linear", "BTCUSDT", "USDT", m * barWidth, n * barWidth⟩

def minuteBar (m : ℤ) : Bar (fun _ => true) .trade where
  openMs := m * 60000
  values := ["1", "2", "0.5", "1.5", "10", "15"]
  length := rfl
  finite := by decide

def textEnv : Env KlinePayload := ⟨fun _ => some "", id, fun _ => true, fun _ => true⟩

/-- An attempt an hour after the epoch; its second page fails, where `failing` says so. -/
def hourAttempt (failing : Bool) : KlineAttempt (fun _ => true) .trade where
  checkedAt := .aware (60 * barWidth)
  maximumPages := 1000
  staleAfter := 0
  termsAccepted := true
  events n :=
    if failing = true ∧ n = 1 then .fails (.providerError "bybit_http_status:503")
    else .served id (fun _ => .refl _) (60 * barWidth) fun _ => 1
  captures _ := .stored [1]

def gapVenue : Venue (fun _ => true) .trade := ⟨[minuteBar 2, minuteBar 5], by decide⟩

def epochVenue : Venue (fun _ => true) .trade := ⟨[minuteBar 0], by decide⟩

theorem hourAttempt_after (failing : Bool) {n : ℤ} (hn : n ≤ 60) (k : ℕ) :
    ((hourAttempt failing).events k).After (minutes 1 n).end_ := by
  have hend : n * barWidth ≤ 60 * barWidth := by
    unfold barWidth
    omega
  show PageEvent.After (n * barWidth) (if failing = true ∧ k = 1 then _ else _)
  split
  · trivial
  · exact hend

theorem ingestions_complete_gap :
    (∀ o ∈ (ingestions textEnv (minutes 1 7) gapVenue 1
      [hourAttempt true, hourAttempt false]).outcomes, ∀ cursor,
        o.checkpoint.resumeCursor = some cursor →
          ∃ w, klineWindowEnd (some cursor) (minutes 1 7).startMs (minutes 1 7).endMs = .ok w) ∧
    ∀ o ∈ (ingestions textEnv (minutes 1 7) gapVenue 1
        [hourAttempt true, hourAttempt false]).outcomes, o.state = .healthy →
      Complete gapVenue (minutes 1 7) 1 (ingestions textEnv (minutes 1 7) gapVenue 1
        [hourAttempt true, hourAttempt false]).log := by
  have hclosed : ∀ attempt ∈ [hourAttempt true, hourAttempt false], ∀ n,
      (attempt.events n).After (minutes 1 7).end_ := by
    intro attempt hattempt
    rcases List.mem_pair.mp hattempt with rfl | rfl
    · exact hourAttempt_after true (by decide)
    · exact hourAttempt_after false (by decide)
  have hepoch : ¬ EpochEndsPage gapVenue (minutes 1 7) := fun h => absurd h.1 (by decide)
  exact ingestions_complete textEnv 1 [hourAttempt true, hourAttempt false]
    ⟨1, 7, by decide, rfl, rfl⟩ hclosed hepoch

/-- Of two minutes about the epoch, the bar of the second ends the first page: the attempt
returns the cursor of the millisecond before the epoch, which the adapter rejects. -/
theorem epoch_cursor_rejected :
    (ingestions textEnv (minutes (-1) 1) epochVenue 1 [hourAttempt false]).outcomes.map
        (fun o => (o.state, o.checkpoint.resumeCursor, o.checkpoint.errorCode)) =
      [(.error, some "t:-1", some "invalid_bybit_resume_cursor")] ∧
    klineWindowEnd (some "t:-1") (minutes (-1) 1).startMs (minutes (-1) 1).endMs =
      .error (.providerError "invalid_bybit_resume_cursor") := by
  constructor <;> decide +kernel

end TradePlatform.BybitKlines
