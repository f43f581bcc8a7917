/-
# `TradePlatform.FundingHistory` — published funding of a window of days

`bybit_funding_history_v1.py`: one page for each UTC day of a window, each parsed strictly, and
the completeness of what the pages hold together.  The pages are those of the days of the window,
in order, so that their records are in order too; a window is complete where they are one interval
apart and both edges are tighter than it.
-/
import TradePlatform.PaperFundingCoverage
import TradePlatform.Lib.TextSplit

namespace TradePlatform

namespace FundingHistory

open ForwardFunding (Bytes Completeness EventRecord FundingEventV1 Irregularity)

def refuse {α : Type} (message : String) : Except Exn α := .error (.fundingHistoryError message)

/-! ## The code -/

abbrev Date := ℕ

structure HistoryIdentity where
  symbol : String
  firstUtcDay : Date
  lastUtcDay : Date
  events : List EventRecord
  completeness : Completeness
deriving DecidableEq

structure PageDigest where
  url : String
  sha256 : String
deriving DecidableEq

structure FundingHistoryV1 where
  identity : HistoryIdentity
  contentHash : String
  pages : List PageDigest
  provenanceHash : String
deriving DecidableEq

/-- The code outside the module: what the forward evidence uses too, `str.isalnum`, `str.isupper`
and `identity_hash_v1` of both blocks.  Upper-case text has no lower-case letter. -/
structure Env where
  evidence : ForwardFunding.Env
  isalnum : String → Bool
  isupper : String → Bool
  identityHash : HistoryIdentity → String
  provenanceHash : List PageDigest → String
  not_isLower : ∀ {text : String} {ch : Char}, isupper text = true → ch ∈ text.toList →
    ch.isLower = false

def dayMs : ℤ := 86400000

def dayStartMs (day : Date) : ℤ := ((day : ℤ) - 719163) * dayMs

section Code

variable (env : Env)

def fundingHistoryUrlV1 (symbol : String) (startMs endMs : ℤ) : Except Exn String :=
  if ¬ (env.isalnum symbol = true ∧ env.isupper symbol = true) then
    refuse "funding_symbol_malformed"
  else .ok (ForwardFunding.fundingHistoryUrlV1 symbol startMs endMs)

def asHistoryError : Exn → Exn
  | .forwardFundingError message => .fundingHistoryError message
  | e => e

def parseFundingPageV1 (body : Bytes) (symbol : String) (startMs endMs : ℤ) :
    Except Exn (List FundingEventV1) :=
  match env.evidence.loads body with
  | none => refuse "funding_body_not_json"
  | some payload =>
      (ForwardFunding.parseFundingPageV1 payload symbol startMs endMs).mapError asHistoryError

def startMark : List Char := "startTime=".toList

def startOfUrl (url : String) : Except Exn ℤ :=
  match TextSplit.second? startMark url.toList with
  | none => .error .indexError
  | some text =>
      match TextSplit.intOf? (TextSplit.before ['&'] text) with
      | none => .error (.valueError "invalid literal for int() with base 10")
      | some start => .ok start

def windowUrls (symbol : String) (first last : Date) : Except Exn (List String) :=
  (List.range ((last : ℤ) - first + 1).toNat).mapM fun i : ℕ =>
    fundingHistoryUrlV1 env symbol (dayStartMs first + i * dayMs)
      (dayStartMs first + (i + 1) * dayMs - 1)

def pageEvents (symbol : String) (page : String × Bytes) : Except Exn (List FundingEventV1) := do
  let start ← startOfUrl page.1
  parseFundingPageV1 env page.2 symbol start (start + dayMs - 1)

def spacings : List FundingEventV1 → List ℤ
  | a :: b :: events => (b.settledAtMs - a.settledAtMs) :: spacings (b :: events)
  | _ => []

def intervalOf (events : List FundingEventV1) : Option ℤ :=
  match sortedSet id (spacings events) with
  | [interval] => some interval
  | _ => none

def spacingIrregularities (events : List FundingEventV1) : List Irregularity :=
  match sortedSet id (spacings events) with
  | least :: _ :: _ => ForwardFunding.spacings least events
  | _ => []

def edgeIrregularities (startMs endMs interval : ℤ) (events : List FundingEventV1) :
    List Irregularity :=
  match events.head?, events.getLast? with
  | some first, some last =>
      (if interval ≤ first.settledAtMs - startMs then
        [.leadingEdgeNotProven first.settledAtMs] else []) ++
      (if interval < endMs - last.settledAtMs then
        [.trailingEdgeNotProven last.settledAtMs] else [])
  | _, _ => []

def irregularitiesOf (startMs endMs : ℤ) (events : List FundingEventV1) : List Irregularity :=
  spacingIrregularities events ++
    (if intervalOf events = none ∧ events.length = 1 then [.oneRecordProvesNoInterval] else []) ++
    (intervalOf events).elim [] fun interval => edgeIrregularities startMs endMs interval events

def completenessOf (irregular : List String) (interval : Option ℤ) : Completeness :=
  match irregular, interval with
  | [], some interval => .complete interval
  | irregular, _ => .irregularRefused irregular

def completeness (events : List FundingEventV1) (startMs endMs : ℤ) : Except Exn Completeness :=
  if events = [] then .ok (.irregularRefused ["NO_RECORD_IN_WINDOW"])
  else do
    let irregular ← (irregularitiesOf startMs endMs events).mapM (Irregularity.text env.evidence)
    .ok (completenessOf irregular (intervalOf events))

def build (symbol : String) (first last : Date) (pages : List (String × Bytes)) :
    Except Exn FundingHistoryV1 := do
  let urls ← windowUrls env symbol first last
  if pages.map Prod.fst ≠ urls then refuse "funding_pages_are_not_exactly_the_window_days"
  else do
    let days ← pages.mapM (pageEvents env symbol)
    let events := days.flatten
    let records ← events.mapM (ForwardFunding.eventRecord env.evidence)
    let judged ← completeness env events (dayStartMs first) (dayStartMs last + dayMs)
    let identity : HistoryIdentity := {
      symbol := symbol
      firstUtcDay := first
      lastUtcDay := last
      events := records
      completeness := judged }
    let digests := pages.map fun page => ⟨page.1, env.evidence.sha256 page.2⟩
    .ok ⟨identity, env.identityHash identity, digests, env.provenanceHash digests⟩

end Code

/-! ## Pages -/

variable {env : Env} {symbol : String} {startMs endMs : ℤ}

structure Ordered (startMs endMs : ℤ) (events : List FundingEventV1) : Prop where
  sorted : (events.map FundingEventV1.settledAtMs).Pairwise (· < ·)
  inside : ∀ event ∈ events, startMs ≤ event.settledAtMs ∧ event.settledAtMs ≤ endMs

structure Distinct (startMs endMs : ℤ) (events : List FundingEventV1) : Prop where
  nodup : (events.map FundingEventV1.settledAtMs).Nodup
  inside : ∀ event ∈ events, startMs ≤ event.settledAtMs ∧ event.settledAtMs ≤ endMs

theorem parseRow_ok {seen events : List FundingEventV1} {row : Json}
    (h : ForwardFunding.parseRow symbol startMs endMs seen row = .ok events) :
    ∃ event : FundingEventV1, events = seen ++ [event] ∧
      (startMs ≤ event.settledAtMs ∧ event.settledAtMs ≤ endMs) ∧
      event.settledAtMs ∉ seen.map FundingEventV1.settledAtMs ∧
      ForwardFunding.isRateText event.rateText = true := by
  unfold ForwardFunding.parseRow at h
  split at h
  · obtain ⟨-, h⟩ := Except.of_ite_error h
    obtain ⟨-, h⟩ := Except.of_ite_error h
    split at h
    · dsimp only at h
      obtain ⟨-, h⟩ := Except.of_ite_error h
      obtain ⟨hin, h⟩ := Except.of_ite_error h
      obtain ⟨hseen, h⟩ := Except.of_ite_error h
      split at h
      · split at h
        · rename_i hrate
          exact ⟨_, (Except.ok.inj h).symm, not_not.mp hin, hseen, hrate⟩
        · cases h
      · cases h
    · cases h
  · cases h

theorem Distinct.parseRow {seen events : List FundingEventV1} {row : Json}
    (hseen : Distinct startMs endMs seen)
    (h : ForwardFunding.parseRow symbol startMs endMs seen row = .ok events) :
    Distinct startMs endMs events := by
  obtain ⟨event, rfl, hin, hnew, -⟩ := parseRow_ok h
  constructor
  · rw [List.map_append, List.map_singleton]
    exact List.nodup_append.mpr ⟨hseen.nodup, List.nodup_singleton _, fun a ha b hb hab =>
      hnew (by rwa [← List.mem_singleton.mp hb, ← hab])⟩
  · intro other hother
    rcases List.mem_append.mp hother with hother | hother
    · exact hseen.inside other hother
    · rw [List.mem_singleton.mp hother]
      exact hin

theorem parseRow_rateText {seen events : List FundingEventV1} {row : Json}
    (hseen : ∀ event ∈ seen, ForwardFunding.isRateText event.rateText = true)
    (h : ForwardFunding.parseRow symbol startMs endMs seen row = .ok events) :
    ∀ event ∈ events, ForwardFunding.isRateText event.rateText = true := by
  obtain ⟨event, rfl, -, -, hrate⟩ := parseRow_ok h
  intro other hother
  rcases List.mem_append.mp hother with hother | hother
  · exact hseen other hother
  · rw [List.mem_singleton.mp hother]
    exact hrate

theorem rows_of_parse {body : Bytes} {events : List FundingEventV1}
    (h : parseFundingPageV1 env body symbol startMs endMs = .ok events) :
    ∃ (rows : List Json) (parsed : List FundingEventV1),
      rows.foldlM (ForwardFunding.parseRow symbol startMs endMs) [] = .ok parsed ∧
        events = sortBy FundingEventV1.settledAtMs parsed := by
  unfold parseFundingPageV1 at h
  split at h
  · cases h
  · rename_i payload _
    have hparse : ForwardFunding.parseFundingPageV1 payload symbol startMs endMs = .ok events := by
      cases hresult : ForwardFunding.parseFundingPageV1 payload symbol startMs endMs with
      | error e =>
          rw [hresult] at h
          cases h
      | ok parsed =>
          rw [hresult] at h
          exact h
    obtain ⟨rows, -, hparse⟩ := Except.bind_eq_ok.mp hparse
    obtain ⟨-, hparse⟩ := Except.of_ite_error hparse
    obtain ⟨parsed, hparsed, hparse⟩ := Except.bind_eq_ok.mp hparse
    exact ⟨rows, parsed, hparsed, (Except.ok.inj hparse).symm⟩

theorem ordered_of_parse {body : Bytes} {events : List FundingEventV1}
    (h : parseFundingPageV1 env body symbol startMs endMs = .ok events) :
    Ordered startMs endMs events := by
  obtain ⟨rows, parsed, hparsed, rfl⟩ := rows_of_parse h
  have hnone : Distinct startMs endMs [] := ⟨.nil, by simp⟩
  have hdistinct : Distinct startMs endMs parsed :=
    Replay.replay_inv (fun _ _ _ hinv hstep => Distinct.parseRow hinv hstep) hnone hparsed
  have hperm := sortBy_perm FundingEventV1.settledAtMs parsed
  constructor
  · have hle := sortBy_pairwise FundingEventV1.settledAtMs parsed
    have hne := (hperm.map FundingEventV1.settledAtMs).nodup_iff.mpr hdistinct.nodup
    refine ((List.pairwise_map.mpr hle).and hne).imp fun hab => lt_of_le_of_ne hab.1 hab.2
  · intro event hevent
    exact hdistinct.inside event (hperm.mem_iff.mp hevent)

theorem rateText_of_parse {body : Bytes} {events : List FundingEventV1}
    (h : parseFundingPageV1 env body symbol startMs endMs = .ok events) :
    ∀ event ∈ events, ForwardFunding.isRateText event.rateText = true := by
  obtain ⟨rows, parsed, hparsed, rfl⟩ := rows_of_parse h
  have hrates : ∀ event ∈ parsed, ForwardFunding.isRateText event.rateText = true :=
    Replay.replay_inv (fun _ _ _ hinv hstep => parseRow_rateText hinv hstep)
      (fun _ hnone => absurd hnone List.not_mem_nil) hparsed
  intro event hevent
  exact hrates event ((sortBy_perm FundingEventV1.settledAtMs parsed).mem_iff.mp hevent)

/-! ## The days of the pages -/

theorem notMem_intText {ch : Char} (hminus : ch ≠ '-') (hdigit : ch.isDigit = false) (n : ℤ) :
    ch ∉ TextSplit.intText n := by
  intro h
  rcases TextSplit.isDigit_of_mem_intText h with rfl | h
  · exact hminus rfl
  · rw [hdigit] at h
    cases h

def urlFront : List Char :=
  "https://api.bybit.com/v5/market/funding/history?category=linear&symbol=".toList

def urlBack (endMs : ℤ) : List Char :=
  "endTime=".toList ++ TextSplit.intText endMs ++ "&limit=200".toList

theorem toList_url (symbol : String) (startMs endMs : ℤ) :
    (ForwardFunding.fundingHistoryUrlV1 symbol startMs endMs).toList =
      urlFront ++ ((symbol.toList ++ ['&']) ++
        (startMark ++ (TextSplit.intText startMs ++ '&' :: urlBack endMs))) := by
  unfold ForwardFunding.fundingHistoryUrlV1 TextSplit.intText urlFront urlBack startMark
  simp only [String.toList_append, List.append_assoc, Nat.toString_eq_repr]
  rfl

theorem after?_urlFront (text : List Char) :
    TextSplit.after? startMark (urlFront ++ text) = TextSplit.after? startMark text := rfl

theorem notMem_endTime : 's' ∉ "endTime=".toList :=
  show 's' ∉ ['e', 'n', 'd', 'T', 'i', 'm', 'e', '='] by decide

theorem notMem_limit : 's' ∉ "&limit=200".toList :=
  show 's' ∉ ['&', 'l', 'i', 'm', 'i', 't', '=', '2', '0', '0'] by decide

theorem notMem_urlBack (endMs : ℤ) : 's' ∉ urlBack endMs := by
  intro hmem
  rcases List.mem_append.mp hmem with hmem | hmem
  · rcases List.mem_append.mp hmem with hmem | hmem
    · exact notMem_endTime hmem
    · exact notMem_intText (by decide) (by decide) endMs hmem
  · exact notMem_limit hmem

theorem startMark_eq : startMark = 's' :: "tartTime=".toList := rfl

theorem startOfUrl_url {url : String} (h : fundingHistoryUrlV1 env symbol startMs endMs = .ok url) :
    startOfUrl url = .ok startMs := by
  unfold fundingHistoryUrlV1 at h
  obtain ⟨hsymbol, h⟩ := Except.of_ite_error h
  obtain rfl := Except.ok.inj h
  have hs : 's' ∉ symbol.toList ++ ['&'] := by
    intro hmem
    rcases List.mem_append.mp hmem with hmem | hmem
    · cases env.not_isLower (not_not.mp hsymbol).2 hmem
    · cases List.mem_singleton.mp hmem
  have hint := notMem_intText (show 's' ≠ '-' by decide) (show 's'.isDigit = false by decide)
  have hback : 's' ∉ TextSplit.intText startMs ++ '&' :: urlBack endMs := by
    intro hmem
    rcases List.mem_append.mp hmem with hmem | hmem
    · exact hint startMs hmem
    · rcases List.mem_cons.mp hmem with hmem | hmem
      · cases hmem
      · exact notMem_urlBack endMs hmem
  have hampersand := notMem_intText (show '&' ≠ '-' by decide)
    (show '&'.isDigit = false by decide) startMs
  have hsecond : TextSplit.second? startMark
      (ForwardFunding.fundingHistoryUrlV1 symbol startMs endMs).toList =
        some (TextSplit.intText startMs ++ '&' :: urlBack endMs) := by
    unfold TextSplit.second?
    rw [toList_url, after?_urlFront, startMark_eq, TextSplit.after?_append hs,
      TextSplit.after?_mark _ (List.cons_ne_nil _ _), Option.map_some,
      TextSplit.before_eq_self hback]
  unfold startOfUrl
  rw [hsecond]
  dsimp only
  rw [TextSplit.before_singleton hampersand, TextSplit.intOf?_intText]

theorem days_of_pages {first last : Date} {pages : List (String × Bytes)}
    {days : List (List FundingEventV1)}
    (hurls : windowUrls env symbol first last = .ok (pages.map Prod.fst))
    (hdays : pages.mapM (pageEvents env symbol) = .ok days) :
    days.length = ((last : ℤ) - first + 1).toNat ∧
      ∀ i (h : i < days.length), Ordered (dayStartMs first + i * dayMs)
        (dayStartMs first + i * dayMs + dayMs - 1) (days.get ⟨i, h⟩) := by
  have hpages := Except.mapM_iff_forall₂.mp hdays
  have hlist := Except.mapM_iff_forall₂.mp hurls
  have hlength : days.length = ((last : ℤ) - first + 1).toNat := by
    rw [← hpages.length_eq, ← List.length_map (f := Prod.fst), ← hlist.length_eq, List.length_range]
  refine ⟨hlength, fun i h => ?_⟩
  have hi : i < pages.length := by rwa [hpages.length_eq]
  have hurl := hlist.get (i := i) (by rw [List.length_range]; omega)
    (by rw [List.length_map]; exact hi)
  have hpage := hpages.get hi h
  simp only [List.get_eq_getElem, List.getElem_range, List.getElem_map] at hurl hpage
  obtain ⟨start, hstart, hparse⟩ := Except.bind_eq_ok.mp hpage
  rw [startOfUrl_url hurl] at hstart
  obtain rfl := Except.ok.inj hstart
  exact ordered_of_parse hparse

theorem ordered_flatten {days : List (List FundingEventV1)} {start : ℤ}
    (h : ∀ i (hi : i < days.length), Ordered (start + i * dayMs) (start + i * dayMs + dayMs - 1)
      (days.get ⟨i, hi⟩)) :
    Ordered start (start + days.length * dayMs - 1) days.flatten := by
  have hday : (0 : ℤ) < dayMs := by decide
  constructor
  · rw [List.map_flatten, List.pairwise_flatten]
    constructor
    · intro l hl
      obtain ⟨events, hevents, rfl⟩ := List.mem_map.mp hl
      obtain ⟨i, rfl⟩ := List.get_of_mem hevents
      exact (h i i.isLt).sorted
    · rw [List.pairwise_map, List.pairwise_iff_getElem]
      intro i j hi hj hij a ha b hb
      obtain ⟨x, hx, rfl⟩ := List.mem_map.mp ha
      obtain ⟨y, hy, rfl⟩ := List.mem_map.mp hb
      have hbefore := ((h i hi).inside x hx).2
      have hafter := ((h j hj).inside y hy).1
      have hle : ((i : ℤ) + 1) * dayMs ≤ j * dayMs :=
        mul_le_mul_of_nonneg_right (by exact_mod_cast hij) hday.le
      linarith
  · intro event hevent
    obtain ⟨events, hevents, hevent⟩ := List.mem_flatten.mp hevent
    obtain ⟨i, rfl⟩ := List.get_of_mem hevents
    obtain ⟨hge, hle⟩ := (h i i.isLt).inside event hevent
    have hpos : (0 : ℤ) ≤ (i : ℕ) * dayMs := mul_nonneg (Int.natCast_nonneg _) hday.le
    have hlast : (((i : ℕ) : ℤ) + 1) * dayMs ≤ days.length * dayMs :=
      mul_le_mul_of_nonneg_right (by exact_mod_cast i.isLt) hday.le
    constructor <;> linarith

/-! ## What a complete window proves -/

open Grid

variable {events : List FundingEventV1} {interval : ℤ}

theorem spaced_of_forall (h : ∀ d ∈ spacings events, d = interval) :
    Spaced interval (events.map FundingEventV1.settledAtMs) := by
  induction events with
  | nil => exact List.IsChain.nil
  | cons a events ih =>
      cases events with
      | nil => exact List.IsChain.singleton _
      | cons b events =>
          exact List.isChain_cons_cons.mpr ⟨h _ List.mem_cons_self,
            ih fun d hd => h d (List.mem_cons_of_mem _ hd)⟩

theorem spacings_pos (h : (events.map FundingEventV1.settledAtMs).Pairwise (· < ·)) :
    ∀ d ∈ spacings events, 0 < d := by
  induction events with
  | nil =>
      intro d hd
      cases hd
  | cons a events ih =>
      cases events with
      | nil =>
          intro d hd
          cases hd
      | cons b events =>
          obtain ⟨hfirst, hrest⟩ := List.pairwise_cons.mp h
          intro d hd
          rcases List.mem_cons.mp hd with rfl | hd
          · exact sub_pos.mpr (hfirst _ List.mem_cons_self)
          · exact ih hrest d hd

theorem mem_spacings_of_intervalOf (h : intervalOf events = some interval) :
    interval ∈ spacings events ∧ ∀ d ∈ spacings events, d = interval := by
  have hset : sortedSet id (spacings events) = [interval] := by
    unfold intervalOf at h
    split at h
    · rename_i hset
      rw [hset, Option.some.inj h]
    · cases h
  have hmem : ∀ d, d ∈ spacings events ↔ d = interval := by
    intro d
    rw [← List.mem_singleton, ← hset, mem_sortedSet]
  exact ⟨(hmem interval).mpr rfl, fun d hd => (hmem d).mp hd⟩

theorem completenessOf_complete {irregular : List String} {judged : Option ℤ}
    (h : completenessOf irregular judged = .complete interval) :
    irregular = [] ∧ judged = some interval := by
  unfold completenessOf at h
  split at h
  · exact ⟨rfl, by rw [Completeness.complete.inj h]⟩
  · cases h

theorem completeness_complete {finish : ℤ} (hordered : Ordered startMs (finish - 1) events)
    (h : completeness env events startMs finish = .ok (.complete interval)) :
    let w : Window := ⟨startMs, finish, events.map FundingEventV1.settledAtMs⟩
    0 < interval ∧ w.Tight interval ∧ Spaced interval w.instants := by
  unfold completeness at h
  split at h
  · cases h
  · rename_i hne
    obtain ⟨irregular, htexts, h⟩ := Except.bind_eq_ok.mp h
    obtain ⟨rfl, hinterval⟩ := completenessOf_complete (Except.ok.inj h)
    have hnone := List.forall₂_nil_right_iff.mp (Except.mapM_iff_forall₂.mp htexts)
    unfold irregularitiesOf at hnone
    rw [hinterval] at hnone
    obtain ⟨-, hedges⟩ := List.append_eq_nil_iff.mp hnone
    obtain ⟨hmem, hall⟩ := mem_spacings_of_intervalOf hinterval
    obtain ⟨first, rest, rfl⟩ := List.exists_cons_of_ne_nil hne
    simp only [Option.elim_some, edgeIrregularities, List.head?_cons,
      List.getLast?_eq_some_getLast (List.cons_ne_nil first rest), List.append_eq_nil_iff] at hedges
    obtain ⟨hleading, htrailing⟩ := hedges
    refine ⟨spacings_pos hordered.sorted _ hmem, .of_edges ?_ rfl (by rw [List.getLast?_map,
      List.getLast?_eq_some_getLast (List.cons_ne_nil first rest), Option.map_some]) ?_ ?_,
      spaced_of_forall hall⟩
    · intro t ht
      obtain ⟨event, hevent, rfl⟩ := List.mem_map.mp ht
      obtain ⟨hge, hle⟩ := hordered.inside event hevent
      exact ⟨hge, Int.lt_of_le_sub_one hle⟩
    · by_contra hge
      rw [if_pos (not_lt.mp hge)] at hleading
      cases hleading
    · by_contra hlt
      rw [if_pos (not_le.mp hlt)] at htrailing
      cases htrailing

theorem build_complete {first last : Date} {pages : List (String × Bytes)}
    {history : FundingHistoryV1} (h : build env symbol first last pages = .ok history)
    (hcomplete : history.identity.completeness = .complete interval) :
    let w : Window := ⟨dayStartMs first, dayStartMs last + dayMs,
      history.identity.events.map EventRecord.settledAtMs⟩
    0 < interval ∧ w.Tight interval ∧ Spaced interval w.instants ∧
      ∃ days, pages.mapM (pageEvents env symbol) = .ok days ∧
        history.identity.events.map EventRecord.event = days.flatten := by
  obtain ⟨urls, hurls, h⟩ := Except.bind_eq_ok.mp h
  obtain ⟨hpages, h⟩ := Except.of_ite_error h
  obtain ⟨days, hdays, h⟩ := Except.bind_eq_ok.mp h
  obtain ⟨records, hrecords, h⟩ := Except.bind_eq_ok.mp h
  obtain ⟨judged, hjudged, h⟩ := Except.bind_eq_ok.mp h
  obtain rfl := Except.ok.inj h
  obtain rfl : judged = .complete interval := hcomplete
  rw [← not_not.mp hpages] at hurls
  obtain ⟨hlength, hordered⟩ := days_of_pages hurls hdays
  have hflat := ordered_flatten hordered
  -- a window of no day is not complete
  have hsome : (0 : ℤ) ≤ (last : ℤ) - first + 1 := by
    by_contra hneg
    have hnone : days = [] := by
      rw [← List.length_eq_zero_iff, hlength]
      omega
    rw [hnone] at hjudged
    cases hjudged
  have hfinish : dayStartMs first + days.length * dayMs - 1 = dayStartMs last + dayMs - 1 := by
    rw [hlength, Int.toNat_of_nonneg hsome]
    unfold dayStartMs
    ring
  rw [hfinish] at hflat
  have hjudge := completeness_complete hflat hjudged
  dsimp only at hjudge ⊢
  rw [FundingEvidence.settledAtMs_of_records hrecords]
  exact ⟨hjudge.1, hjudge.2.1, hjudge.2.2, days, hdays, FundingEvidence.events_of_records hrecords⟩

end FundingHistory

end TradePlatform
