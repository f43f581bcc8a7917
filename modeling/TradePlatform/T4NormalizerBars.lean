/-
# `TradePlatform.T4NormalizerBars` — what the bars of a segment are made of

The trades of a segment come in strict venue order, so a minute is a stretch of them.
The invariant `Accounts` says of every state a run can reach which trades the open minute
holds, which minutes are behind it, and of which trades each bar was made.
-/
import TradePlatform.T4Normalizer
import TradePlatform.Lib.SlidingWindow

namespace TradePlatform

namespace T4

/-! ## Exact sums -/

theorem sumOf_eq {c : Decimal.Context} {values : List Decimal}
    (h : ∀ part, part <+: values → c.Represents part.sum) : sumOf c values = values.sum := by
  induction values using List.reverseRecOn with
  | nil => rfl
  | append_singleton values value ih =>
      have hsum := ih fun part hpart => h part (hpart.trans (List.prefix_append ..))
      have hlast := h _ (List.prefix_refl _)
      rw [List.sum_append, List.sum_singleton] at hlast ⊢
      unfold sumOf at hsum ⊢
      rw [List.foldl_append, hsum]
      exact Decimal.Context.add_eq hlast

theorem exists_of_prefix_map {α β : Type} {f : α → β} {l : List α} {part : List β}
    (h : part <+: l.map f) : ∃ l', l' <+: l ∧ part = l'.map f :=
  ⟨l.take part.length, List.take_prefix .., by
    rw [List.map_take]
    exact List.prefix_iff_eq_take.mp h⟩

theorem exactSumV1_eq {values : Decimal.Context → List Decimal} {name : String} {total : Decimal}
    (h : exactSumV1 values name = .ok total) :
    total = sumOf sumArithmetic.toContext (values sumArithmetic.toContext) := by
  dsimp only [exactSumV1] at h
  split at h
  · cases h
  · split at h
    · cases h
    · rename_i hexact
      cases h
      exact not_not.mp hexact

/-! ## Venue order -/

namespace T4TradeV1

variable {a b : T4TradeV1}

def place (trade : T4TradeV1) : ℤ ×ₗ ℕ := toLex (trade.arrival.recordSequence, trade.entryIndex)

theorem orderingKey_lt (hkey : a.key ≤ b.key) (hplace : a.place < b.place) :
    a.orderingKey < b.orderingKey := by
  simp only [key, place, orderingKey, Prod.Lex.toLex_le_toLex, Prod.Lex.toLex_lt_toLex] at *
  rcases hkey with hts | ⟨hts, hseq⟩
  · exact .inl hts
  · rcases hseq.lt_or_eq with hseq | hseq
    · exact .inr ⟨hts, .inl hseq⟩
    · exact .inr ⟨hts, .inr ⟨hseq, hplace⟩⟩

theorem key_le (h : a.orderingKey ≤ b.orderingKey) : a.key ≤ b.key := by
  simp only [key, orderingKey, Prod.Lex.toLex_le_toLex] at *
  rcases h with hts | ⟨hts, hseq | ⟨hseq, _⟩⟩
  · exact .inl hts
  · exact .inr ⟨hts, hseq.le⟩
  · exact .inr ⟨hts, hseq.le⟩

theorem minute_le_of_key_le (h : a.key ≤ b.key) : a.minute ≤ b.minute := by
  have hts : a.tradeTsMillis ≤ b.tradeTsMillis := by
    rcases Prod.Lex.toLex_le_toLex.mp h with hts | ⟨hts, _⟩
    · exact hts.le
    · exact hts.le
  simp only [minute]
  omega

theorem minute_le (h : a.orderingKey ≤ b.orderingKey) : a.minute ≤ b.minute :=
  minute_le_of_key_le (key_le h)

end T4TradeV1

def ofMinute (trades : List T4TradeV1) (minute : ℤ) : List T4TradeV1 :=
  trades.filter fun trade => trade.minute = minute

def minutesWithTrade (trades : List T4TradeV1) : ℕ :=
  (trades.map T4TradeV1.minute).toFinset.card

def InVenueOrder (trades : List T4TradeV1) : Prop :=
  trades.Pairwise fun a b => a.orderingKey < b.orderingKey

section Minutes

variable {trades : List T4TradeV1} {trade : T4TradeV1} {minute : ℤ}

theorem ofMinute_append_of_ne (h : trade.minute ≠ minute) :
    ofMinute (trades ++ [trade]) minute = ofMinute trades minute := by
  simp [ofMinute, h]

theorem ofMinute_append_self :
    ofMinute (trades ++ [trade]) trade.minute = ofMinute trades trade.minute ++ [trade] := by
  simp [ofMinute]

theorem ofMinute_eq_nil (h : ∀ a ∈ trades, a.minute ≠ minute) : ofMinute trades minute = [] :=
  List.filter_eq_nil_iff.mpr fun a ha => by simpa using h a ha

theorem minutes_append : ((trades ++ [trade]).map T4TradeV1.minute).toFinset =
    insert trade.minute (trades.map T4TradeV1.minute).toFinset := by
  simp

theorem minutesWithTrade_append_of_mem (h : ∃ a ∈ trades, a.minute = trade.minute) :
    minutesWithTrade (trades ++ [trade]) = minutesWithTrade trades := by
  obtain ⟨a, ha, hminute⟩ := h
  have hmem : trade.minute ∈ (trades.map T4TradeV1.minute).toFinset :=
    List.mem_toFinset.mpr (hminute ▸ List.mem_map_of_mem ha)
  rw [minutesWithTrade, minutes_append, Finset.insert_eq_of_mem hmem, minutesWithTrade]

theorem minutesWithTrade_append_of_new (h : ∀ a ∈ trades, a.minute ≠ trade.minute) :
    minutesWithTrade (trades ++ [trade]) = minutesWithTrade trades + 1 := by
  have hnew : trade.minute ∉ (trades.map T4TradeV1.minute).toFinset := by
    intro hmem
    obtain ⟨a, ha, hminute⟩ := List.mem_map.mp (List.mem_toFinset.mp hmem)
    exact h a ha hminute
  rw [minutesWithTrade, minutes_append, Finset.card_insert_of_notMem hnew, minutesWithTrade]

theorem InVenueOrder.append (horder : InVenueOrder trades)
    (h : ∀ a ∈ trades, a.orderingKey < trade.orderingKey) : InVenueOrder (trades ++ [trade]) := by
  refine List.pairwise_append.mpr ⟨horder, List.pairwise_singleton .., ?_⟩
  intro a ha b hb
  rw [List.mem_singleton.mp hb]
  exact h a ha

theorem InVenueOrder.le_getLast (horder : InVenueOrder trades) {last a : T4TradeV1}
    (hlast : trades.getLast? = some last) (ha : a ∈ trades) : a.orderingKey ≤ last.orderingKey := by
  obtain ⟨earlier, rfl⟩ := List.getLast?_eq_some_iff.mp hlast
  rcases List.mem_append.mp ha with ha | ha
  · exact ((List.pairwise_append.mp horder).2.2 a ha last List.mem_cons_self).le
  · rw [List.mem_singleton.mp ha]

theorem InVenueOrder.head_le (horder : InVenueOrder trades) {first a : T4TradeV1}
    (hfirst : trades.head? = some first) (ha : a ∈ trades) :
    first.orderingKey ≤ a.orderingKey := by
  obtain ⟨later, rfl⟩ := List.head?_eq_some_iff.mp hfirst
  rcases List.mem_cons.mp ha with rfl | ha
  · exact le_rfl
  · exact (List.rel_of_pairwise_cons horder ha).le

theorem InVenueOrder.sortBy_eq (horder : InVenueOrder trades) :
    sortBy T4TradeV1.orderingKey trades = trades :=
  (horder.imp fun h => h.le).insertionSort_eq

theorem InVenueOrder.ofMinute (horder : InVenueOrder trades) (minute : ℤ) :
    InVenueOrder (ofMinute trades minute) :=
  List.Pairwise.filter _ horder

end Minutes

/-! ## What a bar says -/

/-- No product and no sum of the trades has more than the 60 digits of `exact_sum_v1`. -/
def WithinDigits (trades : List T4TradeV1) : Prop :=
  (∀ trade ∈ trades, sumArithmetic.Represents (trade.price * trade.quantity)) ∧
    ∀ part ∈ trades.inits, sumArithmetic.Represents (part.map T4TradeV1.quantity).sum ∧
      sumArithmetic.Represents (part.map fun trade => trade.price * trade.quantity).sum

instance (trades : List T4TradeV1) : Decidable (WithinDigits trades) :=
  inferInstanceAs (Decidable (_ ∧ _))

structure T4MinuteBarV1.MadeOf (codec : Codec) (trades : List T4TradeV1) (bar : T4MinuteBarV1) :
    Prop where
  tradeCount : bar.tradeCount = (ofMinute trades bar.barOpenMicros).length
  tradeManifestHash : bar.tradeManifestHash = codec.manifestHash bar.barOpenMicros
    ((ofMinute trades bar.barOpenMicros).map T4TradeV1.observationReference)
  first : ∃ first ∈ ofMinute trades bar.barOpenMicros,
    (∀ trade ∈ ofMinute trades bar.barOpenMicros, first.orderingKey ≤ trade.orderingKey) ∧
      bar.openPrice = first.price ∧ bar.firstTradeReference = first.observationReference
  last : ∃ last ∈ ofMinute trades bar.barOpenMicros,
    (∀ trade ∈ ofMinute trades bar.barOpenMicros, trade.orderingKey ≤ last.orderingKey) ∧
      bar.closePrice = last.price ∧ bar.lastTradeReference = last.observationReference
  opened : ∃ trade ∈ trades, trade.minute < bar.barOpenMicros
  closed : ∃ closing ∈ trades, bar.barOpenMicros < closing.minute ∧
    bar.closingRecordHash = closing.arrival.recordContentHash ∧
      closing.arrival.marketKnowledgeMicros ≤ bar.completeMarketKnowledgeMicros
  close_le : bar.barCloseMicros ≤ bar.completeMarketKnowledgeMicros
  knowledge_le : ∀ trade ∈ ofMinute trades bar.barOpenMicros,
    trade.arrival.marketKnowledgeMicros ≤ bar.completeMarketKnowledgeMicros

def T4MinuteBarV1.SumsOf (trades : List T4TradeV1) (bar : T4MinuteBarV1) : Prop :=
  bar.baseVolume = ((ofMinute trades bar.barOpenMicros).map T4TradeV1.quantity).sum ∧
    bar.quoteTurnover =
      ((ofMinute trades bar.barOpenMicros).map fun trade => trade.price * trade.quantity).sum

/-- `bar` is what its minute gave when a trade past it was met, after one before it. -/
def T4MinuteBarV1.EmittedFrom (codec : Codec) (trades : List T4TradeV1) (bar : T4MinuteBarV1) :
    Prop :=
  (∃ opening ∈ trades, opening.minute < bar.barOpenMicros) ∧
    ∃ closing ∈ trades, bar.barOpenMicros < closing.minute ∧
      T4SegmentNormalizerV1.bar codec bar.barOpenMicros (ofMinute trades bar.barOpenMicros)
        closing.arrival = .ok bar

namespace T4MinuteBarV1

variable {codec : Codec} {trades : List T4TradeV1} {bar : T4MinuteBarV1}

theorem EmittedFrom.append {trade : T4TradeV1} (h : bar.EmittedFrom codec trades)
    (hlater : ∀ a ∈ trades, a.minute ≤ trade.minute) :
    bar.EmittedFrom codec (trades ++ [trade]) := by
  obtain ⟨⟨opening, hopening, hopen⟩, closing, hclosing, hclose, hbar⟩ := h
  have hne : trade.minute ≠ bar.barOpenMicros := (hclose.trans_le (hlater closing hclosing)).ne'
  refine ⟨⟨opening, List.mem_append_left _ hopening, hopen⟩,
    closing, List.mem_append_left _ hclosing, hclose, ?_⟩
  rw [ofMinute_append_of_ne hne]
  exact hbar

theorem EmittedFrom.madeOf (h : bar.EmittedFrom codec trades) (horder : InVenueOrder trades) :
    bar.MadeOf codec trades ∧
      exactSumV1 (fun _ => (ofMinute trades bar.barOpenMicros).map T4TradeV1.quantity)
        "bar_volume" = .ok bar.baseVolume ∧
      exactSumV1 (fun c => (ofMinute trades bar.barOpenMicros).map (T4TradeV1.notional · c))
        "bar_turnover" = .ok bar.quoteTurnover := by
  obtain ⟨hopened, closing, hclosing, hclose, hbar⟩ := h
  have hown := horder.ofMinute bar.barOpenMicros
  unfold T4SegmentNormalizerV1.bar at hbar
  rw [hown.sortBy_eq] at hbar
  dsimp only at hbar
  split at hbar
  case h_2 => cases hbar
  case h_1 first last hfirst hlast =>
    obtain ⟨volume, hvolume, hbar⟩ := Except.bind_eq_ok.mp hbar
    obtain ⟨turnover, hturnover, hbar⟩ := Except.bind_eq_ok.mp hbar
    have hbar := Except.pure_eq_ok.mp hbar
    have hcomplete := congrArg completeMarketKnowledgeMicros hbar
    have hmax := @SlidingWindow.le_foldl_max ℤ _
      ((ofMinute trades bar.barOpenMicros).map fun trade => trade.arrival.marketKnowledgeMicros)
      (max (bar.barOpenMicros + 60000000) closing.arrival.marketKnowledgeMicros)
    dsimp only at hcomplete
    rw [hcomplete] at hmax
    refine ⟨?_, congrArg baseVolume hbar ▸ hvolume, congrArg quoteTurnover hbar ▸ hturnover⟩
    exact {
      tradeCount := (congrArg tradeCount hbar).symm
      tradeManifestHash := (congrArg tradeManifestHash hbar).symm
      first := ⟨first, List.mem_of_mem_head? hfirst, fun trade htrade => hown.head_le hfirst htrade,
        (congrArg openPrice hbar).symm, (congrArg firstTradeReference hbar).symm⟩
      last := ⟨last, List.mem_of_mem_getLast? hlast,
        fun trade htrade => hown.le_getLast hlast htrade,
        (congrArg closePrice hbar).symm, (congrArg lastTradeReference hbar).symm⟩
      opened := hopened
      closed := ⟨closing, hclosing, hclose, (congrArg closingRecordHash hbar).symm,
        (le_max_right _ _).trans hmax.1⟩
      close_le := (le_max_left _ _).trans hmax.1
      knowledge_le := fun trade htrade => hmax.2 _ (List.mem_map_of_mem htrade) }

theorem EmittedFrom.sumsOf (h : bar.EmittedFrom codec trades) (horder : InVenueOrder trades)
    (hdigits : WithinDigits (ofMinute trades bar.barOpenMicros)) : bar.SumsOf trades := by
  obtain ⟨_, hvolume, hturnover⟩ := h.madeOf horder
  have hnotional : (ofMinute trades bar.barOpenMicros).map
        (T4TradeV1.notional · sumArithmetic.toContext) =
      (ofMinute trades bar.barOpenMicros).map fun trade => trade.price * trade.quantity :=
    List.map_congr_left fun trade htrade => hdigits.1 trade htrade
  constructor
  · rw [exactSumV1_eq hvolume]
    refine sumOf_eq fun part hpart => ?_
    obtain ⟨trades', htrades', rfl⟩ := exists_of_prefix_map hpart
    exact (hdigits.2 trades' ((List.mem_inits _ _).mpr htrades')).1
  · rw [exactSumV1_eq hturnover, hnotional]
    refine sumOf_eq fun part hpart => ?_
    obtain ⟨trades', htrades', rfl⟩ := exists_of_prefix_map hpart
    exact (hdigits.2 trades' ((List.mem_inits _ _).mpr htrades')).2

end T4MinuteBarV1

/-! ## What a segment keeps -/

namespace T4SegmentNormalizerV1

variable {codec : Codec} {s t u : T4SegmentNormalizerV1} {trade : T4TradeV1}

structure Accounts (codec : Codec) (s : T4SegmentNormalizerV1) : Prop where
  ordered : InVenueOrder s.output.trades
  lastTradeKey : s.lastTradeKey = s.output.trades.getLast?.map T4TradeV1.key
  minute : s.minute = s.output.trades.getLast?.map T4TradeV1.minute
  minuteTrades : s.minuteTrades = s.minute.elim [] (ofMinute s.output.trades)
  minuteOpenProven : s.minuteOpenProven = true →
    ∃ trade ∈ s.output.trades, ∀ m ∈ s.minute, trade.minute < m
  minutes : minutesWithTrade s.output.trades =
    s.output.bars.length + s.counts.minutesWithoutOpenProof + s.minute.toList.length
  bars : s.counts.bars = s.output.bars.length
  emitted : ∀ bar ∈ s.output.bars, bar.EmittedFrom codec s.output.trades

def Next (s : T4SegmentNormalizerV1) (trade : T4TradeV1) : Prop :=
  ∀ a ∈ s.output.trades, a.orderingKey < trade.orderingKey

theorem closeMinute_cases {closing : T4ArrivalV1} (h : s.closeMinute codec closing = .ok t) {m : ℤ}
    (hminute : s.minute = some m) :
    (t = { s with
        minute := none
        minuteTrades := []
        counts := { s.counts with
          minutesWithoutOpenProof := s.counts.minutesWithoutOpenProof + 1 } }) ∨
      ∃ (bar : T4MinuteBarV1) (counts : T4NormalizationCountsV1), s.minuteOpenProven = true ∧
        T4SegmentNormalizerV1.bar codec m s.minuteTrades closing = .ok bar ∧
        counts.bars = s.counts.bars + 1 ∧
        counts.minutesWithoutOpenProof = s.counts.minutesWithoutOpenProof ∧
        t = { s with
          minute := none
          minuteTrades := []
          output := { s.output with bars := s.output.bars ++ [bar] }
          counts } := by
  unfold closeMinute at h
  rw [hminute] at h
  dsimp only at h
  split at h
  · exact .inl (Except.ok.inj h).symm
  · rename_i hproven
    obtain ⟨bar, hbar, h⟩ := Except.bind_eq_ok.mp h
    refine .inr ⟨bar, _, by simpa using hproven, hbar, ?bars, ?unproven,
      (Except.pure_eq_ok.mp h).symm⟩
    case bars => rfl
    case unproven => rfl

theorem acceptTrade_cases (h : s.acceptTrade codec trade = .ok t) :
    (s.minute = some trade.minute ∧ t = s.addTrade trade) ∨
      (s.minute = none ∧ t = (s.openMinute trade).addTrade trade) ∨
      ∃ m s', s.minute = some m ∧ m ≠ trade.minute ∧
        s.closeMinute codec trade.arrival = .ok s' ∧ t = (s'.openMinute trade).addTrade trade := by
  unfold acceptTrade at h
  dsimp only at h
  split at h
  · rename_i hpast
    obtain ⟨m, hminute, hne⟩ := (Option.any_eq_true ..).mp hpast
    obtain ⟨s', hclose, h⟩ := Except.bind_eq_ok.mp h
    have hnone : s'.minute = none := by
      rcases closeMinute_cases hclose hminute with rfl | ⟨_, _, _, _, _, _, rfl⟩
      · rfl
      · rfl
    rw [if_pos hnone] at h
    exact .inr (.inr ⟨m, s', hminute, of_decide_eq_true hne, hclose, (Except.pure_eq_ok.mp h).symm⟩)
  · rename_i hpast
    have h := Except.pure_eq_ok.mp h
    cases hminute : s.minute with
    | none =>
        rw [if_pos hminute] at h
        exact .inr (.inl ⟨rfl, h.symm⟩)
    | some m =>
        rw [if_neg (hminute ▸ nofun)] at h
        rw [hminute] at hpast
        exact .inl ⟨by simpa using hpast, h.symm⟩

theorem bar_barOpenMicros {minute : ℤ} {trades : List T4TradeV1} {closing : T4ArrivalV1}
    {b : T4MinuteBarV1} (h : T4SegmentNormalizerV1.bar codec minute trades closing = .ok b) :
    b.barOpenMicros = minute := by
  unfold T4SegmentNormalizerV1.bar at h
  dsimp only at h
  split at h
  · obtain ⟨_, _, h⟩ := Except.bind_eq_ok.mp h
    obtain ⟨_, _, h⟩ := Except.bind_eq_ok.mp h
    exact (congrArg T4MinuteBarV1.barOpenMicros (Except.pure_eq_ok.mp h)).symm
  · cases h

theorem Accounts.addTrade (hs : Accounts codec s) (hnext : s.Next trade)
    (hminute : s.minute = some trade.minute) : Accounts codec (s.addTrade trade) := by
  have hlast : ∃ a ∈ s.output.trades, a.minute = trade.minute := by
    have h := hs.minute
    rw [hminute] at h
    obtain ⟨a, ha, h⟩ := Option.map_eq_some_iff.mp h.symm
    exact ⟨a, List.mem_of_mem_getLast? ha, h⟩
  exact {
    ordered := hs.ordered.append hnext
    lastTradeKey := by simp [T4SegmentNormalizerV1.addTrade]
    minute := by simp [T4SegmentNormalizerV1.addTrade, hminute]
    minuteTrades := by
      show s.minuteTrades ++ [trade] = s.minute.elim [] (ofMinute (s.output.trades ++ [trade]))
      rw [hs.minuteTrades, hminute]
      exact ofMinute_append_self.symm
    minuteOpenProven := fun h => by
      obtain ⟨a, ha, hm⟩ := hs.minuteOpenProven h
      exact ⟨a, List.mem_append_left _ ha, hm⟩
    minutes := (minutesWithTrade_append_of_mem hlast).trans hs.minutes
    bars := hs.bars
    emitted := fun bar hbar =>
      (hs.emitted bar hbar).append fun a ha => T4TradeV1.minute_le (hnext a ha).le }

/-- A trade that opens its minute: what the bars and the counts must say of the minutes
behind it. -/
theorem Accounts.openMinute (hs : Accounts codec s) (hnext : s.Next trade)
    (hnew : ∀ a ∈ s.output.trades, a.minute < trade.minute) {bars : List T4MinuteBarV1}
    {counts : T4NormalizationCountsV1} (hcount : counts.bars = bars.length)
    (hminutes : minutesWithTrade s.output.trades = bars.length + counts.minutesWithoutOpenProof)
    (hbars : ∀ bar ∈ bars, bar.EmittedFrom codec (s.output.trades ++ [trade])) :
    Accounts codec (({ s with
      minute := none
      minuteTrades := []
      output := { s.output with bars }
      counts } : T4SegmentNormalizerV1).openMinute trade |>.addTrade trade) where
  ordered := hs.ordered.append hnext
  lastTradeKey := by simp [T4SegmentNormalizerV1.addTrade]
  minute := by simp [T4SegmentNormalizerV1.addTrade, T4SegmentNormalizerV1.openMinute]
  minuteTrades := by
    show [] ++ [trade] = ofMinute (s.output.trades ++ [trade]) trade.minute
    rw [ofMinute_append_self, ofMinute_eq_nil fun a ha => (hnew a ha).ne]
  minuteOpenProven := by
    intro hproven
    have hsome : s.lastTradeKey.isSome = true := hproven
    rw [hs.lastTradeKey, Option.isSome_map] at hsome
    obtain ⟨last, hlast⟩ := Option.isSome_iff_exists.mp hsome
    refine ⟨last, List.mem_append_left _ (List.mem_of_mem_getLast? hlast), fun m hm => ?_⟩
    cases hm
    exact hnew last (List.mem_of_mem_getLast? hlast)
  minutes := by
    refine (minutesWithTrade_append_of_new fun a ha => (hnew a ha).ne).trans ?_
    rw [hminutes]
    rfl
  bars := hcount
  emitted := hbars

theorem Accounts.firstTrade (hs : Accounts codec s) (hnext : s.Next trade)
    (hminute : s.minute = none) : Accounts codec ((s.openMinute trade).addTrade trade) := by
  have hnil : s.output.trades = [] := by
    have h := hs.minute
    rw [hminute] at h
    exact List.getLast?_eq_none_iff.mp (Option.map_eq_none_iff.mp h.symm)
  have hsame : s = { s with minute := none, minuteTrades := [] } := by
    have h := hs.minuteTrades
    rw [hminute] at h
    rw [← hminute, ← show s.minuteTrades = [] from h]
  have hminutes := hs.minutes
  rw [hminute] at hminutes
  rw [hsame]
  refine hs.openMinute hnext ?new hs.bars hminutes ?bars
  case new =>
    rw [hnil]
    exact fun a ha => nomatch ha
  case bars =>
    exact fun bar hbar =>
      (hs.emitted bar hbar).append fun a ha => T4TradeV1.minute_le (hnext a ha).le

theorem Accounts.nextMinute (hs : Accounts codec s) (hnext : s.Next trade) {m : ℤ}
    (hminute : s.minute = some m) (hne : m ≠ trade.minute)
    (hclose : s.closeMinute codec trade.arrival = .ok t) :
    Accounts codec ((t.openMinute trade).addTrade trade) := by
  have hle : ∀ a ∈ s.output.trades, a.minute ≤ trade.minute :=
    fun a ha => T4TradeV1.minute_le (hnext a ha).le
  obtain ⟨last, hlast, hm⟩ := Option.map_eq_some_iff.mp (hs.minute.symm.trans hminute)
  have hmem := List.mem_of_mem_getLast? hlast
  have hlt : m < trade.minute := (hm ▸ hle last hmem).lt_of_ne hne
  have hnew : ∀ a ∈ s.output.trades, a.minute < trade.minute := fun a ha =>
    (T4TradeV1.minute_le (hs.ordered.le_getLast hlast ha)).trans_lt (hm ▸ hlt)
  have hkept : ∀ bar ∈ s.output.bars, bar.EmittedFrom codec (s.output.trades ++ [trade]) :=
    fun bar hbar => (hs.emitted bar hbar).append hle
  have hminutes := hs.minutes
  rw [hminute] at hminutes
  rcases closeMinute_cases hclose hminute with rfl | ⟨bar, counts, hproven, hbar, hcount, hun, rfl⟩
  · refine hs.openMinute hnext hnew hs.bars ?minutes hkept
    case minutes =>
      rw [hminutes]
      exact Nat.add_assoc ..
  · refine hs.openMinute hnext hnew ?count ?minutes ?emitted
    case count => rw [hcount, hs.bars, List.length_append, List.length_singleton]
    case minutes =>
      rw [hminutes, hun, List.length_append]
      simp
      omega
    case emitted =>
      intro b hb
      rcases List.mem_append.mp hb with hb | hb
      · exact hkept b hb
      · cases List.mem_singleton.mp hb
        cases bar_barOpenMicros hbar
        obtain ⟨opening, hopening, hopen⟩ := hs.minuteOpenProven hproven
        refine ⟨⟨opening, List.mem_append_left _ hopening, hopen _ hminute⟩,
          trade, List.mem_append_right _ List.mem_cons_self, hlt, ?_⟩
        rw [ofMinute_append_of_ne hne.symm]
        have htrades := hs.minuteTrades
        rw [hminute] at htrades
        rw [← show s.minuteTrades = ofMinute s.output.trades bar.barOpenMicros from htrades]
        exact hbar

theorem Accounts.acceptTrade (hs : Accounts codec s) (hnext : s.Next trade)
    (h : s.acceptTrade codec trade = .ok t) : Accounts codec t := by
  rcases acceptTrade_cases h with ⟨hminute, rfl⟩ | ⟨hminute, rfl⟩ | ⟨m, s', hminute, hne, hclose, rfl⟩
  · exact hs.addTrade hnext hminute
  · exact hs.firstTrade hnext hminute
  · exact hs.nextMinute hnext hminute hne hclose

/-! ## Steps that accept no trade -/

structure SameTrades (s t : T4SegmentNormalizerV1) : Prop where
  trades : t.output.trades = s.output.trades
  bars : t.output.bars = s.output.bars
  lastTradeKey : t.lastTradeKey = s.lastTradeKey
  minute : t.minute = s.minute
  minuteTrades : t.minuteTrades = s.minuteTrades
  minuteOpenProven : t.minuteOpenProven = s.minuteOpenProven
  countedBars : t.counts.bars = s.counts.bars
  unproven : t.counts.minutesWithoutOpenProof = s.counts.minutesWithoutOpenProof

theorem SameTrades.trans (h : SameTrades s t) (h' : SameTrades t u) : SameTrades s u where
  trades := h'.trades.trans h.trades
  bars := h'.bars.trans h.bars
  lastTradeKey := h'.lastTradeKey.trans h.lastTradeKey
  minute := h'.minute.trans h.minute
  minuteTrades := h'.minuteTrades.trans h.minuteTrades
  minuteOpenProven := h'.minuteOpenProven.trans h.minuteOpenProven
  countedBars := h'.countedBars.trans h.countedBars
  unproven := h'.unproven.trans h.unproven

theorem Accounts.of_sameTrades (hs : Accounts codec s) (h : SameTrades s t) : Accounts codec t where
  ordered := h.trades ▸ hs.ordered
  lastTradeKey := h.trades ▸ h.lastTradeKey ▸ hs.lastTradeKey
  minute := h.trades ▸ h.minute ▸ hs.minute
  minuteTrades := h.trades ▸ h.minute ▸ h.minuteTrades ▸ hs.minuteTrades
  minuteOpenProven := h.trades ▸ h.minute ▸ h.minuteOpenProven ▸ hs.minuteOpenProven
  minutes := h.trades ▸ h.bars ▸ h.minute ▸ h.unproven ▸ hs.minutes
  bars := h.bars ▸ h.countedBars ▸ hs.bars
  emitted := h.trades ▸ h.bars ▸ hs.emitted

structure Grows (s t : T4SegmentNormalizerV1) : Prop where
  bars : s.output.bars <+: t.output.bars
  basis : s.output.basis <+: t.output.basis
  trades : s.output.trades <+: t.output.trades

theorem Grows.refl (s : T4SegmentNormalizerV1) : Grows s s :=
  ⟨List.prefix_refl _, List.prefix_refl _, List.prefix_refl _⟩

theorem Grows.trans (h : Grows s t) (h' : Grows t u) : Grows s u :=
  ⟨h.bars.trans h'.bars, h.basis.trans h'.basis, h.trades.trans h'.trades⟩

structure Quiet (s t : T4SegmentNormalizerV1) : Prop extends SameTrades s t where
  basis : s.output.basis <+: t.output.basis
  lastSequence : t.lastSequence = s.lastSequence

theorem Quiet.grows (h : Quiet s t) : Grows s t :=
  ⟨h.bars ▸ List.prefix_refl _, h.basis, h.trades ▸ List.prefix_refl _⟩

theorem emitBasis_quiet {arrival : T4ArrivalV1} {p : Prop} [Decidable p] (hs : Quiet s t)
    (h : (if p then .ok t else t.emitBasis arrival) = Except.ok u) : Quiet s u := by
  split at h
  · cases h
    exact hs
  · unfold emitBasis at h
    split at h
    · split at h
      · cases h
      · obtain ⟨basis, _, h⟩ := Except.bind_eq_ok.mp h
        cases Except.pure_eq_ok.mp h
        exact { hs with basis := hs.basis.trans (List.prefix_append ..) }
    · cases h
      exact { hs with }

theorem feedTicker_quiet {payload : List (String × Json)} {ts : ℤ} {messageType : Option String}
    {arrival : T4ArrivalV1} (h : s.feedTicker codec payload ts messageType arrival = .ok t) :
    Quiet s t := by
  unfold feedTicker at h
  split at h
  case h_2 => cases h
  case h_1 data hdata =>
    split at h
    · cases h
    · obtain ⟨cs, hcs, h⟩ := Except.bind_eq_ok.mp h
      split at h
      · cases h
      · obtain ⟨index, hindex, h⟩ := Except.bind_eq_ok.mp h
        obtain ⟨mark, hmark, h⟩ := Except.bind_eq_ok.mp h
        dsimp only at h
        split at h
        · refine emitBasis_quiet ?_ h
          exact ⟨⟨rfl, rfl, rfl, rfl, rfl, rfl, rfl, rfl⟩, List.prefix_refl _, rfl⟩
        · refine emitBasis_quiet ?_ h
          exact ⟨⟨rfl, rfl, rfl, rfl, rfl, rfl, rfl, rfl⟩, List.prefix_refl _, rfl⟩
        · cases h

/-! ## Trade messages -/

theorem acceptTrade_output (h : s.acceptTrade codec trade = .ok t) :
    t.output.trades = s.output.trades ++ [trade] ∧ s.output.bars <+: t.output.bars ∧
      t.output.basis = s.output.basis ∧ t.lastSequence = s.lastSequence := by
  rcases acceptTrade_cases h with ⟨_, rfl⟩ | ⟨_, rfl⟩ | ⟨m, s', hminute, _, hclose, rfl⟩
  · exact ⟨rfl, List.prefix_refl _, rfl, rfl⟩
  · exact ⟨rfl, List.prefix_refl _, rfl, rfl⟩
  · rcases closeMinute_cases hclose hminute with rfl | ⟨bar, _, _, _, _, _, rfl⟩
    · exact ⟨rfl, List.prefix_refl _, rfl, rfl⟩
    · exact ⟨rfl, List.prefix_append .., rfl, rfl⟩

theorem feedTrade_ok {ts : ℤ} {arrival : T4ArrivalV1} {entry : Json × ℕ}
    (h : feedTrade codec ts arrival s entry = .ok t) :
    ∃ trade seen, trade.arrival = arrival ∧ trade.entryIndex = entry.2 ∧
      (∀ last ∈ s.lastTradeKey, last ≤ trade.key) ∧
      ({ s with seenTradeIds := seen } : T4SegmentNormalizerV1).acceptTrade codec trade = .ok t := by
  unfold feedTrade at h
  split at h
  case h_2 => cases h
  case h_1 fields hfields =>
    split at h
    · cases h
    split at h
    · cases h
    split at h
    · cases h
    split at h
    · cases h
    split at h
    · cases h
    split at h
    · cases h
    split at h
    · cases h
    split at h
    · cases h
    split at h
    · cases h
    split at h
    · cases h
    rename_i hlast
    obtain ⟨price, _, h⟩ := Except.bind_eq_ok.mp h
    obtain ⟨quantity, _, h⟩ := Except.bind_eq_ok.mp h
    obtain ⟨block, _, h⟩ := Except.bind_eq_ok.mp h
    obtain ⟨rpi, _, h⟩ := Except.bind_eq_ok.mp h
    refine ⟨_, _, rfl, rfl, fun last hmem => ?_, h⟩
    rw [Option.mem_def.mp hmem] at hlast
    exact not_lt.mp fun hlt => hlast (decide_eq_true hlt)

def Before (s : T4SegmentNormalizerV1) (place : ℤ ×ₗ ℕ) : Prop :=
  ∀ a ∈ s.output.trades, a.place < place

theorem Accounts.feedTrade (hs : Accounts codec s) {ts : ℤ} {arrival : T4ArrivalV1}
    {entry : Json × ℕ} (hbefore : s.Before (toLex (arrival.recordSequence, entry.2)))
    (h : feedTrade codec ts arrival s entry = .ok t) :
    Accounts codec t ∧ Grows s t ∧ t.lastSequence = s.lastSequence ∧
      t.Before (toLex (arrival.recordSequence, entry.2 + 1)) ∧
      t.output.trades.map T4TradeV1.observationReference =
        s.output.trades.map T4TradeV1.observationReference ++
          ["t4-trade:" ++ arrival.recordContentHash ++ ":" ++ toString entry.2] := by
  obtain ⟨trade, seen, rfl, hentry, hlast, h⟩ := feedTrade_ok h
  have hs' : Accounts codec { s with seenTradeIds := seen } :=
    hs.of_sameTrades ⟨rfl, rfl, rfl, rfl, rfl, rfl, rfl, rfl⟩
  have hplace : trade.place = toLex (trade.arrival.recordSequence, entry.2) := hentry ▸ rfl
  have hnext : ({ s with seenTradeIds := seen } : T4SegmentNormalizerV1).Next trade := by
    intro a ha
    refine T4TradeV1.orderingKey_lt ?_ (hplace ▸ hbefore a ha)
    have hkey := hs.lastTradeKey
    cases hend : s.output.trades.getLast? with
    | none => exact absurd (List.getLast?_eq_none_iff.mp hend) (List.ne_nil_of_mem ha)
    | some last =>
        rw [hend] at hkey
        exact (T4TradeV1.key_le (hs.ordered.le_getLast hend ha)).trans (hlast last.key hkey)
  obtain ⟨htrades, hbars, hbasis, hsequence⟩ := acceptTrade_output h
  refine ⟨hs'.acceptTrade hnext h, ⟨hbars, hbasis ▸ List.prefix_refl _,
    htrades ▸ List.prefix_append ..⟩, hsequence, ?before, ?references⟩
  case before =>
    have hlt : trade.place < toLex (trade.arrival.recordSequence, entry.2 + 1) :=
      hplace ▸ Prod.Lex.toLex_lt_toLex.mpr (.inr ⟨rfl, Nat.lt_succ_self _⟩)
    intro a ha
    rw [htrades] at ha
    rcases List.mem_append.mp ha with ha | ha
    · exact (hbefore a ha).trans (hplace ▸ hlt)
    · exact List.mem_singleton.mp ha ▸ hlt
  case references =>
    rw [htrades, List.map_append]
    simp only [List.map_cons, List.map_nil, T4TradeV1.observationReference, hentry]

theorem Accounts.feedEntries {ts : ℤ} {arrival : T4ArrivalV1} {entries : List Json} {k : ℕ}
    (hs : Accounts codec s) (hbefore : s.Before (toLex (arrival.recordSequence, k)))
    (h : (entries.zipIdx k).foldlM (T4SegmentNormalizerV1.feedTrade codec ts arrival) s = .ok t) :
    Accounts codec t ∧ Grows s t ∧ t.lastSequence = s.lastSequence ∧
      t.Before (toLex (arrival.recordSequence, k + entries.length)) ∧
      t.output.trades.map T4TradeV1.observationReference =
        s.output.trades.map T4TradeV1.observationReference ++
          (entries.zipIdx k).map fun entry =>
            "t4-trade:" ++ arrival.recordContentHash ++ ":" ++ toString entry.2 := by
  induction entries generalizing s k with
  | nil =>
      cases h
      exact ⟨hs, .refl _, rfl, hbefore, (List.append_nil _).symm⟩
  | cons entry entries ih =>
      rw [List.zipIdx_cons] at h
      obtain ⟨s', hentry, h⟩ := Except.bind_eq_ok.mp h
      obtain ⟨hs', hgrows, hsequence, hbefore', hreferences⟩ := hs.feedTrade hbefore hentry
      obtain ⟨ht, hgrows', hsequence', hbefore', hreferences'⟩ := ih hs' hbefore' h
      refine ⟨ht, hgrows.trans hgrows', hsequence'.trans hsequence, ?_, ?_⟩
      · rw [List.length_cons, Nat.add_comm entries.length, ← Nat.add_assoc]
        exact hbefore'
      · rw [hreferences', hreferences, List.zipIdx_cons, List.map_cons, List.append_assoc]
        rfl

/-! ## Records -/

def tradeEntries (codec : Codec) (record : FirstPartyCaptureRecordV1) : List Json :=
  if record.channel = "publicTrade" then
    match codec.loads record.payloadText with
    | some (.obj payload) =>
        match Json.get payload "data" with
        | .arr entries => entries
        | _ => []
    | _ => []
  else []

def entryReferences (codec : Codec) (record : FirstPartyCaptureRecordV1) : List String :=
  (tradeEntries codec record).zipIdx.map fun entry =>
    "t4-trade:" ++ record.contentHash ++ ":" ++ toString entry.2

structure After (codec : Codec)
    (records : List (FirstPartyCaptureRecordV1 × ArrivalClockBoundEvidenceV1))
    (s : T4SegmentNormalizerV1) : Prop where
  accounts : Accounts codec s
  recorded : ∀ a ∈ s.output.trades, ∃ last ∈ s.lastSequence, a.arrival.recordSequence ≤ last
  references : s.output.trades.map T4TradeV1.observationReference =
    records.flatMap fun input => entryReferences codec input.1

variable {records : List (FirstPartyCaptureRecordV1 × ArrivalClockBoundEvidenceV1)}
  {input : FirstPartyCaptureRecordV1 × ArrivalClockBoundEvidenceV1}

theorem countRecord_sameTrades (record : FirstPartyCaptureRecordV1) :
    SameTrades s (s.countRecord record) := ⟨rfl, rfl, rfl, rfl, rfl, rfl, rfl, rfl⟩

theorem feedTrades_ok {payload : List (String × Json)} {ts : ℤ} {arrival : T4ArrivalV1}
    (h : s.feedTrades codec payload ts arrival = .ok t) :
    ∃ entries s', Json.get payload "data" = .arr entries ∧ SameTrades s s' ∧
      s'.output = s.output ∧ s'.lastSequence = s.lastSequence ∧
        entries.zipIdx.foldlM (feedTrade codec ts arrival) s' = .ok t := by
  unfold feedTrades at h
  split at h
  · rename_i entry entries hdata
    exact ⟨_, { s with counts := { s.counts with tradeRecords := s.counts.tradeRecords + 1 } },
      hdata, ⟨rfl, rfl, rfl, rfl, rfl, rfl, rfl, rfl⟩, rfl, rfl, h⟩
  · cases h

theorem feed_cases (h : feed codec s input = .ok t) :
    (∀ last ∈ s.lastSequence, last < input.1.sequence) ∧
      ∃ payload ts, codec.loads input.1.payloadText = some (.obj payload) ∧
        (input.1.channel = "tickers" ∧ Quiet (s.countRecord input.1) t ∨
          input.1.channel = "publicTrade" ∧ (s.countRecord input.1).feedTrades codec payload ts
            (arrivalOf input.1 input.2) = .ok t) := by
  unfold feed at h
  dsimp only at h
  split at h
  · cases h
  split at h
  · cases h
  split at h
  · cases h
  rename_i hsequence
  split at h
  · cases h
  split at h
  · cases h
  case h_3 => cases h
  case h_2 payload hloads =>
    split at h
    · cases h
    rename_i ts _
    split at h
    · cases h
    split at h
    · cases h
    refine ⟨fun last hlast => ?_, payload, ts, hloads, ?_⟩
    · rw [Option.mem_def.mp hlast] at hsequence
      exact not_le.mp fun hle => hsequence (decide_eq_true hle)
    split at h
    · rename_i hchannel
      exact .inl ⟨hchannel, feedTicker_quiet h⟩
    split at h
    · rename_i hchannel
      exact .inr ⟨hchannel, h⟩
    · cases h

theorem feed_finished (h : feed codec s input = .ok t) : s.finished = false := by
  unfold feed at h
  dsimp only at h
  split at h
  · cases h
  · rename_i hfinished
    simpa using hfinished

theorem finish_ok {output : T4SegmentOutputV1} (h : s.finish = .ok (output, t)) :
    s.finished = false ∧ output = s.output ∧ t.counts = { s.counts with
      minutesOpenAtSegmentEnd := if s.minute = none then 0 else 1 } := by
  unfold finish at h
  split at h
  · cases h
  · rename_i hfinished
    cases h
    exact ⟨by simpa using hfinished, rfl, rfl⟩

theorem After.append (hs : After codec records s) (h : feed codec s input = .ok t) :
    After codec (records ++ [input]) t ∧ Grows s t := by
  obtain ⟨hlast, payload, ts, hloads, h⟩ := feed_cases h
  have hcount : Grows s (s.countRecord input.1) :=
    ⟨List.prefix_refl _, List.prefix_refl _, List.prefix_refl _⟩
  have hbefore : s.Before (toLex (input.1.sequence, 0)) := by
    intro a ha
    obtain ⟨last, hlast', hle⟩ := hs.recorded a ha
    exact Prod.Lex.toLex_lt_toLex.mpr (.inl (hle.trans_lt (hlast last hlast')))
  rcases h with ⟨hchannel, hquiet⟩ | ⟨hchannel, h⟩
  · have hsame := (countRecord_sameTrades (s := s) input.1).trans hquiet.toSameTrades
    refine ⟨⟨hs.accounts.of_sameTrades hsame, ?recorded, ?references⟩, hcount.trans hquiet.grows⟩
    case recorded =>
      intro a ha
      rw [hsame.trades] at ha
      obtain ⟨last, hlast', hle⟩ := hs.recorded a ha
      exact ⟨input.1.sequence, hquiet.lastSequence, hle.trans (hlast last hlast').le⟩
    case references =>
      have hnone : entryReferences codec input.1 = [] := by
        rw [entryReferences, tradeEntries, if_neg (hchannel ▸ by decide)]
        rfl
      rw [hsame.trades, hs.references, List.flatMap_append, List.flatMap_singleton, hnone,
        List.append_nil]
  · obtain ⟨entries, s', hdata, hsame', houtput, hlast', h⟩ := feedTrades_ok h
    have hsame := (countRecord_sameTrades (s := s) input.1).trans hsame'
    have hcount' : Grows s s' := by
      constructor
      · exact hsame.bars ▸ List.prefix_refl _
      · exact houtput ▸ List.prefix_refl _
      · exact hsame.trades ▸ List.prefix_refl _
    have hplace : s'.Before (toLex ((arrivalOf input.1 input.2).recordSequence, 0)) :=
      fun a ha => hbefore a (hsame.trades ▸ ha)
    obtain ⟨haccounts, hgrows, hsequence, hbefore', hreferences⟩ :=
      (hs.accounts.of_sameTrades hsame).feedEntries hplace h
    refine ⟨⟨haccounts, ?recorded, ?references⟩, hcount'.trans hgrows⟩
    case recorded =>
      intro a ha
      refine ⟨input.1.sequence, hsequence.trans hlast', ?_⟩
      rcases Prod.Lex.toLex_lt_toLex.mp (hbefore' a ha) with hlt | ⟨heq, _⟩
      · exact hlt.le
      · exact heq.le
    case references =>
      have hentries : tradeEntries codec input.1 = entries := by
        simp only [tradeEntries, hchannel, if_true, hloads, hdata]
      rw [hreferences, hsame.trades, List.flatMap_append, List.flatMap_singleton,
        ← hs.references, entryReferences, hentries]
      rfl

theorem After.of_replay {symbol : String} {sessionId : UUID} {s₀ : T4SegmentNormalizerV1}
    (hinit : init symbol sessionId = .ok s₀) (h : Replay.replay (feed codec) s₀ records = .ok s) :
    After codec records s := by
  induction records using List.reverseRecOn generalizing s with
  | nil =>
      cases h
      unfold init at hinit
      split at hinit
      · cases hinit
      · cases hinit
        refine ⟨⟨.nil, rfl, rfl, rfl, ?proven, ?minutes, rfl, ?emitted⟩, ?recorded, rfl⟩
        case proven => exact fun h => nomatch h
        case minutes => simp [minutesWithTrade]
        case emitted => exact fun _ h => nomatch h
        case recorded => exact fun _ h => nomatch h
  | append_singleton records input ih =>
      rw [Replay.replay_snoc] at h
      obtain ⟨s', hs', h⟩ := Except.bind_eq_ok.mp h
      exact ((ih hs').append h).1

theorem After.grows {later : List (FirstPartyCaptureRecordV1 × ArrivalClockBoundEvidenceV1)}
    (hs : After codec records s) (h : Replay.replay (feed codec) s later = .ok t) : Grows s t := by
  induction later generalizing s records with
  | nil =>
      cases h
      exact .refl _
  | cons input later ih =>
      obtain ⟨s', hs', h⟩ := Except.bind_eq_ok.mp h
      obtain ⟨hafter, hgrows⟩ := hs.append hs'
      exact hgrows.trans (ih hafter h)

theorem feedAndFinish_append {symbol : String} {sessionId : UUID}
    {later : List (FirstPartyCaptureRecordV1 × ArrivalClockBoundEvidenceV1)}
    {output : T4SegmentOutputV1} {counts : T4NormalizationCountsV1}
    (h : feedAndFinish codec symbol sessionId (records ++ later) = .ok (output, counts)) :
    ∃ output' counts', feedAndFinish codec symbol sessionId records = .ok (output', counts') ∧
      output'.bars <+: output.bars ∧ output'.basis <+: output.basis ∧
        output'.trades <+: output.trades := by
  obtain ⟨s₀, hinit, h⟩ := Except.bind_eq_ok.mp h
  obtain ⟨s, hrun, h⟩ := Except.bind_eq_ok.mp h
  obtain ⟨⟨_, t⟩, hfinish, h⟩ := Except.bind_eq_ok.mp h
  cases Except.pure_eq_ok.mp h
  rw [Replay.replay_append] at hrun
  obtain ⟨s', hs', hlater⟩ := Except.bind_eq_ok.mp hrun
  have hgrows := (After.of_replay hinit hs').grows hlater
  have houtput : output = s.output := (finish_ok hfinish).2.1
  have hopen : s'.finished = false := by
    cases later with
    | nil =>
        cases hlater
        exact (finish_ok hfinish).1
    | cons input later =>
        obtain ⟨_, hfeed, _⟩ := Except.bind_eq_ok.mp hlater
        exact feed_finished hfeed
  refine ⟨s'.output, { s'.counts with
    minutesOpenAtSegmentEnd := if s'.minute = none then 0 else 1 }, ?_, houtput ▸ hgrows.bars,
    houtput ▸ hgrows.basis, houtput ▸ hgrows.trades⟩
  unfold feedAndFinish finish
  rw [hinit, Except.ok_bind, hs', Except.ok_bind, if_neg (hopen ▸ nofun)]
  rfl

end T4SegmentNormalizerV1

/-! ## A finished segment -/

open T4SegmentNormalizerV1

/-- The counts and the bars of a finished segment account for every trade in its records. -/
structure T4SegmentOutputV1.AccountsFor (codec : Codec)
    (records : List (FirstPartyCaptureRecordV1 × ArrivalClockBoundEvidenceV1))
    (counts : T4NormalizationCountsV1) (output : T4SegmentOutputV1) : Prop where
  trades : output.trades.map T4TradeV1.observationReference =
    records.flatMap fun input => entryReferences codec input.1
  ordered : InVenueOrder output.trades
  minutes : minutesWithTrade output.trades =
    counts.bars + counts.minutesWithoutOpenProof + counts.minutesOpenAtSegmentEnd
  bars : counts.bars = output.bars.length
  madeOf : ∀ bar ∈ output.bars, bar.MadeOf codec output.trades
  sums : ∀ bar ∈ output.bars, bar.SumsOf output.trades

variable {codec : Codec} {symbol : String} {sessionId : UUID}
  {records : List (FirstPartyCaptureRecordV1 × ArrivalClockBoundEvidenceV1)}
  {output : T4SegmentOutputV1} {counts : T4NormalizationCountsV1}

/-- Every finished segment whose bars need no more digits than the sums have accounts for the
trades of its records, and what it had written after any of the records it kept. -/
theorem feedAndFinish_accountsFor
    (hrun : feedAndFinish codec symbol sessionId records = .ok (output, counts))
    (hdigits : ∀ bar ∈ output.bars, WithinDigits (ofMinute output.trades bar.barOpenMicros)) :
    output.AccountsFor codec records counts ∧
      ∀ earlier later, records = earlier ++ later → ∃ output' counts',
        feedAndFinish codec symbol sessionId earlier = .ok (output', counts') ∧
          output'.bars <+: output.bars ∧ output'.basis <+: output.basis ∧
            output'.trades <+: output.trades := by
  refine ⟨?_, fun earlier later hsplit => feedAndFinish_append (hsplit ▸ hrun)⟩
  obtain ⟨s₀, hinit, h⟩ := Except.bind_eq_ok.mp hrun
  obtain ⟨s, hreplay, h⟩ := Except.bind_eq_ok.mp h
  obtain ⟨⟨_, t⟩, hfinish, h⟩ := Except.bind_eq_ok.mp h
  cases Except.pure_eq_ok.mp h
  obtain ⟨_, rfl, hcounts⟩ := finish_ok hfinish
  have hafter := After.of_replay hinit hreplay
  have haccounts := hafter.accounts
  refine {
    trades := hafter.references
    ordered := haccounts.ordered
    minutes := ?minutes
    bars := hcounts ▸ haccounts.bars
    madeOf := fun bar hbar => ((haccounts.emitted bar hbar).madeOf haccounts.ordered).1
    sums := fun bar hbar =>
      (haccounts.emitted bar hbar).sumsOf haccounts.ordered (hdigits bar hbar) }
  rw [haccounts.minutes, ← haccounts.bars, hcounts]
  cases s.minute with
  | none => rfl
  | some m => rfl

/-! ## Three minutes -/

section ThreeMinutes

/-- The fields of a trade of quantity `quantity`, and a message with that trade. -/
def tradeFields (ms : ℤ) (quantity : String) : List (String × Json) :=
  [("i", .str (toString ms)), ("T", .int ms), ("seq", .int ms), ("S", .str "Buy"),
    ("s", .str "BTCUSDT"), ("p", .str "2"), ("v", .str quantity)]

def tradeMessage (ms : ℤ) (quantity : String) : List (String × Json) :=
  [("ts", .int ms), ("data", .arr [.obj (tradeFields ms quantity)])]

def tradeText (ms : ℤ) (quantity : String) : String :=
  "\x7b\"ts\":" ++ toString ms ++ ",\"data\":[\x7b\"i\":\"" ++ toString ms ++
    "\",\"T\":" ++ toString ms ++ ",\"seq\":" ++ toString ms ++
    ",\"S\":\"Buy\",\"s\":\"BTCUSDT\",\"p\":\"2\",\"v\":\"" ++ quantity ++
    "\"\x7d]\x7d"

def threeMinutes (quantities : List String) : List (ℤ × String) :=
  [30000, 90000, 150000].zip quantities

def fineQuantity : String := "1." ++ String.ofList (List.replicate 69 '0') ++ "1"

def threeMinutesCodec (quantities : List String) : Codec where
  loads text := ((threeMinutes quantities).find? fun trade =>
    tradeText trade.1 trade.2 = text).map fun trade => .obj (tradeMessage trade.1 trade.2)
  decimal text := ([("1", 1), ("2", 2), (fineQuantity, 1 + 1 / 10 ^ 70)].lookup text).map some
  manifestHash minute references := toString minute ++ ",".intercalate references

def threeMinutesRecords (quantities : List String) :
    List (FirstPartyCaptureRecordV1 × ArrivalClockBoundEvidenceV1) :=
  (threeMinutes quantities).map fun trade =>
    ({ sessionId := 7
       sequence := trade.1
       arrivalUtcNanos := trade.1 * 1000000
       channel := "publicTrade"
       messageType := some "snapshot"
       exchangeTimestampMillis := some trade.1
       payloadText := tradeText trade.1 trade.2
       contentHash := toString trade.1 },
     ⟨2000000, "first", "second"⟩)

def threeMinutesSegment (quantities : List String) :
    Except Exn (T4SegmentOutputV1 × T4NormalizationCountsV1) :=
  feedAndFinish (threeMinutesCodec quantities) "BTCUSDT" 7 (threeMinutesRecords quantities)

theorem feedAndFinish_accountsFor_threeMinutes : ∃ output counts,
    threeMinutesSegment ["1", "2", "1"] = .ok (output, counts) ∧ output.bars.length = 1 ∧
      output.AccountsFor (threeMinutesCodec ["1", "2", "1"])
        (threeMinutesRecords ["1", "2", "1"]) counts ∧
      ∀ earlier later, threeMinutesRecords ["1", "2", "1"] = earlier ++ later →
        ∃ output' counts',
          feedAndFinish (threeMinutesCodec ["1", "2", "1"]) "BTCUSDT" 7 earlier =
              .ok (output', counts') ∧
            output'.bars <+: output.bars ∧ output'.basis <+: output.basis ∧
              output'.trades <+: output.trades := by
  obtain ⟨⟨output, counts⟩, h⟩ := Except.exists_of_isOk
    (x := threeMinutesSegment ["1", "2", "1"]) (by decide +kernel)
  have hall : ∀ r ∈ (threeMinutesSegment ["1", "2", "1"]).toOption, r.1.bars.length = 1 ∧
      ∀ bar ∈ r.1.bars, WithinDigits (ofMinute r.1.trades bar.barOpenMicros) := by decide +kernel
  obtain ⟨hlength, hdigits⟩ := hall _ (by rw [h]; rfl)
  exact ⟨output, counts, h, hlength, feedAndFinish_accountsFor h hdigits⟩

/-- A quantity of more than sixty digits is rounded, and its bar is emitted. -/
theorem fine_quantity_is_rounded : ∃ output counts,
    threeMinutesSegment ["1", fineQuantity, "1"] = .ok (output, counts) ∧
      ∃ bar ∈ output.bars, ¬ bar.SumsOf output.trades := by
  obtain ⟨⟨output, counts⟩, h⟩ := Except.exists_of_isOk
    (x := threeMinutesSegment ["1", fineQuantity, "1"]) (by decide +kernel)
  have hall : ∀ r ∈ (threeMinutesSegment ["1", fineQuantity, "1"]).toOption,
      ∃ bar ∈ r.1.bars, bar.baseVolume ≠
        ((ofMinute r.1.trades bar.barOpenMicros).map T4TradeV1.quantity).sum := by decide +kernel
  obtain ⟨bar, hbar, hne⟩ := hall _ (by rw [h]; rfl)
  exact ⟨output, counts, h, bar, hbar, fun hsums => hne hsums.1⟩

end ThreeMinutes

end T4

end TradePlatform
