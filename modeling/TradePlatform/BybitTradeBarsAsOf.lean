/-
# `TradePlatform.BybitTradeBarsAsOf` — bars from the trades that had arrived, in any order

Two runs of the builder, over all trades and over those that had arrived by an instant `t`.
The order is that of the exchange and not of the arrivals, and a filter passes through a
stable sort, so the second run finds the same bar where the bar was complete by `t`, and the
same open where the open was available.

The bars do not depend on the order the trades come in as long as the ordering key tells the
rows of the manifest apart.  A trade that was captured twice has one key and two rows (each
record has its own arrival and its own content hash), and a stable sort leaves these in the
order they came in: the manifest, and with it the bar, is then another one.
-/
import TradePlatform.BybitTradeBars
import TradePlatform.Lib.DecimalSum
import TradePlatform.Lib.SlidingWindow
import TradePlatform.Lib.JsonLines

namespace TradePlatform

namespace BybitTradeBars

variable {hashes : Hashes} {contract : LinearContractQuantitySemanticsV1} {symbol : String}
  {trades : List CapturedPublicTradeV1} {bars : List ReconstructedTradeBarV1}
  {bar : ReconstructedTradeBarV1} {ordered part bucket : List TradeRow} {first last : TradeRow}
  {barOpenAt : ℤ} {values : List Decimal} {total : Decimal}

/-! ## Sums -/

theorem quantizedSum_isOk : (∃ total, quantizedSum values = .ok total) ↔
    (Decimal.roundHalfEven (values.foldl Decimal.Context.default.add 0 * 10 ^ 8)).natAbs <
      10 ^ 28 := by
  unfold quantizedSum Decimal.Arithmetic.quantize Decimal.Arithmetic.scaled
  by_cases hlt : (Decimal.roundHalfEven
      (values.foldl Decimal.Context.default.add 0 * 10 ^ 8)).natAbs < 10 ^ 28
  · rw [if_pos (by simpa [Decimal.Arithmetic.default] using hlt)]
    exact iff_of_true ⟨_, rfl⟩ hlt
  · rw [if_neg (by simpa [Decimal.Arithmetic.default] using hlt)]
    refine iff_of_false ?_ hlt
    rintro ⟨_, h⟩
    cases h

theorem quantizedSum_of_sublist {values' : List Decimal} (hsub : values'.Sublist values)
    (hpos : ∀ x ∈ values, 0 ≤ x) (h : quantizedSum values = .ok total) :
    ∃ total', quantizedSum values' = .ok total' := by
  have hfull := quantizedSum_isOk.mp ⟨total, h⟩
  have hzero : Decimal.roundSig 28 0 = 0 := by simp [Decimal.roundSig]
  have hbounds : 0 ≤ values'.foldl Decimal.Context.default.add 0 ∧
      values'.foldl Decimal.Context.default.add 0 ≤ values.foldl Decimal.Context.default.add 0 :=
    Decimal.foldl_add_sublist (by norm_num) hsub hpos le_rfl le_rfl hzero
  have hscale : (0 : ℚ) ≤ 10 ^ 8 := by positivity
  have hlow := Decimal.roundHalfEven_nonneg (mul_nonneg hbounds.1 hscale)
  have hmono := Decimal.roundHalfEven_mono (mul_le_mul_of_nonneg_right hbounds.2 hscale)
  rw [quantizedSum_isOk]
  omega

/-! ## The bar of a part of a minute -/

theorem notional_nonneg (row : TradeRow) : 0 ≤ row.notional :=
  Decimal.roundSig_nonneg (by norm_num) (mul_pos row.price.2 row.quantity.2).le

theorem barOfOrdered_eq_ok (h : barOfOrdered hashes contract symbol barOpenAt first last ordered =
    .ok bar) : bar.barOpenAt = barOpenAt ∧ bar.openPrice = first.price.val ∧
      bar.openAvailableAtNanos = first.localTimestampNanos ∧
      bar.tradeManifestHash = hashes.manifest ⟨symbol, barOpenAt, ordered⟩ ∧
      ∀ row ∈ ordered, row.localTimestampNanos ≤ bar.barCompleteAvailableAtNanos := by
  unfold barOfOrdered at h
  obtain ⟨baseVolume, -, h⟩ := Except.bind_eq_ok.mp h
  obtain ⟨quoteTurnover, -, h⟩ := Except.bind_eq_ok.mp h
  obtain ⟨barCloseAt, -, h⟩ := Except.bind_eq_ok.mp h
  obtain ⟨boundary, -, h⟩ := Except.bind_eq_ok.mp h
  cases Except.pure_eq_ok.mp h
  refine ⟨rfl, rfl, rfl, rfl, fun row hrow => le_max_of_le_right ?_⟩
  have hmem : row.localTimestampNanos ∈ ordered.map TradeRow.localTimestampNanos :=
    List.mem_map_of_mem hrow
  exact SlidingWindow.le_foldl_max.2 _ hmem

theorem barOfOrdered_of_sublist {first' last' : TradeRow} (hsub : part.Sublist ordered)
    (h : barOfOrdered hashes contract symbol barOpenAt first last ordered = .ok bar) :
    ∃ bar', barOfOrdered hashes contract symbol barOpenAt first' last' part = .ok bar' := by
  unfold barOfOrdered at h ⊢
  obtain ⟨baseVolume, hvolume, h⟩ := Except.bind_eq_ok.mp h
  obtain ⟨quoteTurnover, hturnover, h⟩ := Except.bind_eq_ok.mp h
  obtain ⟨barCloseAt, hclose, h⟩ := Except.bind_eq_ok.mp h
  obtain ⟨boundary, hboundary, -⟩ := Except.bind_eq_ok.mp h
  have hquantities : ∀ x ∈ ordered.map fun row => row.quantity.val.value, 0 ≤ x := by
    intro x hx
    obtain ⟨row, -, rfl⟩ := List.mem_map.mp hx
    exact row.quantity.2.le
  obtain ⟨baseVolume', hvolume'⟩ := quantizedSum_of_sublist (hsub.map _) hquantities hvolume
  have hpart : ∃ quoteTurnover', quoteTurnoverOf contract part = .ok quoteTurnover' := by
    unfold quoteTurnoverOf at hturnover ⊢
    split
    · next hbase =>
        rw [if_pos hbase] at hturnover
        obtain ⟨turnover, hturnover, -⟩ := Except.bind_eq_ok.mp hturnover
        have hnotionals : ∀ x ∈ ordered.map TradeRow.notional, 0 ≤ x := by
          intro x hx
          obtain ⟨row, -, rfl⟩ := List.mem_map.mp hx
          exact notional_nonneg row
        obtain ⟨turnover', hturnover'⟩ := quantizedSum_of_sublist (hsub.map _) hnotionals hturnover
        exact ⟨some turnover', by rw [hturnover']; rfl⟩
    · exact ⟨none, rfl⟩
  obtain ⟨quoteTurnover', hturnover'⟩ := hpart
  rw [hvolume', hturnover', hclose, Except.ok_bind, Except.ok_bind, Except.ok_bind, hboundary]
  exact ⟨_, rfl⟩

theorem barOf_eq_ok (h : barOf hashes contract symbol barOpenAt bucket = .ok bar) :
    ∃ first last, (sortBy TradeRow.orderingKey bucket).head? = some first ∧
      (sortBy TradeRow.orderingKey bucket).getLast? = some last ∧
        barOfOrdered hashes contract symbol barOpenAt first last
          (sortBy TradeRow.orderingKey bucket) = .ok bar := by
  unfold barOf at h
  dsimp only at h
  split at h
  · next first last hfirst hlast => exact ⟨first, last, hfirst, hlast, h⟩
  · cases h

/-- A part of a minute makes a bar, whose open is that of the minute if its first trade is
kept. -/
theorem barOf_filter (p : TradeRow → Bool) (hne : bucket.filter p ≠ [])
    (h : barOf hashes contract symbol barOpenAt bucket = .ok bar) :
    ∃ early, barOf hashes contract symbol barOpenAt (bucket.filter p) = .ok early ∧
      ((∀ first ∈ (sortBy TradeRow.orderingKey bucket).head?, p first = true) →
        early.openPrice = bar.openPrice) := by
  obtain ⟨first, last, hfirst, -, hbar⟩ := barOf_eq_ok h
  have hsorted := filter_sortBy TradeRow.orderingKey bucket p
  have hsub : (sortBy TradeRow.orderingKey (bucket.filter p)).Sublist
      (sortBy TradeRow.orderingKey bucket) := by
    rw [← hsorted]
    exact List.filter_sublist
  have hkept : sortBy TradeRow.orderingKey (bucket.filter p) ≠ [] := fun heq =>
    hne (List.Perm.nil_eq (heq ▸ sortBy_perm TradeRow.orderingKey (bucket.filter p))).symm
  obtain ⟨first', hfirst'⟩ := Option.isSome_iff_exists.mp (List.isSome_head?.mpr hkept)
  obtain ⟨last', hlast'⟩ := Option.isSome_iff_exists.mp (List.getLast?_isSome.mpr hkept)
  obtain ⟨early, hearly⟩ := @barOfOrdered_of_sublist _ _ _ _ _ _ _ _ _ first' last' hsub hbar
  refine ⟨early, ?_, fun hhead => ?_⟩
  · unfold barOf
    dsimp only
    rw [hfirst', hlast']
    exact hearly
  · -- the first of all passes the filter, so it is the first of those kept
    have hsame : first' = first := by
      obtain ⟨rest, hrest⟩ := List.head?_eq_some_iff.mp hfirst
      rw [← hsorted, hrest, List.filter_cons, if_pos (hhead first hfirst), List.head?_cons] at hfirst'
      exact (Option.some_inj.mp hfirst').symm
    rw [(barOfOrdered_eq_ok hearly).2.1, (barOfOrdered_eq_ok hbar).2.1, hsame]

/-! ## The bars of all minutes -/

theorem mem_minutesOf : barOpenAt ∈ minutesOf trades ↔
    ∃ trade ∈ trades, floorToMinute trade.exchangeTimestamp = barOpenAt := by
  rw [minutesOf, mem_sortedSet, List.mem_map]

theorem minutesOf_pairwise (trades : List CapturedPublicTradeV1) :
    (minutesOf trades).Pairwise (· < ·) := by
  have hnodup : (minutesOf trades).Nodup :=
    (sortBy_perm id _).nodup_iff.mpr (List.nodup_dedup _)
  refine (sortBy_pairwise id _).imp₂ ?_ hnodup
  intro a b hle hne
  exact lt_of_le_of_ne hle hne

theorem build_eq_ok : buildOneMinuteTradeBars hashes contract symbol trades = .ok bars ↔
    contract.validate = .ok () ∧ requireSymbol symbol trades = .ok () ∧
      (minutesOf trades).mapM (fun barOpenAt =>
        barOf hashes contract symbol barOpenAt (bucketOf trades barOpenAt)) = .ok bars := by
  unfold buildOneMinuteTradeBars
  constructor
  · intro h
    obtain ⟨⟨⟩, hvalidate, h⟩ := Except.bind_eq_ok.mp h
    obtain ⟨⟨⟩, hsymbol, h⟩ := Except.bind_eq_ok.mp h
    exact ⟨hvalidate, hsymbol, h⟩
  · rintro ⟨hvalidate, hsymbol, h⟩
    rw [hvalidate, Except.ok_bind, hsymbol, Except.ok_bind, h]

theorem barOf_barOpenAt (h : barOf hashes contract symbol barOpenAt bucket = .ok bar) :
    bar.barOpenAt = barOpenAt := by
  obtain ⟨first, last, -, -, hbar⟩ := barOf_eq_ok h
  exact (barOfOrdered_eq_ok hbar).1

theorem bars_barOpenAt (h : buildOneMinuteTradeBars hashes contract symbol trades = .ok bars) :
    bars.map (·.barOpenAt) = minutesOf trades := by
  obtain ⟨-, -, hbars⟩ := build_eq_ok.mp h
  have hall := Except.forall₂_of_mapM hbars
  clear hbars h
  generalize minutesOf trades = minutes at hall ⊢
  induction hall with
  | nil => rfl
  | cons hbar _ ih => rw [List.map_cons, ih, barOf_barOpenAt hbar]

/-! ## The trades that had arrived -/

def arrivedBy (t : ℤ) (trades : List CapturedPublicTradeV1) : List CapturedPublicTradeV1 :=
  trades.filter fun trade => trade.localTimestampNanos ≤ t

theorem bucketOf_arrivedBy (t : ℤ) : bucketOf (arrivedBy t trades) barOpenAt =
    (bucketOf trades barOpenAt).filter fun row => row.localTimestampNanos ≤ t := by
  unfold bucketOf arrivedBy
  rw [List.filter_map, List.filter_filter, List.filter_filter]
  congr 2
  funext trade
  exact Bool.and_comm _ _

theorem minutesOf_arrivedBy {t : ℤ} (h : barOpenAt ∈ minutesOf (arrivedBy t trades)) :
    barOpenAt ∈ minutesOf trades ∧ bucketOf (arrivedBy t trades) barOpenAt ≠ [] := by
  obtain ⟨trade, hmem, hfloor⟩ := mem_minutesOf.mp h
  refine ⟨mem_minutesOf.mpr ⟨trade, List.mem_of_mem_filter hmem, hfloor⟩, ?_⟩
  have hbucket : trade.toTradeRow ∈ bucketOf (arrivedBy t trades) barOpenAt :=
    List.mem_map_of_mem (List.mem_filter.mpr ⟨hmem, decide_eq_true hfloor⟩)
  exact List.ne_nil_of_mem hbucket

theorem minutesOf_of_bucket (h : bucketOf trades barOpenAt ≠ []) :
    barOpenAt ∈ minutesOf trades := by
  obtain ⟨row, hrow⟩ := List.exists_mem_of_ne_nil _ h
  obtain ⟨trade, htrade, -⟩ := List.mem_map.mp hrow
  obtain ⟨hmem, hfloor⟩ := List.mem_filter.mp htrade
  exact mem_minutesOf.mpr ⟨trade, hmem, of_decide_eq_true hfloor⟩

theorem requireSymbol_arrivedBy {t : ℤ} (h : requireSymbol symbol trades = .ok ()) :
    requireSymbol symbol (arrivedBy t trades) = .ok () := by
  unfold requireSymbol at h ⊢
  split at h
  · cases h
  split at h
  · next hblank hall =>
      rw [if_neg hblank]
      exact if_pos fun trade hmem => hall trade (List.mem_of_mem_filter hmem)
  · cases h

/-- The bars that were known at `t`: those complete by then, as they are, and with the same open
those whose open was available by then. -/
theorem build_arrivedBy (h : buildOneMinuteTradeBars hashes contract symbol trades = .ok bars)
    (t : ℤ) : ∃ known,
      buildOneMinuteTradeBars hashes contract symbol (arrivedBy t trades) = .ok known ∧
      (known.map (·.barOpenAt)).Pairwise (· < ·) ∧
      (∀ bar ∈ bars, bar.barCompleteAvailableAtNanos ≤ t → bar ∈ known) ∧
      ∀ bar ∈ bars, bar.openAvailableAtNanos ≤ t →
        ∃ early ∈ known, early.barOpenAt = bar.barOpenAt ∧ early.openPrice = bar.openPrice := by
  obtain ⟨hvalidate, hsymbol, hbars⟩ := build_eq_ok.mp h
  -- every minute that is left makes a bar
  have hminute : ∀ barOpenAt ∈ minutesOf (arrivedBy t trades), ∃ early,
      barOf hashes contract symbol barOpenAt (bucketOf (arrivedBy t trades) barOpenAt) =
        .ok early := by
    intro barOpenAt hmem
    obtain ⟨hin, hne⟩ := minutesOf_arrivedBy hmem
    obtain ⟨bar, -, hbar⟩ := Except.exists_of_mem_mapM hbars hin
    rw [bucketOf_arrivedBy] at hne ⊢
    obtain ⟨early, hearly, -⟩ := barOf_filter _ hne hbar
    exact ⟨early, hearly⟩
  obtain ⟨known, hknown⟩ := Except.exists_mapM_ok hminute
  have hbuild : buildOneMinuteTradeBars hashes contract symbol (arrivedBy t trades) = .ok known :=
    build_eq_ok.mpr ⟨hvalidate, requireSymbol_arrivedBy hsymbol, hknown⟩
  refine ⟨known, hbuild, ?_, fun bar hmem hcomplete => ?_, fun bar hmem hopen => ?_⟩
  · rw [bars_barOpenAt hbuild]
    exact minutesOf_pairwise _
  · obtain ⟨barOpenAt, hin, hbar⟩ := Except.mem_of_mapM hbars hmem
    obtain ⟨first, last, hfirst, hlast, hordered⟩ := barOf_eq_ok hbar
    obtain ⟨-, -, -, -, harrived⟩ := barOfOrdered_eq_ok hordered
    -- all of its trades had arrived
    have hall : bucketOf (arrivedBy t trades) barOpenAt = bucketOf trades barOpenAt := by
      rw [bucketOf_arrivedBy]
      refine List.filter_eq_self.mpr fun row hrow => decide_eq_true ?_
      exact (harrived row (mem_sortBy.mpr hrow)).trans hcomplete
    have hne : bucketOf (arrivedBy t trades) barOpenAt ≠ [] := by
      rw [hall]
      exact List.ne_nil_of_mem (mem_sortBy.mp (List.mem_of_mem_head? hfirst))
    obtain ⟨early, hearly, hsame⟩ := Except.exists_of_mem_mapM hknown (minutesOf_of_bucket hne)
    rw [hall, hbar] at hsame
    rw [Except.ok.inj hsame]
    exact hearly
  · obtain ⟨barOpenAt, hin, hbar⟩ := Except.mem_of_mapM hbars hmem
    obtain ⟨first, last, hfirst, hlast, hordered⟩ := barOf_eq_ok hbar
    obtain ⟨-, -, havailable, -, -⟩ := barOfOrdered_eq_ok hordered
    have hkept : first.localTimestampNanos ≤ t := havailable ▸ hopen
    have hne : bucketOf (arrivedBy t trades) barOpenAt ≠ [] := by
      rw [bucketOf_arrivedBy]
      have hbucket := mem_sortBy.mp (List.mem_of_mem_head? hfirst)
      exact List.ne_nil_of_mem (List.mem_filter.mpr ⟨hbucket, decide_eq_true hkept⟩)
    obtain ⟨early, hearly, hbuilt⟩ := Except.exists_of_mem_mapM hknown (minutesOf_of_bucket hne)
    rw [bucketOf_arrivedBy] at hne hbuilt
    obtain ⟨early', hbuilt', hprice⟩ := barOf_filter _ hne hbar
    rw [hbuilt'] at hbuilt
    cases hbuilt
    refine ⟨early, hearly, (barOf_barOpenAt hbuilt').trans (barOf_barOpenAt hbar).symm, ?_⟩
    refine hprice fun head hhead => decide_eq_true ?_
    rw [hfirst] at hhead
    cases hhead
    exact hkept

def after (n : ℕ) : PositiveNumeral := ⟨⟨n + 1, 0⟩, Nat.cast_add_one_pos n⟩

/-- Two trades of one minute, the second by the exchange seen first, and one of the next. -/
def sampleTrades : List CapturedPublicTradeV1 :=
  [⟨⟨"a", 10000000, 1, after 99, after 0, .buy, 61000000000, "r1"⟩, "BTCUSDT", 1⟩,
    ⟨⟨"b", 20000000, 2, after 100, after 1, .sell, 21000000000, "r2"⟩, "BTCUSDT", 2⟩,
    ⟨⟨"c", 70000000, 3, after 101, after 0, .buy, 90000000000, "r3"⟩, "BTCUSDT", 3⟩]

theorem build_arrivedBy_sample : ∃ bars known,
    buildOneMinuteTradeBars ⟨fun _ => "m", fun _ => "c"⟩ bybitBtcusdtLinearPerpetualV1 "BTCUSDT"
      sampleTrades = .ok bars ∧
    buildOneMinuteTradeBars ⟨fun _ => "m", fun _ => "c"⟩ bybitBtcusdtLinearPerpetualV1 "BTCUSDT"
      (arrivedBy 61000000000 sampleTrades) = .ok known ∧
    ∀ bar ∈ bars, bar.barCompleteAvailableAtNanos ≤ 61000000000 → bar ∈ known := by
  obtain ⟨bars, hbars⟩ := Except.exists_of_isOk (x := buildOneMinuteTradeBars
    ⟨fun _ => "m", fun _ => "c"⟩ bybitBtcusdtLinearPerpetualV1 "BTCUSDT" sampleTrades)
    (by decide +kernel)
  obtain ⟨known, hknown, -, hcomplete, -⟩ := build_arrivedBy hbars 61000000000
  exact ⟨bars, known, hbars, hknown, hcomplete⟩

/-! ## A permutation of the trades -/

variable {trades' : List CapturedPublicTradeV1} {rows : List TradeRow}

theorem minutesOf_perm (hperm : trades'.Perm trades) : minutesOf trades' = minutesOf trades :=
  sortedSet_congr Function.injective_id fun _ => (hperm.map _).mem_iff

theorem bucketOf_perm (hperm : trades'.Perm trades) :
    (bucketOf trades' barOpenAt).Perm (bucketOf trades barOpenAt) :=
  (hperm.filter _).map _

theorem requireSymbol_perm (hperm : trades'.Perm trades) :
    requireSymbol symbol trades' = requireSymbol symbol trades := by
  have hall : (∀ trade ∈ trades', trade.symbol = symbol) ↔
      ∀ trade ∈ trades, trade.symbol = symbol := by
    constructor
    · intro h trade hmem
      exact h trade (hperm.mem_iff.mpr hmem)
    · intro h trade hmem
      exact h trade (hperm.mem_iff.mp hmem)
  simp only [requireSymbol, hall]

/-- One key, one row: two trades with one ordering key agree in all the manifest states. -/
def RowsTold (trades : List CapturedPublicTradeV1) : Prop :=
  ∀ a ∈ trades, ∀ b ∈ trades, a.orderingKey = b.orderingKey → a.toTradeRow = b.toTradeRow

theorem RowsTold.keyTells (h : RowsTold trades) :
    KeyTells TradeRow.orderingKey (bucketOf trades barOpenAt) := by
  intro row hrow row' hrow' hkey
  obtain ⟨a, ha, rfl⟩ := List.mem_map.mp hrow
  obtain ⟨b, hb, rfl⟩ := List.mem_map.mp hrow'
  exact h a (List.mem_of_mem_filter ha) b (List.mem_of_mem_filter hb) hkey

theorem RowsTold.build_perm (h : RowsTold trades) (hperm : trades'.Perm trades) :
    buildOneMinuteTradeBars hashes contract symbol trades' =
      buildOneMinuteTradeBars hashes contract symbol trades := by
  have hbar : ∀ barOpenAt, barOf hashes contract symbol barOpenAt (bucketOf trades' barOpenAt) =
      barOf hashes contract symbol barOpenAt (bucketOf trades barOpenAt) := by
    intro barOpenAt
    have hsorted := sortBy_congr h.keyTells (@bucketOf_perm _ barOpenAt _ hperm).symm
    simp only [barOf, hsorted]
  simp only [buildOneMinuteTradeBars, requireSymbol_perm hperm, minutesOf_perm hperm, hbar]

/-! ## What the bars tell of the trades -/

theorem barOf_manifest (h : barOf hashes contract symbol barOpenAt rows = .ok bar) :
    bar.tradeManifestHash =
      hashes.manifest ⟨symbol, barOpenAt, sortBy TradeRow.orderingKey rows⟩ := by
  obtain ⟨first, last, -, -, hbar⟩ := barOf_eq_ok h
  exact (barOfOrdered_eq_ok hbar).2.2.2.1

theorem exists_barOf (h : buildOneMinuteTradeBars hashes contract symbol trades = .ok bars)
    (hmem : barOpenAt ∈ minutesOf trades) : ∃ bar ∈ bars,
      barOf hashes contract symbol barOpenAt (bucketOf trades barOpenAt) = .ok bar := by
  obtain ⟨-, -, hbars⟩ := build_eq_ok.mp h
  obtain ⟨bar, hbar, hbuilt⟩ := Except.exists_of_mem_mapM hbars hmem
  exact ⟨bar, hbar, hbuilt⟩

theorem sorted_eq_of_build (hinj : Function.Injective hashes.manifest)
    (h : buildOneMinuteTradeBars hashes contract symbol trades = .ok bars)
    (h' : buildOneMinuteTradeBars hashes contract symbol trades' = .ok bars)
    (hmem : barOpenAt ∈ minutesOf trades) :
    sortBy TradeRow.orderingKey (bucketOf trades barOpenAt) =
      sortBy TradeRow.orderingKey (bucketOf trades' barOpenAt) := by
  have hminutes : minutesOf trades = minutesOf trades' := by
    rw [← bars_barOpenAt h, bars_barOpenAt h']
  obtain ⟨bar, hbar, hbuilt⟩ := exists_barOf h hmem
  obtain ⟨bar', hbar', hbuilt'⟩ := exists_barOf h' (hminutes ▸ hmem)
  -- there is one bar a minute
  have hnodup : (bars.map (·.barOpenAt)).Nodup := by
    rw [bars_barOpenAt h]
    exact (minutesOf_pairwise trades).imp fun hlt => hlt.ne
  have hopen : bar.barOpenAt = bar'.barOpenAt :=
    (barOf_barOpenAt hbuilt).trans (barOf_barOpenAt hbuilt').symm
  have hsame : bar = bar' := List.inj_on_of_nodup_map hnodup hbar hbar' hopen
  have hhash := barOf_manifest hbuilt
  rw [hsame, barOf_manifest hbuilt'] at hhash
  exact (congrArg TradeManifestV1.trades (hinj hhash)).symm

theorem filter_bucketOf_cons (a : CapturedPublicTradeV1) :
    ∃ rest, (bucketOf (a :: trades) (floorToMinute a.exchangeTimestamp)).filter
      (fun row => decide (row.orderingKey = a.orderingKey)) = a.toTradeRow :: rest := by
  have hbucket : bucketOf (a :: trades) (floorToMinute a.exchangeTimestamp) =
      a.toTradeRow :: bucketOf trades (floorToMinute a.exchangeTimestamp) := by
    simp [bucketOf]
  rw [hbucket, List.filter_cons, if_pos (decide_eq_true rfl)]
  exact ⟨_, rfl⟩

theorem floorToMinute_of_orderingKey {a b : CapturedPublicTradeV1}
    (h : a.orderingKey = b.orderingKey) :
    floorToMinute a.exchangeTimestamp = floorToMinute b.exchangeTimestamp := by
  have hpair := toLex.injective h
  exact congrArg floorToMinute (Prod.mk.inj hpair).1

/-- The bars are those of every order of the trades, if and only if the ordering key tells the
rows of the manifest apart. -/
theorem build_perm_iff (hinj : Function.Injective hashes.manifest)
    (h : buildOneMinuteTradeBars hashes contract symbol trades = .ok bars) :
    (∀ trades', trades'.Perm trades →
      buildOneMinuteTradeBars hashes contract symbol trades' = .ok bars) ↔ RowsTold trades := by
  constructor
  · intro hall a ha b hb hkey
    -- each of the two may come first
    have hbuilt := hall (a :: trades.erase a) (List.perm_cons_erase ha).symm
    have hbuilt' := hall (b :: trades.erase b) (List.perm_cons_erase hb).symm
    have hminute : floorToMinute a.exchangeTimestamp ∈ minutesOf (a :: trades.erase a) :=
      mem_minutesOf.mpr ⟨a, List.mem_cons_self, rfl⟩
    have hsorted := sorted_eq_of_build hinj hbuilt hbuilt' hminute
    have hrows := congrArg (List.filter fun row => decide (row.orderingKey = a.orderingKey)) hsorted
    rw [filter_sortBy_key, filter_sortBy_key] at hrows
    obtain ⟨rest, hrest⟩ := @filter_bucketOf_cons (trades.erase a) a
    obtain ⟨rest', hrest'⟩ := @filter_bucketOf_cons (trades.erase b) b
    rw [← floorToMinute_of_orderingKey hkey, ← hkey] at hrest'
    rw [hrest, hrest'] at hrows
    exact (List.cons.inj hrows).1
  · intro htold trades' hperm
    rw [htold.build_perm hperm]
    exact h

/-! ## Runs -/

deriving instance Encodable for Decimal.Numeral, Side, TradeRow, TradeManifestV1

def sampleHashes : Hashes := ⟨fun manifest => toString (Encodable.encode manifest), fun _ => "c"⟩

theorem sampleHashes_injective : Function.Injective sampleHashes.manifest :=
  fun _ _ h => Encodable.encode_injective (Nat.repr_injective h)

theorem build_perm_iff_sample : ∃ bars,
    buildOneMinuteTradeBars sampleHashes bybitBtcusdtLinearPerpetualV1 "BTCUSDT" sampleTrades =
      .ok bars ∧
    ((∀ trades', trades'.Perm sampleTrades →
      buildOneMinuteTradeBars sampleHashes bybitBtcusdtLinearPerpetualV1 "BTCUSDT" trades' =
        .ok bars) ↔ RowsTold sampleTrades) := by
  obtain ⟨bars, hbars⟩ := Except.exists_of_isOk (x := buildOneMinuteTradeBars sampleHashes
    bybitBtcusdtLinearPerpetualV1 "BTCUSDT" sampleTrades) (by decide +kernel)
  exact ⟨bars, hbars, build_perm_iff sampleHashes_injective hbars⟩

def redelivered (localTimestampNanos : ℤ) (recordContentHash : String) (recordId : UUID) :
    CapturedPublicTradeV1 :=
  ⟨⟨"a", 10000000, 1, after 99, after 0, .buy, localTimestampNanos, recordContentHash⟩,
    "BTCUSDT", recordId⟩

/-- A trade that was captured twice: the open of the bar is available when the copy that is
given first arrived. -/
theorem order_moves_the_open : ∃ bars,
    buildOneMinuteTradeBars sampleHashes bybitBtcusdtLinearPerpetualV1 "BTCUSDT"
      [redelivered 11000000000 "r1" 1, redelivered 12000000000 "r2" 2] = .ok bars ∧
    [redelivered 12000000000 "r2" 2, redelivered 11000000000 "r1" 1].Perm
      [redelivered 11000000000 "r1" 1, redelivered 12000000000 "r2" 2] ∧
    buildOneMinuteTradeBars sampleHashes bybitBtcusdtLinearPerpetualV1 "BTCUSDT"
      [redelivered 12000000000 "r2" 2, redelivered 11000000000 "r1" 1] ≠ .ok bars := by
  obtain ⟨bars, hbars⟩ := Except.exists_of_isOk (x := buildOneMinuteTradeBars sampleHashes
    bybitBtcusdtLinearPerpetualV1 "BTCUSDT"
    [redelivered 11000000000 "r1" 1, redelivered 12000000000 "r2" 2]) (by decide +kernel)
  refine ⟨bars, hbars, List.Perm.swap _ _ _, fun hsame => ?_⟩
  have hopens : (buildOneMinuteTradeBars sampleHashes bybitBtcusdtLinearPerpetualV1 "BTCUSDT"
      [redelivered 11000000000 "r1" 1, redelivered 12000000000 "r2" 2]).toOption.map
        (List.map fun bar => bar.openAvailableAtNanos) ≠
      (buildOneMinuteTradeBars sampleHashes bybitBtcusdtLinearPerpetualV1 "BTCUSDT"
      [redelivered 12000000000 "r2" 2, redelivered 11000000000 "r1" 1]).toOption.map
        (List.map fun bar => bar.openAvailableAtNanos) := by decide +kernel
  exact hopens (by rw [hbars, hsame])

end BybitTradeBars

end TradePlatform
