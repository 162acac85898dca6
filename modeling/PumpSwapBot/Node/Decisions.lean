import PumpSwapBot.Library.StableSort
import PumpSwapBot.Rust.Runs
import PumpSwapBot.Rust.Stream
import PumpSwapBot.Node.Runs
import Mathlib.Data.List.FinRange

/-!
# The decisions of the two bots

The Rust and the Node bot read the records of a mint with code of their own. Where the records are the same, as far
as both can read them, they decide alike.

## The model

The records of a mint are numbered as they stand in the list, from the front. Each bot has a text for each number,
which it reads as a record of its own kind; the two records of a number have the same price and the same time
(`Mirrored`). The texts need not be the same, since the two bots name the fields of a record differently.

## What is proved

`decide_alike` — `getRecentTrades` returns the records of the same numbers in the same order, whatever the limit;
`checkPriceIncrease` returns the same answer; and `checkSellCondition` calls for a sell in both bots or in neither.
-/

namespace PumpSwapBot.Node

open PumpSwapBot.Library

/-- Both bots have a list of the same records of a mint. -/
structure Mirrored (st : Rust.Setting) (st' : Setting) (r : Rust.ReadReplies) (r' : ReadReplies) (mint : String)
    {n : ℕ} (rust : Fin n → Rust.TokenTradeRecord) (node : Fin n → TokenTradeRecord) : Prop where
  connect : r.connect = .ok ()
  rustList : ∃ texts : Fin n → String,
    (∀ stop, r.lrange (Rust.tradesKey mint) 0 stop = .ok (KeyValue.range (List.ofFn texts) 0 stop)) ∧
    ∀ i, Rust.TokenTradeRecord.decode st.env.profile st.serde r.now (texts i) = .ok (rust i)
  nodeList : ∃ texts : Fin n → String,
    (∀ stop, r'.lrange (tradesKey mint) 0 stop = .ok (KeyValue.range (List.ofFn texts) 0 stop)) ∧
    ∀ i, st'.parse (texts i) = some (node i)
  price : ∀ i, (rust i).price = (node i).price
  time : ∀ i, ((rust i).blocktimeUs : ℚ) = (node i).blocktimeUs

/-- Both bots have the same thresholds. -/
structure SameThresholds (config : Rust.BotConfig) (config' : BotConfig) : Prop where
  buyRecordCount : config.buyRecordCount.toNat = config'.buyRecordCount
  bound : config'.buyRecordCount < 2 ^ 53
  buyThresholdPct : config.buyThresholdPct = config'.buyThresholdPct
  sellProfitPct : config.sellProfitPct = config'.sellProfitPct
  sellStopLossPct : config.sellStopLossPct = config'.sellStopLossPct

section Reading

variable {st : Rust.Setting} {st' : Setting} {r : Rust.ReadReplies} {r' : ReadReplies} {mint : String} {n : ℕ}
  {rust : Fin n → Rust.TokenTradeRecord} {node : Fin n → TokenTradeRecord} {limit : UInt64}

/-- The numbers of the records that are read with a limit, those of the newest first. -/
def chosen (rust : Fin n → Rust.TokenTradeRecord) (limit : ℕ) : List (Fin n) :=
  sortDown (fun i => (rust i).blocktimeUs) (KeyValue.range (List.finRange n) 0 ((limit : ℤ) - 1))

theorem nodup_chosen (rust : Fin n → Rust.TokenTradeRecord) (limit : ℕ) : (chosen rust limit).Nodup := by
  have hperm : (chosen rust limit).Perm (KeyValue.range (List.finRange n) 0 ((limit : ℤ) - 1)) :=
    List.perm_insertionSort _ _
  rw [hperm.nodup_iff, KeyValue.range_zero_eq]
  exact (List.nodup_finRange n).sublist (List.take_sublist _ _)

theorem range_ofFn {α : Type} (f : Fin n → α) (stop : ℤ) :
    KeyValue.range (List.ofFn f) 0 stop = (KeyValue.range (List.finRange n) 0 stop).map f := by
  rw [KeyValue.range_zero_eq, KeyValue.range_zero_eq, List.ofFn_eq_map, List.map_take, List.length_map]

/-- Below 2^53 an index is the same in both bots. -/
theorem lastIndex_of_lt (p : Sdk.Profile) (h : limit.toNat < 2 ^ 53) :
    Rust.lastIndex p limit = .ok ((limit.toNat : ℤ) - 1) := by
  have hsize : Rust.asIsize limit = limit.toNat := by
    rw [Rust.asIsize, if_pos (by omega)]
  simp only [Rust.lastIndex]
  rw [hsize, if_neg (by omega)]

theorem decodeAll_map {p : Sdk.Profile} {serde : Rust.SerdeJson} {now : ℤ} {texts : Fin n → String}
    (h : ∀ i, Rust.TokenTradeRecord.decode p serde now (texts i) = .ok (rust i)) (l : List (Fin n)) :
    Rust.decodeAll p serde now (l.map texts) = .ok (l.map rust) := by
  induction l with
  | nil => rfl
  | cons i l ih =>
    rw [List.map_cons, Rust.decodeAll, h i, ih]
    rfl

theorem Mirrored.rust_getRecentTrades (h : Mirrored st st' r r' mint rust node) (hlimit : limit.toNat < 2 ^ 53) :
    Rust.getRecentTrades st.env.profile st.serde r mint limit = .ok ((chosen rust limit.toNat).map rust) := by
  obtain ⟨texts, hrange, hdecode⟩ := h.rustList
  simp only [Rust.getRecentTrades]
  rw [h.connect, lastIndex_of_lt _ hlimit]
  have hread : r.lrange (Rust.tradesKey mint) 0 ((limit.toNat : ℤ) - 1) =
      .ok ((KeyValue.range (List.finRange n) 0 ((limit.toNat : ℤ) - 1)).map texts) := by
    rw [hrange, range_ofFn]
  simp only [Sdk.ok_bind, Sdk.context_ok, Sdk.orFail, hread, decodeAll_map hdecode]
  exact congrArg Except.ok (map_sortDown rust (fun _ => rfl) _).symm

theorem Mirrored.node_getRecentTrades (h : Mirrored st st' r r' mint rust node) (limit : ℕ) :
    getRecentTrades st'.parse r' mint limit = .ok ((chosen rust limit).map node) := by
  obtain ⟨texts, hrange, hparse⟩ := h.nodeList
  have hrecords : ∀ l : List (Fin n), (l.map texts).filterMap st'.parse = l.map node := by
    intro l
    induction l with
    | nil => rfl
    | cons i l ih => rw [List.map_cons, List.filterMap_cons_some (hparse i), ih, List.map_cons]
  simp only [getRecentTrades]
  rw [hrange, range_ofFn]
  show Except.ok (sortByBlocktime (List.filterMap _ _)) = _
  rw [hrecords]
  refine congrArg Except.ok (List.map_insertionSort _ _ node _ fun i _ j _ => ?_).symm
  -- The difference that the Node bot compares with zero is that of the times the Rust bot compares.
  rw [sub_nonpos, ← h.time i, ← h.time j, Int.cast_le]

/-! What the strategies make of the records. -/

/-- The change from the last to the first of some prices. -/
def changeOf (prices : List ℚ) : Option ℚ :=
  match prices.head?, prices.getLast? with
  | some newest, some oldest =>
    if prices.length < 2 ∨ oldest = 0 then none else some ((newest - oldest) / oldest * 100)
  | _, _ => none

theorem rust_priceChange_eq (trades : List Rust.TokenTradeRecord) :
    Rust.priceChange trades = changeOf (trades.map Rust.TokenTradeRecord.price) := by
  simp only [Rust.priceChange, changeOf]
  rw [List.head?_map, List.getLast?_map, List.length_map]
  rcases trades.head? with _ | newest
  · rfl
  rcases trades.getLast? with _ | oldest <;> rfl

theorem node_calculatePriceChangeFromRecords_eq {trades : List TokenTradeRecord} {count : ℕ}
    (h : getRecentTrades st'.parse r' mint count = .ok trades) :
    calculatePriceChangeFromRecords (.exact 53) st'.parse r' mint count =
      .ok (changeOf (trades.map TokenTradeRecord.price)) := by
  simp only [calculatePriceChangeFromRecords, changeOf]
  rw [h, List.head?_map, List.getLast?_map, List.length_map]
  show (if trades.length < 2 then _ else _) = _
  by_cases hfew : trades.length < 2
  · rw [if_pos hfew]
    rcases trades.head? with _ | newest <;> rcases trades.getLast? with _ | oldest <;> simp [hfew, pure, Except.pure]
  · rw [if_neg hfew]
    rcases trades.head? with _ | newest <;> rcases trades.getLast? with _ | oldest
    · rfl
    · rfl
    · rfl
    · by_cases hzero : oldest.price = 0 <;> simp [hfew, hzero, pure, Except.pure]

theorem Mirrored.prices_eq (h : Mirrored st st' r r' mint rust node) (order : List (Fin n)) :
    (order.map rust).map Rust.TokenTradeRecord.price = (order.map node).map TokenTradeRecord.price := by
  rw [List.map_map, List.map_map]
  exact List.map_congr_left fun i _ => h.price i

theorem Mirrored.checkPriceIncrease (h : Mirrored st st' r r' mint rust node)
    (hconfig : SameThresholds st.config st'.config) (hnumber : st'.number = .exact 53)
    (hredis : st.redisAvailable = st'.redisAvailable) :
    ∃ answer, st.checkPriceIncrease r mint = .ok answer ∧ st'.checkPriceIncrease r' mint = .ok answer := by
  simp only [Rust.Setting.checkPriceIncrease, Setting.checkPriceIncrease]
  rw [hredis, hnumber]
  by_cases havailable : st'.redisAvailable = true
  swap
  · rw [if_neg havailable, if_neg havailable]
    exact ⟨false, rfl, rfl⟩
  have hcount : st.config.buyRecordCount.toNat < 2 ^ 53 := hconfig.buyRecordCount ▸ hconfig.bound
  have hnode := h.node_getRecentTrades st.config.buyRecordCount.toNat
  rw [if_pos havailable, if_pos havailable, Rust.calculatePriceChangeFromRecords_eq, h.rust_getRecentTrades hcount,
    ← hconfig.buyRecordCount, node_calculatePriceChangeFromRecords_eq hnode, ← h.prices_eq, ← hconfig.buyThresholdPct]
  refine ⟨_, rfl, ?_⟩
  rw [rust_priceChange_eq]
  rfl

theorem Mirrored.getLatestTradePrice (h : Mirrored st st' r r' mint rust node)
    (hredis : st.redisAvailable = st'.redisAvailable) :
    ∃ price, st.getLatestTradePrice r mint = .ok price ∧ st'.getLatestTradePrice r' mint = .ok price := by
  simp only [Rust.Setting.getLatestTradePrice, Setting.getLatestTradePrice]
  rw [hredis]
  by_cases havailable : st'.redisAvailable = true
  swap
  · rw [if_neg havailable, if_neg havailable]
    exact ⟨none, rfl, rfl⟩
  have hone : (1 : UInt64).toNat = 1 := rfl
  rw [if_pos havailable, if_pos havailable, Rust.getLatestPriceFromTrades, getLatestPriceFromTrades,
    h.rust_getRecentTrades (by decide), h.node_getRecentTrades 1, hone]
  refine ⟨_, rfl, ?_⟩
  show Except.ok _ = Except.ok _
  rw [← List.head?_map, ← h.prices_eq, List.head?_map]
  rfl

end Reading

/-! ### Selling -/

section Selling

variable {st : Rust.Setting} {st' : Setting} {r : Rust.Replies} {r' : Replies} {mint : String}

/-- A check of the Rust bot ends in a sell exactly if the price calls for one. -/
theorem rust_sells_iff {b : Rust.Bot} {position : Rust.TokenPosition} (hheld : b.positions mint = some position) :
    (∃ report, ((st.checkSellCondition r mint).run b).2.trace =
        .sell mint position.tradeInfo report :: .sellCheck mint :: b.trace) ↔ st.SellSignal r mint position := by
  have hvisit : Rust.Visit st r mint b ((st.checkSellCondition r mint).run b).1
    ((st.checkSellCondition r mint).run b).2 := Rust.checkSellCondition_cases hheld
  generalize ((st.checkSellCondition r mint).run b).1 = result at hvisit
  generalize ((st.checkSellCondition r mint).run b).2 = after at hvisit ⊢
  have hsame : ∀ p, b.positions mint = some p → p = position := by
    intro p hp
    exact Option.some.inj (hp.symm.trans hheld)
  cases hvisit with
  | passed _ hfree _ =>
    rw [hheld] at hfree
    cases hfree
  | bought _ _ hfree _ _ _ =>
    rw [hheld] at hfree
    cases hfree
  | buyFailed _ _ _ hfree _ _ _ =>
    rw [hheld] at hfree
    cases hfree
  | kept p _ hp hno =>
    cases hsame p hp
    refine iff_of_false ?_ hno
    rintro ⟨report, htrace⟩
    have hlength := congrArg List.length htrace
    simp at hlength
  | sold p hp hsignal _ =>
    cases hsame p hp
    exact iff_of_true ⟨_, rfl⟩ hsignal
  | sellFailed p _ hp hsignal _ =>
    cases hsame p hp
    exact iff_of_true ⟨_, rfl⟩ hsignal

/-- The thresholds lead to the same decision in both bots. -/
theorem shouldSell_eq {config : Rust.BotConfig} {config' : BotConfig} (h : SameThresholds config config')
    (buyPrice price : ℚ) : Rust.shouldSell config (Rust.profitPct buyPrice price) =
      shouldSell config' (profitPct (.exact 53) buyPrice price) := by
  show Rust.shouldSell config (profitPct (.exact 53) buyPrice price) = _
  generalize profitPct (.exact 53) buyPrice price = profit
  simp only [Rust.shouldSell, shouldSell]
  rw [h.sellProfitPct, h.sellStopLossPct]
  by_cases hprofit : profit ≥ config'.sellProfitPct <;> by_cases hloss : profit ≤ -config'.sellStopLossPct <;>
    simp [hprofit, hloss]

end Selling

/-- **The two bots decide alike.** Of the same records of a mint, and with the same thresholds, both read the same
ones in the same order for every limit below 2^53; both answer alike whether the price has risen enough to buy; and
for a position with the same buy price, both call for a sell or neither does, once the Node bot has taken note of the
price in its file, which it does first. Numbers are exact in both. -/
theorem decide_alike {st : Rust.Setting} {st' : Setting} {r : Rust.Replies} {r' : Replies} {mint : String} {n : ℕ}
    {rust : Fin n → Rust.TokenTradeRecord} {node : Fin n → TokenTradeRecord} {b : Rust.Bot} {b' : Bot}
    {position : Rust.TokenPosition} (hredis : st.redisAvailable = st'.redisAvailable)
    (hnumber : st'.number = .exact 53) (hconfig : SameThresholds st.config st'.config) (hprice : Mirrored st st' r.price r'.price mint rust node)
    (hchange : Mirrored st st' r.change r'.change mint rust node) (hheld : b.positions mint = some position)
    (hheld' : b'.holds mint = true) (hbuyPrice : position.buyPrice = b'.buyPrice mint) :
    (∀ limit : UInt64, limit.toNat < 2 ^ 53 → ∃ order : List (Fin n), order.Nodup ∧
      Rust.getRecentTrades st.env.profile st.serde r.change mint limit = .ok (order.map rust) ∧
      getRecentTrades st'.parse r'.change mint limit.toNat = .ok (order.map node)) ∧
    (∃ answer, st.checkPriceIncrease r.change mint = .ok answer ∧
      st'.checkPriceIncrease r'.change mint = .ok answer) ∧
    (r'.noting.active = .done →
      ((∃ report, ((st.checkSellCondition r mint).run b).2.trace =
          .sell mint position.tradeInfo report :: .sellCheck mint :: b.trace) ↔
        ∃ events, ((st'.checkSellCondition r' mint).run b').2.trace = events ++ .sellSignal mint :: b'.trace)) := by
  refine ⟨fun limit hlimit => ?_, hchange.checkPriceIncrease hconfig hnumber hredis, fun hnoting => ?_⟩
  · exact ⟨chosen rust limit.toNat, nodup_chosen rust limit.toNat, hchange.rust_getRecentTrades hlimit,
      hchange.node_getRecentTrades limit.toNat⟩
  · rw [rust_sells_iff hheld, checkSellCondition_signals_iff hheld' hnoting]
    obtain ⟨price, hrust, hnode⟩ := hprice.getLatestTradePrice hredis
    simp only [Rust.Setting.SellSignal, Setting.SellSignal]
    rw [hrust, hnode, hbuyPrice, hnumber]
    simp only [shouldSell_eq hconfig, Except.ok.injEq]

/-! ### The sample's records in both bots -/

/-- A server that has the sample's records for every mint. -/
def sampleRustReads : Rust.ReadReplies where
  connect := .ok ()
  lrange _ start stop := .ok (KeyValue.range (Rust.sampleTexts.map Prod.fst) start stop)
  keys _ := .ok [Rust.tradesKey Rust.sampleText]
  now := 0

/-- The sample's answers to the Rust bot, with that server. -/
def sampleRustReplies : Rust.Replies :=
  { Rust.sampleReplies [Rust.sampleText] 1000000000 with price := sampleRustReads, change := sampleRustReads }

/-- The Rust bot's record of each number. -/
def sampleRustRecord (i : Fin 2) : Rust.TokenTradeRecord := (Rust.sampleTexts.get i).2

/-- The Node bot's. -/
def sampleNodeRecord (i : Fin 2) : TokenTradeRecord := ((sampleTexts (.exact 53)).get i).2

/-- A Node bot that holds what the Rust bot of the sample holds. -/
def sampleNodeHolder : Bot where
  trader := .fromConfig sampleExact.config
  positions := Function.update (fun _ => none) Rust.sampleText (some {
    mint := Rust.sampleText
    buyPrice := (Rust.sampleSetting.opened Rust.sampleText Rust.sampleInfo).buyPrice
    buySolAmount := sampleExact.config.buyAmountLamports
    tradeInfo := convertPoolToTradeInfo default ⟨default, default, default, default, default, false, false⟩ 0 0 })
  tradeInfoCache := fun _ => none
  tradeRecorder := .new .empty
  trace := []
  checks := []

theorem decode_sample {text : String} {record : Rust.TokenTradeRecord}
    (h : Rust.sampleTexts.lookup text = some record) (hmicros : 1000000000000 ≤ record.blocktimeUs)
    (hrange : record.blocktimeUs < 2 ^ 63) (now : ℤ) :
    Rust.TokenTradeRecord.decode .release Rust.sampleSerde now text = .ok record := by
  have hparse : Rust.sampleSerde.parse text = some record.toJson := by
    simp only [Rust.sampleSerde, h, Option.map_some]
  simp only [Rust.TokenTradeRecord.decode, Rust.deserializeBlocktime, Rust.blocktimeOfInt]
  rw [hparse, Option.bind_some, Rust.recordOfFields_toJson]
  dsimp only
  rw [if_pos hrange, if_neg (not_lt.mpr hmicros)]
  rfl

theorem mirrored_sample : Mirrored Rust.sampleSetting sampleExact sampleRustReads sampleReads Rust.sampleText
    sampleRustRecord sampleNodeRecord where
  connect := rfl
  rustList := by
    refine ⟨fun i => (Rust.sampleTexts.get i).1, fun stop => rfl, fun i => ?_⟩
    have hrecord : Rust.sampleTexts.lookup (Rust.sampleTexts.get i).1 = some (sampleRustRecord i) ∧
        1000000000000 ≤ (sampleRustRecord i).blocktimeUs ∧ (sampleRustRecord i).blocktimeUs < 2 ^ 63 := by
      revert i
      decide +kernel
    exact decode_sample hrecord.1 hrecord.2.1 hrecord.2.2 0
  nodeList := by
    refine ⟨fun i => ((sampleTexts (.exact 53)).get i).1, fun stop => rfl, ?_⟩
    decide +kernel
  price := by decide +kernel
  time := by decide +kernel

theorem sameThresholds_sample : SameThresholds Rust.sampleSetting.config sampleExact.config :=
  ⟨rfl, by decide, rfl, rfl, rfl⟩

/-- Of the sample's records both bots read the same ones first; the price has risen enough to buy for both or for
neither, and both sell what they hold or keep it. -/
theorem decide_alike_sample :
    (∃ order : List (Fin 2), order.Nodup ∧
      Rust.getRecentTrades .release Rust.sampleSerde sampleRustReads Rust.sampleText 10 =
        .ok (order.map sampleRustRecord) ∧
      getRecentTrades sampleExact.parse sampleReads Rust.sampleText 10 = .ok (order.map sampleNodeRecord)) ∧
    (∃ answer, Rust.sampleSetting.checkPriceIncrease sampleRustReads Rust.sampleText = .ok answer ∧
      sampleExact.checkPriceIncrease sampleReads Rust.sampleText = .ok answer) ∧
    ((∃ report, ((Rust.sampleSetting.checkSellCondition sampleRustReplies Rust.sampleText).run
        Rust.sampleHolder).2.trace = [.sell Rust.sampleText Rust.sampleInfo report, .sellCheck Rust.sampleText]) ↔
      ∃ events, ((sampleExact.checkSellCondition sampleReplies Rust.sampleText).run sampleNodeHolder).2.trace =
        events ++ [.sellSignal Rust.sampleText]) := by
  have hheld : Rust.sampleHolder.positions Rust.sampleText =
      some (Rust.sampleSetting.opened Rust.sampleText Rust.sampleInfo) := by
    simp only [Rust.sampleHolder, Function.update_self]
  have hheld' : sampleNodeHolder.holds Rust.sampleText = true := by decide +kernel
  have hbuyPrice : (Rust.sampleSetting.opened Rust.sampleText Rust.sampleInfo).buyPrice =
      sampleNodeHolder.buyPrice Rust.sampleText := by decide +kernel
  have hprice : Mirrored Rust.sampleSetting sampleExact sampleRustReplies.price sampleReplies.price
      Rust.sampleText sampleRustRecord sampleNodeRecord := mirrored_sample
  have hchange : Mirrored Rust.sampleSetting sampleExact sampleRustReplies.change sampleReplies.change
      Rust.sampleText sampleRustRecord sampleNodeRecord := mirrored_sample
  have hnoting : sampleReplies.noting.active = .done := rfl
  obtain ⟨hread, hanswer, hsell⟩ :=
    decide_alike rfl rfl sameThresholds_sample hprice hchange hheld hheld' hbuyPrice
  exact ⟨hread 10 (by decide), hanswer, hsell hnoting⟩

end PumpSwapBot.Node
