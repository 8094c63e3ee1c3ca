import TraderStack.Models
import TraderStack.Lib.AbiWord
import TraderStack.Lib.Dict
import TraderStack.Lib.Text

/-!
# Swap logs

The Robinhood Chain feed decodes the `Swap` logs of allowlisted Uniswap pools. A log's
data is untrusted: the signed words are checked against their widths, the square-root
price and the liquidity are taken as they come.

- `swapWords_eq_ok_iff`: what the five words must be for the data to decode;
- `parseSwapLog_eq_some_iff`: the logs that yield an event, and which event;
- `parseSwapLog_decodes_iff`: **decoding accepts exactly the ABI encodings** when the price
  word is below `2 ^ 160` and the liquidity word below `2 ^ 128`.
-/

namespace TraderStack

open Lib Lib.Abi Lib.Text

/-! ## keccak-256 -/

namespace Keccak

/-- `_ROUND_CONSTANTS` (lines 40–65). -/
def roundConstants : List ℕ :=
  [0x0000000000000001, 0x0000000000008082, 0x800000000000808A, 0x8000000080008000,
   0x000000000000808B, 0x0000000080000001, 0x8000000080008081, 0x8000000000008009,
   0x000000000000008A, 0x0000000000000088, 0x0000000080008009, 0x000000008000000A,
   0x000000008000808B, 0x800000000000008B, 0x8000000000008089, 0x8000000000008003,
   0x8000000000008002, 0x8000000000000080, 0x000000000000800A, 0x800000008000000A,
   0x8000000080008081, 0x8000000000008080, 0x0000000080000001, 0x8000000080008008]

/-- `_ROTATIONS` (lines 66–72). -/
def rotations : List (List ℕ) :=
  [[0, 36, 3, 41, 18], [1, 44, 10, 45, 2], [62, 6, 43, 15, 61], [28, 55, 25, 21, 56],
   [27, 20, 39, 8, 14]]

/-- `_MASK` (line 73). -/
def mask : ℕ := 2 ^ 64 - 1

/-- `_rotl` (lines 76–78). -/
def rotl (value shift : ℕ) : ℕ :=
  let shift := shift % 64
  if shift = 0 then value else (value <<< shift ||| value >>> (64 - shift)) &&& mask

/-- `state[i]`. -/
def lane (state : List ℕ) (i : ℕ) : ℕ := state.getD i 0

/-- One turn of the loop in `_keccak_f` (lines 83–100). -/
def turn (state : List ℕ) (rc : ℕ) : List ℕ :=
  let c := (List.range 5).map fun x =>
    lane state x ^^^ lane state (x + 5) ^^^ lane state (x + 10) ^^^ lane state (x + 15) ^^^
      lane state (x + 20)
  let d := (List.range 5).map fun x => lane c ((x + 4) % 5) ^^^ rotl (lane c ((x + 1) % 5)) 1
  let state := (List.range 25).map fun i => lane state i ^^^ lane d (i % 5)
  -- lane `y + 5 * ((2 * x + 3 * y) % 5)` comes from `x`, `y`: this solves for `x`
  let b := (List.range 25).map fun i =>
    let y := i % 5
    let x := (3 * (i / 5) + y) % 5
    rotl (lane state (x + 5 * y)) (lane (rotations.getD x []) y)
  -- `~b[...]` meets a lane, so only the low 64 bits of the complement matter
  let state := (List.range 25).map fun i =>
    lane b i ^^^
      ((mask - lane b ((i % 5 + 1) % 5 + 5 * (i / 5))) &&& lane b ((i % 5 + 2) % 5 + 5 * (i / 5)))
  state.set 0 (lane state 0 ^^^ rc)

/-- `_keccak_f` (lines 81–100). -/
def keccakF (state : List ℕ) : List ℕ := roundConstants.foldl turn state

/-- The message with its padding (lines 104–109). -/
def padded (data : List UInt8) : List UInt8 :=
  let padded := data ++ [0x01]
  let padded := padded ++ List.replicate ((136 - padded.length % 136) % 136) 0
  padded.dropLast ++ [padded.getLastD 0 ||| 0x80]

/-- One block is mixed into the state (lines 112–115). -/
def absorb (state : List ℕ) (block : List UInt8) : List ℕ :=
  keccakF ((List.range 25).map fun i =>
    if i < 17 then lane state i ^^^ ofBytes ((block.drop (i * 8)).take 8).reverse
    else lane state i)

/-- `keccak256` (lines 103–116). -/
def keccak256 (data : List UInt8) : List UInt8 :=
  let bytes := padded data
  let blocks := (List.range (bytes.length / 136)).map fun k => (bytes.drop (k * 136)).take 136
  let state := blocks.foldl absorb (List.replicate 25 0)
  (state.take 4).flatMap fun lane => (toBytes 8 lane).reverse

end Keccak

/-! ## Hexadecimal text -/

namespace SwapFeed

/-- A hexadecimal digit of either case. -/
def hexDigit (c : Char) : Option ℕ :=
  if c.isDigit then some (c.toNat - '0'.toNat)
  else if 'a' ≤ c ∧ c ≤ 'f' then some (c.toNat - 'a'.toNat + 10)
  else if 'A' ≤ c ∧ c ≤ 'F' then some (c.toNat - 'A'.toNat + 10)
  else none

/-- The digit of a number below 16, in lower case. -/
def hexChar (n : ℕ) : Char := Char.ofNat (if n < 10 then '0'.toNat + n else 'a'.toNat + n - 10)

/-- `bytes.hex()`, on the characters. -/
def hex (bytes : List UInt8) : List Char :=
  bytes.flatMap fun b => [hexChar (b.toNat / 16), hexChar (b.toNat % 16)]

/-- `bytes.fromhex`: two digits a byte, with white space between bytes skipped. -/
def fromHex : List Char → Option (List UInt8)
  | [] => some []
  | [c] => if c.isWhitespace then some [] else none
  | c :: d :: rest =>
    if c.isWhitespace then fromHex (d :: rest)
    else
      match hexDigit c, hexDigit d with
      | some high, some low => (fromHex rest).map (UInt8.ofNat (16 * high + low) :: ·)
      | _, _ => none

/-- The digits of `int(text, 16)`, single underscores between digits allowed (`prev`: the
character before was a digit). -/
def hexDigits : ℕ → Bool → List Char → Option ℕ
  | acc, prev, [] => if prev then some acc else none
  | acc, prev, c :: rest =>
    if c = '_' then (if prev then hexDigits acc false rest else none)
    else
      match hexDigit c with
      | some d => hexDigits (16 * acc + d) true rest
      | none => none

/-- An unsigned number in base 16, with or without its prefix. -/
def hexNumber : List Char → Option ℕ
  | '0' :: 'x' :: '_' :: rest | '0' :: 'X' :: '_' :: rest => hexDigits 0 false rest
  | '0' :: 'x' :: rest | '0' :: 'X' :: rest => hexDigits 0 false rest
  | text => hexDigits 0 false text

/-- `int(text, 16)`. -/
def hexInt (text : String) : Option ℤ :=
  let (neg, body) := sign (strip text.toList)
  (hexNumber body).map fun n => if neg then -(n : ℤ) else n

/-- `event_topic` (lines 119–120). -/
def eventTopic (signature : String) : String :=
  String.ofList ('0' :: 'x' :: hex (Keccak.keccak256 signature.toUTF8.data.toList))

/-- `UNISWAP_V3_SWAP_TOPIC` (line 123). -/
def uniswapV3SwapTopic : String :=
  eventTopic "Swap(address,address,int256,int256,uint160,uint128,int24)"

/-- `UNISWAP_V4_SWAP_TOPIC` (lines 124–126). -/
def uniswapV4SwapTopic : String :=
  eventTopic "Swap(bytes32,address,int128,int128,uint160,uint128,int24,uint24)"

theorem v4_topic_ne_v3_topic : uniswapV4SwapTopic ≠ uniswapV3SwapTopic := by
  intro h
  have hlist := congrArg String.toList h
  simp only [uniswapV4SwapTopic, uniswapV3SwapTopic, eventTopic, String.toList_ofList] at hlist
  revert hlist
  decide +kernel

example : (Keccak.keccak256 []).take 4 = [0xc5, 0xd2, 0x46, 0x01] := by decide +kernel

end SwapFeed

/-! ## Pools, logs and events -/

/-- `PoolConfig.version`. -/
inductive PoolVersion where
  | v3
  | v4
deriving DecidableEq

/-- One allowlisted pool (lines 131–154), without the fee that the decoding does not read. -/
structure PoolConfig where
  symbol : String
  version : PoolVersion
  pool : String
  token0Decimals : ℕ
  token1Decimals : ℕ
  baseIsToken0 : Bool
  token0Decimals_le : token0Decimals ≤ 36
  token1Decimals_le : token1Decimals ≤ 36
  pool_lower : pool = lower pool
  pool_prefixed : ['0', 'x'].isPrefixOf pool.toList

/-- A log as the endpoint sends it: whether `removed` is set, the topics if they are a list, and
the texts of the other members; the data can be missing. -/
structure SwapLog where
  removed : Bool
  topics : Option (List String)
  address : String
  data : Option String
  blockNumber : String
  transactionHash : String
  logIndex : String
deriving DecidableEq

/-- `SwapEvent` (lines 157–174), with the validators as fields. -/
@[ext]
structure SwapEvent where
  symbol : String
  pool : String
  version : PoolVersion
  blockNumber : ℤ
  transactionHash : String
  logIndex : ℤ
  observedAt : Time
  amount0 : ℤ
  amount1 : ℤ
  sqrtPriceX96 : ℤ
  liquidity : ℤ
  tick : ℤ
  price : ℚ
  baseAmount : ℚ
  quoteAmount : ℚ
  side : Side
  blockNumber_nonneg : 0 ≤ blockNumber
  logIndex_nonneg : 0 ≤ logIndex
  sqrtPriceX96_pos : 0 < sqrtPriceX96
  liquidity_nonneg : 0 ≤ liquidity
  price_pos : 0 < price
  baseAmount_nonneg : 0 ≤ baseAmount
  quoteAmount_nonneg : 0 ≤ quoteAmount

/-- Events compare field by field. -/
instance : DecidableEq SwapEvent := fun _ _ => decidable_of_iff' _ SwapEvent.ext_iff

/-- The five decoded values of an event. -/
def SwapEvent.values (event : SwapEvent) : List ℤ :=
  [event.amount0, event.amount1, event.sqrtPriceX96, event.liquidity, event.tick]

/-- What decoding a log can raise. -/
inductive SwapLogError where
  /-- `OnChainFeedError` with its message -/
  | feed (message : String)
  /-- the log has no such member -/
  | missing (key : String)
  /-- `ValueError` of a text that is no hexadecimal number -/
  | value (text : String)
  /-- a field of the event that fails its validation -/
  | invalid (field : String)
deriving DecidableEq

namespace SwapFeed

/-! ## Decoding -/

/-- `_word` (lines 179–183). -/
def word (data : List UInt8) (index : ℕ) : Except SwapLogError (List UInt8) :=
  if data.length < index * 32 + 32 then .error (.feed "swap log data is truncated")
  else .ok (wordAt data index)

/-- `_uint` (lines 186–187). -/
def uint (data : List UInt8) (index : ℕ) : Except SwapLogError ℤ := do
  let word ← word data index
  return ofBytes word

/-- `_int` (lines 190–197): `signed` takes `2 ^ 256` off from `2 ^ 255` on. -/
def int (data : List UInt8) (index bits : ℕ) : Except SwapLogError ℤ := do
  let word ← word data index
  let value := signed (ofBytes word)
  if -2 ^ (bits - 1) ≤ value ∧ value < 2 ^ (bits - 1) then return value
  else throw (.feed ("int" ++ toString bits ++ " out of range in swap log"))

/-- `_hex_bytes` (lines 200–201). -/
def hexBytes (text : String) : Except SwapLogError (List UInt8) :=
  let digits := match text.toList with
    | '0' :: 'x' :: rest => rest
    | digits => digits
  match fromHex digits with
  | some bytes => .ok bytes
  | none => .error (.value text)

/-- `int(text, 16)`, raising what it raises. -/
def hexIntOf (text : String) : Except SwapLogError ℤ :=
  match hexInt text with
  | some n => .ok n
  | none => .error (.value text)

/-- `pool_price` (lines 204–212), in exact arithmetic. -/
def poolPrice (pool : PoolConfig) (sqrtPriceX96 : ℤ) : Except SwapLogError ℚ :=
  let ratio := ((sqrtPriceX96 : ℚ) / 2 ^ 96) ^ 2
  let token1PerToken0 := ratio * 10 ^ ((pool.token0Decimals : ℤ) - pool.token1Decimals)
  if pool.baseIsToken0 then .ok token1PerToken0
  else if token1PerToken0 ≤ 0 then .error (.feed "pool price is zero")
  else .ok (1 / token1PerToken0)

/-- The decoded words. -/
structure SwapWords where
  amount0 : ℤ
  amount1 : ℤ
  sqrtPrice : ℤ
  liquidity : ℤ
  tick : ℤ
deriving DecidableEq

/-- The words of the data with amounts of so many bits (lines 233–237 and 255–259). -/
def swapWords (data : List UInt8) (bits : ℕ) : Except SwapLogError SwapWords := do
  let amount0 ← int data 0 bits
  let amount1 ← int data 1 bits
  let sqrtPrice ← uint data 2
  let liquidity ← uint data 3
  let tick ← int data 4 24
  return { amount0, amount1, sqrtPrice, liquidity, tick }

theorem amount_nonneg (raw : ℤ) (decimals : ℕ) : (0 : ℚ) ≤ |(raw : ℚ)| / 10 ^ decimals := by
  positivity

/-- The event of decoded words (lines 263–289); `none` where the price is not positive. -/
def swapEvent (log : SwapLog) (pool : PoolConfig) (now : Time) (words : SwapWords) :
    Except SwapLogError (Option SwapEvent) := do
  if words.sqrtPrice ≤ 0 then return none
  let baseRaw := if pool.baseIsToken0 then words.amount0 else words.amount1
  let quoteRaw := if pool.baseIsToken0 then words.amount1 else words.amount0
  let baseDecimals := if pool.baseIsToken0 then pool.token0Decimals else pool.token1Decimals
  let quoteDecimals := if pool.baseIsToken0 then pool.token1Decimals else pool.token0Decimals
  let blockNumber ← hexIntOf log.blockNumber
  let logIndex ← hexIntOf log.logIndex
  let price ← poolPrice pool words.sqrtPrice
  if hblock : 0 ≤ blockNumber then
    if hindex : 0 ≤ logIndex then
      if hsqrt : 0 < words.sqrtPrice then
        if hliquidity : 0 ≤ words.liquidity then
          if hprice : 0 < price then
            return some {
              symbol := pool.symbol
              pool := pool.pool
              version := pool.version
              blockNumber := blockNumber
              transactionHash := log.transactionHash
              logIndex := logIndex
              observedAt := now
              amount0 := words.amount0
              amount1 := words.amount1
              sqrtPriceX96 := words.sqrtPrice
              liquidity := words.liquidity
              tick := words.tick
              price := price
              baseAmount := |(baseRaw : ℚ)| / 10 ^ baseDecimals
              quoteAmount := |(quoteRaw : ℚ)| / 10 ^ quoteDecimals
              side := if baseRaw < 0 then .buy else .sell
              blockNumber_nonneg := hblock
              logIndex_nonneg := hindex
              sqrtPriceX96_pos := hsqrt
              liquidity_nonneg := hliquidity
              price_pos := hprice
              baseAmount_nonneg := amount_nonneg _ _
              quoteAmount_nonneg := amount_nonneg _ _ }
          else throw (.invalid "price")
        else throw (.invalid "liquidity")
      else throw (.invalid "sqrt_price_x96")
    else throw (.invalid "log_index")
  else throw (.invalid "block_number")

/-- `log["data"]` as bytes. -/
def dataOf (log : SwapLog) : Except SwapLogError (List UInt8) :=
  match log.data with
  | none => .error (.missing "data")
  | some text => hexBytes text

/-- `parse_swap_log` (lines 215–289). -/
def parseSwapLog (log : SwapLog) (pools : Dict String PoolConfig) (v4PoolManager : Option String)
    (now : Time) : Except SwapLogError (Option SwapEvent) :=
  if log.removed then .ok none
  else
    match log.topics with
    | none | some [] => .ok none
    | some (topic :: topics) =>
      let topic0 := lower topic
      let address := lower log.address
      if topic0 = uniswapV3SwapTopic then
        match pools.get? address with
        | none => .ok none
        | some pool =>
          if pool.version ≠ .v3 then .ok none
          else do
            let data ← dataOf log
            let words ← swapWords data 256
            swapEvent log pool now words
      else if topic0 = uniswapV4SwapTopic then
        match topics, v4PoolManager with
        | [], _ | _, none => .ok none
        | topic1 :: _, some manager =>
          if address ≠ lower manager then .ok none
          else
            match pools.get? (lower topic1) with
            | none => .ok none
            | some pool =>
              if pool.version ≠ .v4 then .ok none
              else do
                let data ← dataOf log
                let words ← swapWords data 128
                swapEvent log pool now words
      else .ok none

/-! ## What the data must be -/

variable {data : List UInt8} {log : SwapLog} {pool : PoolConfig} {words : SwapWords} {now : Time}

theorem word_eq_ok_iff {index : ℕ} {w : List UInt8} :
    word data index = .ok w ↔ 32 * index + 32 ≤ data.length ∧ w = wordAt data index := by
  rw [word]
  split <;> rename_i h
  · simp
    omega
  · have hlen : 32 * index + 32 ≤ data.length := by omega
    simp [hlen, eq_comm]

theorem uint_eq_ok_iff {index : ℕ} {v : ℤ} :
    uint data index = .ok v ↔
      32 * index + 32 ≤ data.length ∧ v = ofBytes (wordAt data index) := by
  cases hword : word data index with
  | error e =>
    have hlen : ¬32 * index + 32 ≤ data.length := fun h => by
      rw [word_eq_ok_iff.mpr ⟨h, rfl⟩] at hword
      cases hword
    simp [uint, hword, bind, Except.bind, hlen]
  | ok w =>
    obtain ⟨hlen, rfl⟩ := word_eq_ok_iff.mp hword
    simp [uint, hword, bind, Except.bind, pure, Except.pure, hlen, eq_comm]

/-- **A signed word is accepted** exactly when it is the encoding of what is returned. -/
theorem int_eq_ok_iff {index bits : ℕ} (hbits : bits ≤ 256) {v : ℤ} :
    int data index bits = .ok v ↔
      32 * index + 32 ≤ data.length ∧ IsEncoding (.int bits) v (wordAt data index) := by
  cases hword : word data index with
  | error e =>
    have hlen : ¬32 * index + 32 ≤ data.length := fun h => by
      rw [word_eq_ok_iff.mpr ⟨h, rfl⟩] at hword
      cases hword
    simp [int, hword, bind, Except.bind, hlen]
  | ok w =>
    obtain ⟨hlen, rfl⟩ := word_eq_ok_iff.mp hword
    rw [isEncoding_int_iff hbits (length_wordAt hlen)]
    simp only [int, hword, bind, Except.bind, hlen, true_and]
    split <;> rename_i h
    · constructor
      · rintro hv
        cases hv
        exact ⟨rfl, h⟩
      · rintro ⟨rfl, -⟩
        rfl
    · constructor
      · intro hv
        cases hv
      · rintro ⟨rfl, hv⟩
        exact absurd hv h

/-- **The words that decode**: the signed ones are encodings, the unsigned ones are anything. -/
theorem swapWords_eq_ok_iff {bits : ℕ} (hbits : bits ≤ 256) :
    swapWords data bits = .ok words ↔
      160 ≤ data.length ∧
      IsEncoding (.int bits) words.amount0 (wordAt data 0) ∧
      IsEncoding (.int bits) words.amount1 (wordAt data 1) ∧
      words.sqrtPrice = ofBytes (wordAt data 2) ∧
      words.liquidity = ofBytes (wordAt data 3) ∧
      IsEncoding (.int 24) words.tick (wordAt data 4) := by
  constructor
  · intro h
    cases h0 : int data 0 bits with
    | error e => simp [swapWords, h0, bind, Except.bind] at h
    | ok amount0 =>
    cases h1 : int data 1 bits with
    | error e => simp [swapWords, h0, h1, bind, Except.bind] at h
    | ok amount1 =>
    cases h2 : uint data 2 with
    | error e => simp [swapWords, h0, h1, h2, bind, Except.bind] at h
    | ok sqrtPrice =>
    cases h3 : uint data 3 with
    | error e => simp [swapWords, h0, h1, h2, h3, bind, Except.bind] at h
    | ok liquidity =>
    cases h4 : int data 4 24 with
    | error e => simp [swapWords, h0, h1, h2, h3, h4, bind, Except.bind] at h
    | ok tick =>
    simp only [swapWords, h0, h1, h2, h3, h4, bind, Except.bind] at h
    cases h
    have htick := (int_eq_ok_iff (by omega)).mp h4
    exact ⟨by omega, ((int_eq_ok_iff hbits).mp h0).2, ((int_eq_ok_iff hbits).mp h1).2,
      (uint_eq_ok_iff.mp h2).2, (uint_eq_ok_iff.mp h3).2, htick.2⟩
  · rintro ⟨hlen, h0, h1, h2, h3, h4⟩
    have e0 : int data 0 bits = .ok words.amount0 := (int_eq_ok_iff hbits).mpr ⟨by omega, h0⟩
    have e1 : int data 1 bits = .ok words.amount1 := (int_eq_ok_iff hbits).mpr ⟨by omega, h1⟩
    have e2 : uint data 2 = .ok words.sqrtPrice := uint_eq_ok_iff.mpr ⟨by omega, h2⟩
    have e3 : uint data 3 = .ok words.liquidity := uint_eq_ok_iff.mpr ⟨by omega, h3⟩
    have e4 : int data 4 24 = .ok words.tick := (int_eq_ok_iff (by omega)).mpr ⟨by omega, h4⟩
    simp only [swapWords, e0, e1, e2, e3, e4, bind, Except.bind]
    rfl

/-! ## Which event -/

/-- A price that is positive has a positive pool price. -/
theorem poolPrice_pos {sqrtPrice : ℤ} (h : 0 < sqrtPrice) (pool : PoolConfig) :
    ∃ price, poolPrice pool sqrtPrice = .ok price ∧ 0 < price := by
  have hsqrt : (0 : ℚ) < sqrtPrice := by exact_mod_cast h
  have hraw : 0 < ((sqrtPrice : ℚ) / 2 ^ 96) ^ 2 *
      10 ^ ((pool.token0Decimals : ℤ) - pool.token1Decimals) :=
    mul_pos (by positivity) (zpow_pos (by norm_num) _)
  rw [poolPrice]
  split
  · exact ⟨_, rfl, hraw⟩
  · rw [if_neg (not_le.mpr hraw)]
    exact ⟨_, rfl, one_div_pos.mpr hraw⟩

theorem hexIntOf_eq_ok_iff {text : String} {n : ℤ} :
    hexIntOf text = .ok n ↔ hexInt text = some n := by
  rw [hexIntOf]
  cases hexInt text <;> simp

/-- The log's block number and index read as numbers that are not negative. -/
def Numbered (log : SwapLog) : Prop :=
  (∃ n, hexInt log.blockNumber = some n ∧ 0 ≤ n) ∧ ∃ n, hexInt log.logIndex = some n ∧ 0 ≤ n

/-- An event holds the decoded words, from a log that is numbered. -/
theorem values_of_swapEvent {event : SwapEvent}
    (h : swapEvent log pool now words = .ok (some event)) :
    Numbered log ∧ event.version = pool.version ∧
      event.values =
        [words.amount0, words.amount1, words.sqrtPrice, words.liquidity, words.tick] := by
  rw [swapEvent] at h
  by_cases hs : words.sqrtPrice ≤ 0
  · simp [hs, pure, Except.pure] at h
  cases hb : hexIntOf log.blockNumber with
  | error e => simp [hs, hb, bind, Except.bind] at h
  | ok blockNumber =>
  cases hi : hexIntOf log.logIndex with
  | error e => simp [hs, hb, hi, bind, Except.bind] at h
  | ok logIndex =>
  cases hp : poolPrice pool words.sqrtPrice with
  | error e => simp [hs, hb, hi, hp, bind, Except.bind] at h
  | ok price =>
  simp only [hs, if_false, hb, hi, hp, bind, Except.bind] at h
  split_ifs at h with hblock hindex hsqrt hliquidity hprice
  all_goals cases h
  all_goals
    exact ⟨⟨⟨_, hexIntOf_eq_ok_iff.mp hb, hblock⟩, _, hexIntOf_eq_ok_iff.mp hi, hindex⟩, rfl, rfl⟩

/-- Words with a positive price and a liquidity give an event on a numbered log. -/
theorem exists_swapEvent (hlog : Numbered log) (hs : 0 < words.sqrtPrice)
    (hl : 0 ≤ words.liquidity) (pool : PoolConfig) (now : Time) :
    ∃ event, swapEvent log pool now words = .ok (some event) := by
  obtain ⟨⟨blockNumber, hb, hblock⟩, logIndex, hi, hindex⟩ := hlog
  obtain ⟨price, hp, hprice⟩ := poolPrice_pos hs pool
  rw [swapEvent]
  simp only [not_le.mpr hs, if_false, hexIntOf_eq_ok_iff.mpr hb, hexIntOf_eq_ok_iff.mpr hi, hp,
    bind, Except.bind, hblock, hindex, hs, hl, hprice, dite_true]
  exact ⟨_, rfl⟩

/-! ## Which logs -/

/-- **The log selects a pool**: it is not removed, it is a swap, and its address (for v3) or its
pool id from the pool manager (for v4) is an allowlisted pool of that version. -/
inductive Selects (log : SwapLog) (pools : Dict String PoolConfig) (manager : Option String) :
    PoolConfig → Prop
  | v3 {topic topics pool} (removed : log.removed = false)
      (topics_eq : log.topics = some (topic :: topics)) (topic0 : lower topic = uniswapV3SwapTopic)
      (listed : pools.get? (lower log.address) = some pool) (version : pool.version = .v3) :
      Selects log pools manager pool
  | v4 {topic topic1 topics address pool} (removed : log.removed = false)
      (topics_eq : log.topics = some (topic :: topic1 :: topics))
      (topic0 : lower topic = uniswapV4SwapTopic)
      (manager_eq : manager = some address) (emitter : lower log.address = lower address)
      (listed : pools.get? (lower topic1) = some pool) (version : pool.version = .v4) :
      Selects log pools manager pool

/-- The width of a version's amounts. -/
def amountBits : PoolVersion → ℕ
  | .v3 => 256
  | .v4 => 128

/-- The types of a version's first five words. -/
def layout (version : PoolVersion) : List WordType :=
  [.int (amountBits version), .int (amountBits version), .uint 160, .uint 128, .int 24]

theorem amountBits_le (version : PoolVersion) : amountBits version ≤ 256 := by
  cases version <;> decide

variable {pools : Dict String PoolConfig} {manager : Option String}

/-- A log that selects a pool is decoded with the pool's version. -/
theorem parseSwapLog_of_selects (h : Selects log pools manager pool) (now : Time) :
    parseSwapLog log pools manager now = (do
      let data ← dataOf log
      let words ← swapWords data (amountBits pool.version)
      swapEvent log pool now words) := by
  cases h with
  | v3 removed topics_eq topic0 listed version =>
    simp [parseSwapLog, removed, topics_eq, topic0, listed, version, amountBits]
  | v4 removed topics_eq topic0 manager_eq emitter listed version =>
    simp [parseSwapLog, removed, topics_eq, topic0, v4_topic_ne_v3_topic, manager_eq, emitter,
      listed, version, amountBits]

/-- Only a log that selects a pool yields an event. -/
theorem selects_of_parse {event : SwapEvent}
    (h : parseSwapLog log pools manager now = .ok (some event)) :
    ∃ pool, Selects log pools manager pool := by
  rw [parseSwapLog] at h
  cases hremoved : log.removed with
  | true => simp [hremoved] at h
  | false =>
  rcases htopics : log.topics with _ | _ | ⟨topic, topics⟩
  · simp [hremoved, htopics] at h
  · simp [hremoved, htopics] at h
  simp only [hremoved, htopics, Bool.false_eq_true, if_false] at h
  split_ifs at h with h3 h4
  · -- the v3 branch
    cases hpool : pools.get? (lower log.address) with
    | none => simp [hpool] at h
    | some pool =>
      by_cases hversion : pool.version = .v3
      · exact ⟨pool, .v3 hremoved htopics h3 hpool hversion⟩
      · simp [hpool, hversion] at h
  · -- the v4 branch
    rcases topics with _ | ⟨topic1, topics⟩
    · simp at h
    rcases manager with _ | address
    · simp at h
    by_cases haddress : lower log.address = lower address
    · cases hpool : pools.get? (lower topic1) with
      | none => simp [hpool] at h
      | some pool =>
        by_cases hversion : pool.version = .v4
        · exact ⟨pool, .v4 hremoved htopics h4 rfl haddress hpool hversion⟩
        · simp [haddress, hpool, hversion] at h
    · simp [haddress] at h
  · cases h

/-- **The log delivers data for a pool**: it selects the pool, its data reads as these bytes and
it is numbered. -/
structure Delivers (log : SwapLog) (pools : Dict String PoolConfig) (manager : Option String)
    (pool : PoolConfig) (data : List UInt8) : Prop where
  selects : Selects log pools manager pool
  data_eq : dataOf log = .ok data
  numbered : Numbered log

/-- **The logs that yield an event**: those that deliver data with signed words in range and a
positive price. -/
theorem parseSwapLog_eq_some {event : SwapEvent}
    (h : parseSwapLog log pools manager now = .ok (some event)) :
    ∃ pool data words, Delivers log pools manager pool data ∧ event.version = pool.version ∧
      swapWords data (amountBits pool.version) = .ok words ∧
      event.values =
        [words.amount0, words.amount1, words.sqrtPrice, words.liquidity, words.tick] := by
  obtain ⟨pool, hselects⟩ := selects_of_parse h
  rw [parseSwapLog_of_selects hselects] at h
  cases hdata : dataOf log with
  | error e => simp [hdata, bind, Except.bind] at h
  | ok data =>
  cases hwords : swapWords data (amountBits pool.version) with
  | error e => simp [hdata, hwords, bind, Except.bind] at h
  | ok words =>
  simp only [hdata, hwords, bind, Except.bind] at h
  obtain ⟨hnumbered, hversion, hvalues⟩ := values_of_swapEvent h
  exact ⟨pool, data, words, ⟨hselects, hdata, hnumbered⟩, hversion, hwords, hvalues⟩

/-- Delivered words with a positive price are an event with these values. -/
theorem exists_event_of_delivers (h : Delivers log pools manager pool data)
    (hwords : swapWords data (amountBits pool.version) = .ok words) (hs : 0 < words.sqrtPrice)
    (now : Time) :
    ∃ event, parseSwapLog log pools manager now = .ok (some event) ∧
      event.version = pool.version ∧
      event.values =
        [words.amount0, words.amount1, words.sqrtPrice, words.liquidity, words.tick] := by
  obtain ⟨-, -, -, -, hliquidity, -⟩ := (swapWords_eq_ok_iff (amountBits_le _)).mp hwords
  have hl : 0 ≤ words.liquidity := by
    rw [hliquidity]
    exact Int.natCast_nonneg _
  obtain ⟨event, hevent⟩ := exists_swapEvent h.numbered hs hl pool now
  obtain ⟨-, hversion, hvalues⟩ := values_of_swapEvent hevent
  refine ⟨event, ?_, hversion, hvalues⟩
  rw [parseSwapLog_of_selects h.selects, h.data_eq]
  simp only [bind, Except.bind, hwords]
  exact hevent

/-! ## The words of an event are an encoding -/

/-- The encoding of an event's five values, word by word. -/
theorem encodesTuple_layout_iff {version : PoolVersion}
    {amount0 amount1 sqrtPrice liquidity tick : ℤ} :
    EncodesTuple (layout version) [amount0, amount1, sqrtPrice, liquidity, tick] data ↔
      160 ≤ data.length ∧
      IsEncoding (.int (amountBits version)) amount0 (wordAt data 0) ∧
      IsEncoding (.int (amountBits version)) amount1 (wordAt data 1) ∧
      IsEncoding (.uint 160) sqrtPrice (wordAt data 2) ∧
      IsEncoding (.uint 128) liquidity (wordAt data 3) ∧
      IsEncoding (.int 24) tick (wordAt data 4) := by
  rw [encodesTuple_iff]
  constructor
  · rintro ⟨-, hlen, h⟩
    exact ⟨hlen, h 0 _ _ rfl rfl, h 1 _ _ rfl rfl, h 2 _ _ rfl rfl, h 3 _ _ rfl rfl,
      h 4 _ _ rfl rfl⟩
  · rintro ⟨hlen, h0, h1, h2, h3, h4⟩
    refine ⟨rfl, hlen, fun index t v ht hv => ?_⟩
    match index with
    | 0 => cases ht; cases hv; exact h0
    | 1 => cases ht; cases hv; exact h1
    | 2 => cases ht; cases hv; exact h2
    | 3 => cases ht; cases hv; exact h3
    | 4 => cases ht; cases hv; exact h4
    | n + 5 => simp at hv

/-- The words are the encoding of what they decode to, when the unsigned ones are in range. -/
theorem encodesTuple_of_swapWords_iff {version : PoolVersion}
    (h : swapWords data (amountBits version) = .ok words) :
    EncodesTuple (layout version)
        [words.amount0, words.amount1, words.sqrtPrice, words.liquidity, words.tick] data ↔
      ofBytes (wordAt data 2) < 2 ^ 160 ∧ ofBytes (wordAt data 3) < 2 ^ 128 := by
  obtain ⟨hlen, h0, h1, h2, h3, h4⟩ := (swapWords_eq_ok_iff (amountBits_le version)).mp h
  have hword2 : (wordAt data 2).length = 32 := length_wordAt (by omega)
  have hword3 : (wordAt data 3).length = 32 := length_wordAt (by omega)
  rw [encodesTuple_layout_iff, isEncoding_uint_iff (by omega) hword2,
    isEncoding_uint_iff (by omega) hword3]
  constructor
  · rintro ⟨-, -, -, ⟨-, hsqrt⟩, ⟨-, hliquidity⟩, -⟩
    rw [h2] at hsqrt
    rw [h3] at hliquidity
    exact ⟨by exact_mod_cast hsqrt, by exact_mod_cast hliquidity⟩
  · rintro ⟨hsqrt, hliquidity⟩
    refine ⟨hlen, h0, h1, ⟨h2, ?_⟩, ⟨h3, ?_⟩, h4⟩
    · rw [h2]
      exact_mod_cast hsqrt
    · rw [h3]
      exact_mod_cast hliquidity

/-- The encoding of a tuple decodes to it. -/
theorem swapWords_of_encodesTuple {version : PoolVersion}
    {amount0 amount1 sqrtPrice liquidity tick : ℤ}
    (h : EncodesTuple (layout version) [amount0, amount1, sqrtPrice, liquidity, tick] data) :
    swapWords data (amountBits version) =
      .ok { amount0, amount1, sqrtPrice, liquidity, tick } := by
  obtain ⟨hlen, h0, h1, h2, h3, h4⟩ := encodesTuple_layout_iff.mp h
  have hword2 : (wordAt data 2).length = 32 := length_wordAt (by omega)
  have hword3 : (wordAt data 3).length = 32 := length_wordAt (by omega)
  have hsqrt := ((isEncoding_uint_iff (by omega) hword2).mp h2).1
  have hliquidity := ((isEncoding_uint_iff (by omega) hword3).mp h3).1
  exact (swapWords_eq_ok_iff (amountBits_le version)).mpr ⟨hlen, h0, h1, hsqrt, hliquidity, h4⟩

/-! ## Every tuple has a log text -/

theorem toLower_hexChar (n : ℕ) (h : n < 16) : (hexChar n).toLower = hexChar n := by
  have hall : ∀ m : Fin 16, (hexChar m).toLower = hexChar m := by decide
  exact hall ⟨n, h⟩

/-- A topic is in lower case already. -/
theorem lower_eventTopic (signature : String) :
    lower (eventTopic signature) = eventTopic signature := by
  have hhex : ∀ bytes : List UInt8, (hex bytes).map Char.toLower = hex bytes := by
    intro bytes
    induction bytes with
    | nil => rfl
    | cons b bytes ih =>
      have hb : b.toNat < 256 := b.toNat_lt
      rw [hex, List.flatMap_cons, ← hex, List.map_append, ih, List.map_cons, List.map_cons,
        List.map_nil, toLower_hexChar _ (by omega), toLower_hexChar _ (by omega)]
  have hprefix : ('0' :: 'x' :: hex (Keccak.keccak256 signature.toUTF8.data.toList)).map
      Char.toLower = '0' :: 'x' :: hex (Keccak.keccak256 signature.toUTF8.data.toList) := by
    rw [List.map_cons, List.map_cons, hhex]
    rfl
  rw [eventTopic, lower, String.toList_ofList, hprefix]

theorem hexDigit_hexChar (n : ℕ) (h : n < 16) : hexDigit (hexChar n) = some n := by
  have hall : ∀ m : Fin 16, hexDigit (hexChar m) = some m.val := by decide
  exact hall ⟨n, h⟩

theorem isWhitespace_hexChar (n : ℕ) (h : n < 16) : (hexChar n).isWhitespace = false := by
  have hall : ∀ m : Fin 16, (hexChar m).isWhitespace = false := by decide
  exact hall ⟨n, h⟩

/-- `bytes.fromhex` reads what `bytes.hex` writes. -/
theorem fromHex_hex (bytes : List UInt8) : fromHex (hex bytes) = some bytes := by
  induction bytes with
  | nil => rfl
  | cons b bytes ih =>
    have hb : b.toNat < 256 := b.toNat_lt
    have hback : 16 * (b.toNat / 16) + b.toNat % 16 = b.toNat := by omega
    rw [hex, List.flatMap_cons, ← hex]
    simp only [List.cons_append, List.nil_append, fromHex]
    rw [isWhitespace_hexChar _ (by omega), hexDigit_hexChar _ (by omega),
      hexDigit_hexChar _ (by omega)]
    simp [ih, hback]

/-- The text of bytes as a log carries it. -/
def dataText (bytes : List UInt8) : String := String.ofList ('0' :: 'x' :: hex bytes)

theorem dataOf_dataText {bytes : List UInt8} (h : log.data = some (dataText bytes)) :
    dataOf log = .ok bytes := by
  simp [dataOf, h, hexBytes, dataText, fromHex_hex]

/-- **Every tuple of in-range values with a positive price decodes to itself**, from its own
text, whatever follows it. -/
theorem parseSwapLog_encodeTuple {amount0 amount1 sqrtPrice liquidity tick : ℤ}
    (hselects : Selects log pools manager pool) (hnumbered : Numbered log)
    (hholds : List.Forall₂ WordType.Holds (layout pool.version)
      [amount0, amount1, sqrtPrice, liquidity, tick])
    (hs : 0 < sqrtPrice) (rest : List UInt8) (now : Time)
    (hdata : log.data =
      some (dataText (encodeTuple [amount0, amount1, sqrtPrice, liquidity, tick] ++ rest))) :
    ∃ event, parseSwapLog log pools manager now = .ok (some event) ∧
      event.values = [amount0, amount1, sqrtPrice, liquidity, tick] := by
  have hencodes : EncodesTuple (layout pool.version)
      [amount0, amount1, sqrtPrice, liquidity, tick]
      (encodeTuple [amount0, amount1, sqrtPrice, liquidity, tick] ++ rest) := by
    refine ⟨hholds, ?_⟩
    rw [← length_encodeTuple, List.take_left]
  obtain ⟨event, hevent, -, hvalues⟩ := exists_event_of_delivers
    ⟨hselects, dataOf_dataText hdata, hnumbered⟩ (swapWords_of_encodesTuple hencodes) hs now
  exact ⟨event, hevent, hvalues⟩

end SwapFeed

open SwapFeed

/-! ## Decoding accepts exactly the encodings -/

/-- **Decoding is exact on a log**: an event comes only from data whose first five words are
the encoding of the event's values, and delivered data that encodes values with a positive price
yields an event with these values. -/
structure DecodesExactly (log : SwapLog) (pools : Dict String PoolConfig)
    (manager : Option String) (now : Time) : Prop where
  sound : ∀ event, parseSwapLog log pools manager now = .ok (some event) →
    ∃ pool data, Delivers log pools manager pool data ∧ event.version = pool.version ∧
      EncodesTuple (layout pool.version) event.values data
  complete : ∀ pool data amount0 amount1 sqrtPrice liquidity tick,
    Delivers log pools manager pool data →
    EncodesTuple (layout pool.version) [amount0, amount1, sqrtPrice, liquidity, tick] data →
    0 < sqrtPrice →
    ∃ event, parseSwapLog log pools manager now = .ok (some event) ∧
      event.values = [amount0, amount1, sqrtPrice, liquidity, tick]

/-- The signed words are there and within their widths. -/
def SignedWordsFit (bits : ℕ) (data : List UInt8) : Prop :=
  160 ≤ data.length ∧
  (WordType.int bits).Holds (signed (ofBytes (wordAt data 0))) ∧
  (WordType.int bits).Holds (signed (ofBytes (wordAt data 1))) ∧
  (WordType.int 24).Holds (signed (ofBytes (wordAt data 4)))

/-- **The unsigned words fit**: where the signed words do and the price is positive, the price
word is below `2 ^ 160` and the liquidity word below `2 ^ 128`. -/
def UnsignedWordsFit (log : SwapLog) (pools : Dict String PoolConfig)
    (manager : Option String) : Prop :=
  ∀ pool data, Delivers log pools manager pool data →
    SignedWordsFit (amountBits pool.version) data → 0 < ofBytes (wordAt data 2) →
    ofBytes (wordAt data 2) < 2 ^ 160 ∧ ofBytes (wordAt data 3) < 2 ^ 128

section

variable {log : SwapLog} {pools : Dict String PoolConfig} {manager : Option String}
  {pool : PoolConfig} {data : List UInt8}

/-- Signed words in range decode, whatever the unsigned ones are. -/
theorem exists_swapWords {bits : ℕ} (hbits : bits ≤ 256) (h : SignedWordsFit bits data) :
    ∃ words, swapWords data bits = .ok words ∧ words.sqrtPrice = ofBytes (wordAt data 2) := by
  obtain ⟨hlen, h0, h1, h4⟩ := h
  have hword : ∀ index < 5, (wordAt data index).length = 32 := fun index hindex =>
    length_wordAt (by omega)
  refine ⟨{ amount0 := signed (ofBytes (wordAt data 0))
            amount1 := signed (ofBytes (wordAt data 1))
            sqrtPrice := ofBytes (wordAt data 2)
            liquidity := ofBytes (wordAt data 3)
            tick := signed (ofBytes (wordAt data 4)) },
    (swapWords_eq_ok_iff hbits).mpr ⟨hlen, ?_, ?_, rfl, rfl, ?_⟩, rfl⟩
  · exact (isEncoding_int_iff hbits (hword 0 (by omega))).mpr ⟨rfl, h0⟩
  · exact (isEncoding_int_iff hbits (hword 1 (by omega))).mpr ⟨rfl, h1⟩
  · exact (isEncoding_int_iff (by omega) (hword 4 (by omega))).mpr ⟨rfl, h4⟩

theorem signedWordsFit_of_swapWords {bits : ℕ} {words : SwapWords} (hbits : bits ≤ 256)
    (h : swapWords data bits = .ok words) : SignedWordsFit bits data := by
  obtain ⟨hlen, h0, h1, -, -, h4⟩ := (swapWords_eq_ok_iff hbits).mp h
  have hword : ∀ index < 5, (wordAt data index).length = 32 := fun index hindex =>
    length_wordAt (by omega)
  obtain ⟨e0, f0⟩ := (isEncoding_int_iff hbits (hword 0 (by omega))).mp h0
  obtain ⟨e1, f1⟩ := (isEncoding_int_iff hbits (hword 1 (by omega))).mp h1
  obtain ⟨e4, f4⟩ := (isEncoding_int_iff (by omega) (hword 4 (by omega))).mp h4
  refine ⟨hlen, ?_, ?_, ?_⟩
  · rw [← e0]
    exact f0
  · rw [← e1]
    exact f1
  · rw [← e4]
    exact f4

/-- **Swap-log decoding accepts exactly the ABI encoding** on the logs whose unsigned words fit,
and on no others: a wider price or liquidity word is taken as it stands. -/
theorem parseSwapLog_decodes_iff (log : SwapLog) (pools : Dict String PoolConfig)
    (manager : Option String) (now : Time) :
    DecodesExactly log pools manager now ↔ UnsignedWordsFit log pools manager := by
  constructor
  · intro h pool data hdelivers hsigned hpos
    obtain ⟨words, hwords, hsqrt⟩ := exists_swapWords (amountBits_le _) hsigned
    have hs : 0 < words.sqrtPrice := by
      rw [hsqrt]
      exact_mod_cast hpos
    obtain ⟨event, hevent, hversion, hvalues⟩ := exists_event_of_delivers hdelivers hwords hs now
    obtain ⟨pool', data', hdelivers', hversion', hencodes⟩ := h.sound event hevent
    -- the event tells the version, and the log has one text
    have hdata : data' = data := by
      have heq := hdelivers'.data_eq.symm.trans hdelivers.data_eq
      cases heq
      rfl
    rw [hdata, ← hversion', hversion, hvalues] at hencodes
    exact (encodesTuple_of_swapWords_iff hwords).mp hencodes
  · intro h
    constructor
    · intro event hevent
      obtain ⟨pool, data, words, hdelivers, hversion, hwords, hvalues⟩ :=
        parseSwapLog_eq_some hevent
      obtain ⟨-, -, -, hsqrt, -, -⟩ := (swapWords_eq_ok_iff (amountBits_le _)).mp hwords
      have hpos : 0 < ofBytes (wordAt data 2) := by
        have hs := event.sqrtPriceX96_pos
        have heq : event.sqrtPriceX96 = words.sqrtPrice := by
          simp only [SwapEvent.values, List.cons.injEq] at hvalues
          exact hvalues.2.2.1
        rw [heq, hsqrt] at hs
        exact_mod_cast hs
      have hfit := h pool data hdelivers (signedWordsFit_of_swapWords (amountBits_le _) hwords) hpos
      refine ⟨pool, data, hdelivers, hversion, ?_⟩
      rw [hvalues]
      exact (encodesTuple_of_swapWords_iff hwords).mpr hfit
    · intro pool data amount0 amount1 sqrtPrice liquidity tick hdelivers hencodes hs
      obtain ⟨event, hevent, -, hvalues⟩ := exists_event_of_delivers hdelivers
        (swapWords_of_encodesTuple hencodes) hs now
      exact ⟨event, hevent, hvalues⟩

end

/-! ### A price of 161 bits -/

namespace Overwide

/-- The address `0x1111…`, on the characters. -/
def addressChars : List Char := '0' :: 'x' :: List.replicate 40 '1'

def address : String := String.ofList addressChars

theorem address_lower : address = lower address := by
  have hchars : addressChars.map Char.toLower = addressChars := by
    rw [addressChars, List.map_cons, List.map_cons, List.map_replicate]
    rfl
  rw [lower, address, String.toList_ofList, hchars]

theorem address_prefixed : ['0', 'x'].isPrefixOf address.toList := by
  rw [address, String.toList_ofList]
  rfl

theorem decimals_le : 18 ≤ 36 ∧ 6 ≤ 36 := by decide

/-- A v3 pool of ETH and USDG. -/
def pool : PoolConfig where
  symbol := "ETH/USDG"
  version := .v3
  pool := address
  token0Decimals := 18
  token1Decimals := 6
  baseIsToken0 := true
  token0Decimals_le := decimals_le.1
  token1Decimals_le := decimals_le.2
  pool_lower := address_lower
  pool_prefixed := address_prefixed

/-- The allowlist. -/
def pools : Dict String PoolConfig := Dict.empty.set address pool

/-- The words of the swap: the price word is `2 ^ 160`. -/
def data : List UInt8 := encodeTuple [-10 ^ 18, 3000 * 10 ^ 6, 2 ^ 160, 10 ^ 20, -12345]

/-- A swap with these words. -/
def log : SwapLog where
  removed := false
  topics := some [uniswapV3SwapTopic]
  address := address
  data := some (dataText data)
  blockNumber := "0x10"
  transactionHash := "0xabc"
  logIndex := "0x2"

theorem selects : Selects log pools none pool := by
  have htopic : lower uniswapV3SwapTopic = uniswapV3SwapTopic := by
    rw [uniswapV3SwapTopic, lower_eventTopic]
  have hlisted : pools.get? (lower address) = some pool := by
    rw [← address_lower]
    exact Dict.get?_set_self _ _ _
  exact .v3 rfl rfl htopic hlisted rfl

theorem delivers : Delivers log pools none pool data where
  selects := selects
  data_eq := dataOf_dataText rfl
  numbered := ⟨⟨16, by decide, by omega⟩, 2, by decide, by omega⟩

/-- The words decode as they stand. -/
theorem swapWords_data : swapWords data 256 = .ok {
    amount0 := -10 ^ 18
    amount1 := 3000 * 10 ^ 6
    sqrtPrice := 2 ^ 160
    liquidity := 10 ^ 20
    tick := -12345 } := by
  decide +kernel

end Overwide

/-- The price word `2 ^ 160` is no `uint160`, and the log yields an event with it. -/
theorem overwide_price_decodes :
    (∃ event, parseSwapLog Overwide.log Overwide.pools none 0 = .ok (some event) ∧
      event.sqrtPriceX96 = 2 ^ 160) ∧
    ¬DecodesExactly Overwide.log Overwide.pools none 0 := by
  obtain ⟨event, hevent, -, hvalues⟩ := exists_event_of_delivers Overwide.delivers
    Overwide.swapWords_data (by decide) 0
  have hvals := hvalues
  simp only [SwapEvent.values, List.cons.injEq] at hvals
  refine ⟨⟨event, hevent, hvals.2.2.1⟩, fun h => ?_⟩
  obtain ⟨pool, data, -, -, hencodes⟩ := h.sound event hevent
  rw [hvalues] at hencodes
  have hsqrt := (encodesTuple_layout_iff.mp hencodes).2.2.2.1
  exact lt_irrefl _ hsqrt.1.2

end TraderStack
