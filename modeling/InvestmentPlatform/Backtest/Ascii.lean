/-
The library on a small history: date-times given as such, ASCII texts, prices given as numbers.
-/
import InvestmentPlatform.Backtest.Evaluate

namespace InvestmentPlatform.Backtest

/-- `float` of a value that is a number, an exception of the kind Python raises otherwise. -/
def plainFloat : PyValue ℚ → Except Raised ℚ
  | .bool b => .ok (if b then 1 else 0)
  | .int n => .ok n
  | .float x => .ok x
  | .str _ => .error .valueError
  | _ => .error .typeError

@[reducible] def asciiLibrary : PyLibrary ℚ where
  str value := match value with
    | .str text => text
    | .none => "None"
    | _ => ""
  strip text := String.ofList
    ((text.toList.dropWhile Char.isWhitespace).reverse.dropWhile Char.isWhitespace).reverse
  upper text := String.ofList (text.toList.map Char.toUpper)
  lower text := String.ofList (text.toList.map Char.toLower)
  fromisoformat _ := .error .valueError
  uuid value := match value with
    | .str text => .ok text
    | _ => .error .attributeError
  float := plainFloat
  eventImpactFeature _ := .error .valueError
  quotient a b := .ok (a / b)

/-- Noon of a day, in UTC. -/
def noon (d : Int) : DateTime := ⟨d * day + 43200000000, some 0⟩

/-- A quote of an instrument, retrieved as it was observed. -/
def quote (instrumentId : String) (d : Int) (price : ℚ) : MarketPriceObservation :=
  ⟨instrumentId, noon d, price, some "INR", "TEST", "https://test.invalid", noon d⟩

/-- A row of the legacy history, which has no price of its own. -/
def legacyRow (id instrumentId : String) (d : Int) (action : String) : Recommendation ℚ :=
  ⟨[("recommendation_id", .str id), ("global_instrument_id", .str instrumentId),
    ("generated_at", .datetime (noon d)), ("market", .str "NSE"), ("short_term_action", .str action)],
    by simp⟩

/-- The prices of one instrument. -/
def pricesOf (instrumentId : String) (rows : List MarketPriceObservation) :
    Dict String (List MarketPriceObservation) := ⟨[(instrumentId, rows)], List.nodup_singleton _⟩

end InvestmentPlatform.Backtest
