import TonTrace.Catalog
import TonTrace.Error
import TonTrace.Json.Reader
import TonTrace.Json.Record

/-! The settings of an analysis, and their JSON form. A setting that is left
out keeps its default. -/

set_option autoImplicit false

namespace TonTrace

open Json

namespace PatternGroups

def ofJson? (json : Json) : Option PatternGroups := do
  let field ← json.record? ["detect_auctions", "detect_nft", "detect_jetton", "detect_staking",
    "detect_dns", "detect_dex", "detect_subscriptions", "detect_invoices", "detect_gas_relay",
    "detect_fallbacks"]
  return {
    auctions := ← defaulted true bool? (field "detect_auctions")
    nfts := ← defaulted true bool? (field "detect_nft")
    jettons := ← defaulted true bool? (field "detect_jetton")
    staking := ← defaulted true bool? (field "detect_staking")
    domains := ← defaulted true bool? (field "detect_dns")
    exchanges := ← defaulted true bool? (field "detect_dex")
    subscriptions := ← defaulted true bool? (field "detect_subscriptions")
    invoices := ← defaulted true bool? (field "detect_invoices")
    gasRelays := ← defaulted true bool? (field "detect_gas_relay")
    plain := ← defaulted true bool? (field "detect_fallbacks") }

def toJson (groups : PatternGroups) : Json :=
  .object [
    ("detect_auctions", .bool groups.auctions),
    ("detect_nft", .bool groups.nfts),
    ("detect_jetton", .bool groups.jettons),
    ("detect_staking", .bool groups.staking),
    ("detect_dns", .bool groups.domains),
    ("detect_dex", .bool groups.exchanges),
    ("detect_subscriptions", .bool groups.subscriptions),
    ("detect_invoices", .bool groups.invoices),
    ("detect_gas_relay", .bool groups.gasRelays),
    ("detect_fallbacks", .bool groups.plain)]

end PatternGroups

structure Config where
  maxDepth : Word64 := ⟨256, by decide, by decide⟩
  maxRewrites : Word64 := ⟨10000, by decide, by decide⟩
  /-- How long to wait for a trace, in milliseconds. -/
  timeout : Word64 := ⟨30000, by decide, by decide⟩
  parallel : Bool := true
  groups : PatternGroups := {}

namespace Config

def ofJson? (json : Json) : Option Config := do
  let field ← json.record? ["max_depth", "max_rewrites", "timeout_ms", "enable_parallel",
    "pattern_detection"]
  let standard : Config := {}
  return {
    maxDepth := ← defaulted standard.maxDepth ranged? (field "max_depth")
    maxRewrites := ← defaulted standard.maxRewrites ranged? (field "max_rewrites")
    timeout := ← defaulted standard.timeout ranged? (field "timeout_ms")
    parallel := ← defaulted standard.parallel bool? (field "enable_parallel")
    groups := ← defaulted standard.groups PatternGroups.ofJson? (field "pattern_detection") }

def toJson (config : Config) : Json :=
  .object [
    ("max_depth", ofRanged config.maxDepth),
    ("max_rewrites", ofRanged config.maxRewrites),
    ("timeout_ms", ofRanged config.timeout),
    ("enable_parallel", .bool config.parallel),
    ("pattern_detection", config.groups.toJson)]

def ofJson (json : Json) : Except Error Config :=
  match ofJson? json with
  | some config => .ok config
  | none => .error .badConfig

def parse (text : String) : Except Error Config :=
  match Json.parse? text with
  | some json => ofJson json
  | none => .error .badConfig

end Config

end TonTrace
