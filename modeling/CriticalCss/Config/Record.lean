import CriticalCss.Config.Basic
import CriticalCss.Data.Json
import CriticalCss.Data.Toml

/-!
# Configurations as data

A configuration is a record in which every field has a default.  It is read from TOML or from JSON; the
ending of the name of a file tells which.
-/

namespace CriticalCss

open Data (Value Fields)

namespace DeviceChoice

/-- A choice as data: a name, or a record. -/
def toValue : DeviceChoice → Value
  | .preset name => .text name
  | .profile d => d.toValue

/-- Reads a choice. -/
def ofValue? : Value → Option DeviceChoice
  | .text name => some (.preset name)
  | v => (Device.ofValue? v).map .profile

end DeviceChoice

namespace Screenshots

/-- The choice about pictures as a record. -/
def toValue (s : Screenshots) : Value :=
  .record [("enabled", .bool s.enabled), ("path", .text s.directory)]

/-- Reads a choice about pictures. -/
def ofValue? (v : Value) : Option Screenshots := do
  let f ← Fields.of? ["enabled", "path"] v
  let enabled ← f.withDefault "enabled" false Value.asBool?
  let directory ← f.withDefault "path" "." Value.asText?
  some ⟨enabled, directory⟩

end Screenshots

namespace InvalidRules

/-- The name of a policy. -/
def name : InvalidRules → String
  | .skip => "skip"
  | .truncate => "truncate"

/-- The policy with a name. -/
def ofName? (s : String) : Option InvalidRules :=
  if s = "skip" then some .skip else if s = "truncate" then some .truncate else none

end InvalidRules

namespace Config

/-- The names of the fields, in order. -/
def fieldNames : List String :=
  ["css", "urls", "baseDir", "timeout", "pageLoadTimeout", "renderDelay", "concurrency", "device",
    "userAgent", "enableCache", "enableJavascript", "keepSelectors", "removeSelectors",
    "blockRequests", "dropKeyframes", "outputRemainingCss", "invalidRules", "screenshots"]

/-- A text, or null. -/
def optionValue : Option String → Value
  | none => .null
  | some s => .text s

/-- A configuration as a record. -/
def toValue (c : Config) : Value :=
  .record (fieldNames.zip
    [optionValue c.css, .ofTexts c.urls, optionValue c.baseDirectory, .ofNat c.timeout,
      .ofNat c.pageLoadTimeout, .ofNat c.renderDelay, .ofNat c.concurrency, c.device.toValue,
      optionValue c.userAgent, .bool c.enableCache, .bool c.enableJavascript,
      .ofTexts c.keepSelectors, .ofTexts c.removeSelectors, .ofTexts c.blockRequests,
      .bool c.dropKeyframes, .bool c.outputRest, .text c.invalidRules.name,
      c.screenshots.toValue])

/-- Reads a configuration. -/
def ofValue? (v : Value) : Option Config := do
  let f ← Fields.of? fieldNames v
  let texts (name : String) (default : List String) : Option (List String) :=
    f.withDefault name default Value.asTexts?
  let optional (name : String) : Option (Option String) :=
    f.withDefault name none (Value.asOption? Value.asText?)
  let count (name : String) (default : Nat) : Option Nat :=
    f.withDefault name default (Value.asNat? Data.max64)
  let flag (name : String) (default : Bool) : Option Bool :=
    f.withDefault name default Value.asBool?
  let css ← optional "css"
  let urls ← texts "urls" []
  let baseDirectory ← optional "baseDir"
  let timeout ← count "timeout" standard.timeout
  let pageLoadTimeout ← count "pageLoadTimeout" standard.pageLoadTimeout
  let renderDelay ← count "renderDelay" standard.renderDelay
  let concurrency ← count "concurrency" standard.concurrency
  let device ← f.withDefault "device" standard.device DeviceChoice.ofValue?
  let userAgent ← optional "userAgent"
  let enableCache ← flag "enableCache" true
  let enableJavascript ← flag "enableJavascript" true
  let keepSelectors ← texts "keepSelectors" []
  let removeSelectors ← texts "removeSelectors" []
  let blockRequests ← texts "blockRequests" standard.blockRequests
  let dropKeyframes ← flag "dropKeyframes" true
  let outputRest ← flag "outputRemainingCss" true
  let invalidRules ← f.withDefault "invalidRules" .skip fun v => v.asCase?.bind InvalidRules.ofName?
  let screenshots ← f.withDefault "screenshots" standard.screenshots Screenshots.ofValue?
  some { standard with
    css, urls, baseDirectory, timeout, pageLoadTimeout, renderDelay, concurrency, device, userAgent,
    enableCache, enableJavascript, keepSelectors, removeSelectors, blockRequests, dropKeyframes,
    outputRest, invalidRules, screenshots }

/-- Reads a configuration from TOML. -/
def ofToml? (text : String) : Option Config :=
  (Data.Toml.read? text).bind ofValue?

/-- Reads a configuration from JSON. -/
def ofJson? (text : String) : Option Config :=
  (Data.Json.read? text).bind ofValue?

/-- Why a configuration file cannot be used. -/
inductive LoadError where
  | config (e : ConfigError)
  /-- The file is no configuration in its format. -/
  | content

/-- Reads a configuration file. -/
def load (files : Files) (path : String) : Except LoadError Config :=
  match files.read path with
  | .error fault =>
    .error (.config ⟨"could not read '" ++ path ++ "': " ++ fault.message⟩)
  | .ok text =>
    let read? (c : Option Config) : Except LoadError Config :=
      match c with
      | some c => .ok c
      | none => .error .content
    match (Files.extension? path).map Text.lower with
    | some "toml" => read? (ofToml? text)
    | some "json" => read? (ofJson? text)
    | _ => .error (.config ⟨"unsupported configuration format: '" ++ path ++ "'"⟩)

end Config

end CriticalCss
