import CriticalCss.Browser.Blocklist
import CriticalCss.Browser.Device
import CriticalCss.Files
import CriticalCss.Probe.Basic
import CriticalCss.Rule.RuleMap
import CriticalCss.Text.Quoted

/-!
# Configurations

Everything that can be chosen for a run.  `validate` tells what is wrong with a configuration before
any work begins.
-/

namespace CriticalCss

/-- The device of a configuration: the name of a built-in one, or a profile. -/
inductive DeviceChoice where
  | preset (name : String)
  | profile (device : Device)

/-- Whether pictures are taken of the pages, and the directory they go to. -/
structure Screenshots where
  enabled : Bool
  directory : String

/-- The name of a picture without its ending: letters, digits, underscores and white space stay, and
every other character becomes an underscore. -/
def standardPictureName (url : String) : String :=
  String.ofList (url.toList.map fun c =>
    if c.isAlphanum || c == '_' || Text.isBlank c then c else '_')

/-- What is to be done in a run.  Times are in milliseconds. -/
structure Config where
  /-- The source style sheet: a path that ends in `.css`, or the style sheet itself; without it the
  style sheets of the first page are taken. -/
  css : Option String
  urls : List String
  /-- The directory that relative paths start from. -/
  baseDirectory : Option String
  /-- How long a navigation may take. -/
  timeout : Nat
  /-- How long a page may load before it is stopped. -/
  pageLoadTimeout : Nat
  /-- How long a page rests between navigation and probing. -/
  renderDelay : Nat
  /-- How many pages are worked on at once at most. -/
  concurrency : Nat
  device : DeviceChoice
  userAgent : Option String
  enableCache : Bool
  enableJavascript : Bool
  keepSelectors : List String
  removeSelectors : List String
  blockRequests : List String
  /-- Top-level animations are left out of the critical style sheet. -/
  dropKeyframes : Bool
  /-- The rest is printed too. -/
  outputRest : Bool
  invalidRules : InvalidRules
  screenshots : Screenshots
  /-- The name of the picture of a page. -/
  pictureName : String → String

/-- What is wrong with a configuration, in words. -/
structure ConfigError where
  reason : String
deriving DecidableEq

/-- The wording of the error. -/
def ConfigError.message (e : ConfigError) : String :=
  "invalid configuration: " ++ e.reason

namespace DeviceChoice

/-- The device that is meant. -/
def resolve : DeviceChoice → Except ConfigError Device
  | .profile d => .ok d
  | .preset name =>
    match Device.preset? name with
    | some d => .ok d
    | none =>
      .error ⟨"unknown device '" ++ name ++ "', expected one of: " ++
        ", ".intercalate (Device.presets.map (·.1))⟩

end DeviceChoice

namespace Config

/-- The configuration in which nothing is chosen. -/
def standard : Config :=
  { css := none
    urls := []
    baseDirectory := none
    timeout := 30000
    pageLoadTimeout := Probe.standardTimeout
    renderDelay := 250
    concurrency := 10
    device := .profile .desktop
    userAgent := none
    enableCache := true
    enableJavascript := true
    keepSelectors := []
    removeSelectors := []
    blockRequests := Blocklist.standard.patterns
    dropKeyframes := true
    outputRest := true
    invalidRules := .skip
    screenshots := ⟨false, "."⟩
    pictureName := standardPictureName }

/-- The configuration for some pages. -/
def ofUrls (urls : List String) : Config :=
  { standard with urls }

/-- The configuration that takes pictures and puts them into a directory. -/
def withScreenshots (c : Config) (directory : String) : Config :=
  { c with screenshots := ⟨true, directory⟩ }

/-- The first thing that is wrong with a configuration, if anything is. -/
def validate (c : Config) : Except ConfigError Unit := do
  if c.urls.isEmpty then throw ⟨"at least one URL is required"⟩
  match c.urls.find? Text.isAllBlank with
  | some url => throw ⟨"empty URL in list: " ++ Text.quoted url⟩
  | none => pure ()
  if c.concurrency = 0 then throw ⟨"concurrency must be at least 1"⟩
  if c.timeout = 0 then throw ⟨"timeout must be greater than zero"⟩
  let d ← c.device.resolve
  if d.width = 0 ∨ d.height = 0 then
    throw ⟨"device viewport must not be empty, got " ++ toString d.width ++ "x" ++
      toString d.height⟩

/-- The user agent that is announced when nobody chooses one. -/
def standardUserAgent : String := "foldline 1.0.0"

/-- The user agent that pages announce on a device. -/
def userAgentOn (c : Config) (d : Device) : String :=
  (c.userAgent.or d.userAgent).getD standardUserAgent

/-- The blocked requests. -/
def blocklist (c : Config) : Blocklist :=
  .ofList c.blockRequests

/-- The probe of every page. -/
def probe (c : Config) : Probe :=
  .ofTexts c.keepSelectors c.removeSelectors c.pageLoadTimeout

/-- The directory that relative paths start from. -/
def baseDir (c : Config) : String :=
  c.baseDirectory.getD "."

/-- Where the picture of a page goes. -/
def picturePath (c : Config) (url : String) : String :=
  Files.join c.screenshots.directory (c.pictureName url ++ ".png")

end Config

end CriticalCss
