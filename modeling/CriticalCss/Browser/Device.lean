import CriticalCss.Document.Geometry

/-!
# Device profiles

What a page is told about the device it is shown on.  The height of the viewport is the fold.
-/

namespace CriticalCss

/-- A device that a page is shown on. -/
structure Device where
  width : Nat
  height : Nat
  /-- Device pixels per CSS pixel. -/
  scale : Float32
  isMobile : Bool
  hasTouch : Bool
  isLandscape : Bool
  /-- The user agent the device announces, if it has its own. -/
  userAgent : Option String

namespace Device

/-- A desktop screen. -/
def desktop : Device := ⟨1200, 1080, 1, false, false, false, none⟩

/-- A desktop screen of a given size. -/
def ofSize (width height : Nat) : Device :=
  { desktop with width, height }

/-- The device with a pixel ratio. -/
def withScale (d : Device) (scale : Float32) : Device :=
  { d with scale }

/-- The device as a mobile one that can be touched. -/
def mobile (d : Device) : Device :=
  { d with isMobile := true, hasTouch := true }

/-- The device turned so that it is at least as wide as it is high. -/
def landscape (d : Device) : Device :=
  { d with width := max d.width d.height, height := min d.width d.height, isLandscape := true }

/-- The device with a user agent of its own. -/
def withUserAgent (d : Device) (userAgent : String) : Device :=
  { d with userAgent := some userAgent }

/-- The part of a page that the device shows. -/
def viewport (d : Device) : Viewport := ⟨d.width, d.height⟩

/-- The built-in devices by name. -/
def presets : List (String × Device) :=
  [("iPhone X", (((ofSize 375 812).withScale 3).mobile).withUserAgent
      "Mozilla/5.0 (iPhone; CPU iPhone OS 11_0 like Mac OS X) AppleWebKit/604.1.38 (KHTML, like Gecko) Version/11.0 Mobile/15A372 Safari/604.1"),
    ("iPad", (((ofSize 768 1024).withScale 2).mobile).withUserAgent
      "Mozilla/5.0 (iPad; CPU OS 11_0 like Mac OS X) AppleWebKit/604.1.34 (KHTML, like Gecko) Version/11.0 Mobile/15A5341f Safari/604.1"),
    ("Pixel 2", (((ofSize 411 731).withScale 2.625).mobile).withUserAgent
      "Mozilla/5.0 (Linux; Android 8.0; Pixel 2 Build/OPD3.170816.012) AppleWebKit/537.36 (KHTML, like Gecko) Chrome/75.0.3765.0 Mobile Safari/537.36"),
    ("Desktop HD", ofSize 1920 1080)]

/-- The built-in device with a name in any case. -/
def preset? (name : String) : Option Device :=
  (presets.find? fun p => Text.sameLetters p.1 name).map (·.2)

open Data (Value Fields)

/-- A device as a record. -/
def toValue (d : Device) : Value :=
  .record ([("width", .ofNat d.width), ("height", .ofNat d.height),
    ("deviceScaleFactor", .ofFloat32 d.scale), ("isMobile", .bool d.isMobile),
    ("hasTouch", .bool d.hasTouch), ("isLandscape", .bool d.isLandscape)] ++
    match d.userAgent with
    | none => []
    | some ua => [("userAgent", .text ua)])

/-- The names of the fields of a device. -/
def fieldNames : List String :=
  ["width", "height", "deviceScaleFactor", "isMobile", "hasTouch", "isLandscape", "userAgent"]

/-- Reads a device; what is missing is as on a desktop screen. -/
def ofValue? (v : Value) : Option Device := do
  let f ← Fields.of? fieldNames v
  let width ← f.withDefault "width" desktop.width (Value.asNat? Data.max32)
  let height ← f.withDefault "height" desktop.height (Value.asNat? Data.max32)
  let scale ← f.withDefault "deviceScaleFactor" desktop.scale Value.asFloat32?
  let isMobile ← f.withDefault "isMobile" false Value.asBool?
  let hasTouch ← f.withDefault "hasTouch" false Value.asBool?
  let isLandscape ← f.withDefault "isLandscape" false Value.asBool?
  let userAgent ← f.withDefault "userAgent" none (Value.asOption? Value.asText?)
  some ⟨width, height, scale, isMobile, hasTouch, isLandscape, userAgent⟩

end Device

end CriticalCss
